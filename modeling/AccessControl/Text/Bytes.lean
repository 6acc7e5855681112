/-!
# Text as bytes

The UTF-8 form of a text, character by character.
-/

namespace AccessControl
namespace Text

def utf8 (text : String) : List UInt8 := text.toList.flatMap String.utf8EncodeChar

@[simp] theorem utf8_append (s t : String) : utf8 (s ++ t) = utf8 s ++ utf8 t := by
  simp [utf8]

end Text
end AccessControl
