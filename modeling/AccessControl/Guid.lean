import AccessControl.Hex
import AccessControl.Text.Quoted

/-!
# Object type identifiers

Sixteen bytes that identify a class, attribute or right. They are held in the order of
the text form; on the wire the bytes of the first three groups stand in reverse. The
order of identifiers is the order of their texts.
-/

namespace AccessControl

structure Guid where
  bytes : List UInt8
  length_bytes : bytes.length = 16
deriving DecidableEq

namespace Guid

def encodedLength : Nat := 16

def nil : Guid := ⟨List.replicate 16 0, rfl⟩

/-- Reverses the bytes in each of the first three groups, which is its own inverse. -/
def swapGroups : List UInt8 → List UInt8
  | a :: b :: c :: d :: e :: f :: g :: h :: rest => d :: c :: b :: a :: f :: e :: h :: g :: rest
  | bytes => bytes

@[simp] theorem length_swapGroups (bytes : List UInt8) :
    (swapGroups bytes).length = bytes.length := by
  unfold swapGroups
  split <;> simp

@[simp] theorem swapGroups_swapGroups (bytes : List UInt8) :
    swapGroups (swapGroups bytes) = bytes := by
  rcases bytes with _ | ⟨a, _ | ⟨b, _ | ⟨c, _ | ⟨d, _ | ⟨e, _ | ⟨f, _ | ⟨g, _ | ⟨h, rest⟩⟩⟩⟩⟩⟩⟩⟩ <;>
    rfl

def ofWire (bytes : List UInt8) (h : bytes.length = 16) : Guid :=
  ⟨swapGroups bytes, by rw [length_swapGroups, h]⟩

def toWire (guid : Guid) : List UInt8 := swapGroups guid.bytes

@[simp] theorem length_toWire (guid : Guid) : guid.toWire.length = 16 := by
  rw [toWire, length_swapGroups, guid.length_bytes]

@[simp] theorem toWire_ofWire (bytes : List UInt8) (h : bytes.length = 16) :
    (ofWire bytes h).toWire = bytes := by
  simp [ofWire, toWire]

@[simp] theorem ofWire_toWire (guid : Guid) : ofWire guid.toWire guid.length_toWire = guid := by
  cases guid
  simp [ofWire, toWire]

theorem ofWire_eq_iff {bytes : List UInt8} {h : bytes.length = 16} {guid : Guid} :
    ofWire bytes h = guid ↔ bytes = guid.toWire := by
  constructor
  · rintro rfl
    rw [toWire_ofWire]
  · rintro rfl
    exact ofWire_toWire guid

instance : LT Guid := ⟨fun g h => g.bytes < h.bytes⟩

instance : DecidableLT Guid := fun g h => inferInstanceAs (Decidable (g.bytes < h.bytes))

instance : LE Guid := ⟨fun g h => ¬ h < g⟩

instance : DecidableLE Guid := fun g h => inferInstanceAs (Decidable (¬ h < g))

/-! ## Text form -/

/-- Numbers of hexadecimal digits in the groups of the text form. -/
def groupWidths : List Nat := [8, 4, 4, 4, 12]

/-- Cuts a list into stretches of the given widths. -/
def cut : (widths : List Nat) → List Char → List (List Char)
  | [], _ => []
  | width :: widths, cs => cs.take width :: cut widths (cs.drop width)

def chars (guid : Guid) : List Char :=
  ['-'].intercalate (cut groupWidths (Hex.encode guid.bytes))

def text (guid : Guid) : String := String.ofList guid.chars

/-- The text with the name of the type around it. -/
def labelled (guid : Guid) : String := "Guid(" ++ guid.text ++ ")"

/-- The text as it was given. -/
structure ParseError where
  input : String
deriving DecidableEq

def ParseError.message (e : ParseError) : String :=
  "string " ++ Text.quoted e.input ++ " is not a valid GUID"

/-- One pair of braces around the text is dropped; a single brace is not. -/
def withoutBraces : List Char → List Char
  | '\x7b' :: rest => if rest.getLast? = some '\x7d' then rest.dropLast else '\x7b' :: rest
  | cs => cs

def ofChars? (cs : List Char) : Option Guid :=
  let groups := (withoutBraces cs).splitOn '-'
  if groups.map List.length = groupWidths then
    (Hex.decode? groups.flatten).bind fun bytes =>
      if h : bytes.length = 16 then some ⟨bytes, h⟩ else none
  else none

def parse (input : String) : Except ParseError Guid :=
  match ofChars? input.toList with
  | some guid => .ok guid
  | none => .error ⟨input⟩

end Guid
end AccessControl
