/-!
# Decoding options

How far declared sizes are held against what was decoded. The default believes them.
-/

namespace AccessControl

/-- A strict policy refuses entries that declare bytes which no field accounts for. -/
inductive SizePolicy
  | trust
  | strict
deriving DecidableEq

structure DecodeOptions where
  sizePolicy : SizePolicy := .trust
  /-- Whether a list may not hold entries beyond its declared size. -/
  checkAclSize : Bool := false
deriving DecidableEq

namespace DecodeOptions

def strict : DecodeOptions := ⟨.strict, true⟩

end DecodeOptions
end AccessControl
