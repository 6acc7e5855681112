import AccessControl.Descriptor.Basic
import AccessControl.LayoutError

/-!
# Writing descriptors

Components follow the header in the order owner, group, system list, discretionary list,
without gaps. Unless it is given, the control word says that the descriptor is
self-relative and which lists are there.
-/

namespace AccessControl
namespace Descriptor

structure Layout where
  revision : UInt8 := 1
  control : Option UInt16 := none
  owner : Option (List UInt8) := none
  group : Option (List UInt8) := none
  sacl : Option (List UInt8) := none
  dacl : Option (List UInt8) := none
deriving DecidableEq

namespace Layout

def impliedControl (l : Layout) : Control :=
  FlagSet.ofList <| ControlFlag.selfRelative ::
    ((if l.sacl.isSome then [ControlFlag.saclPresent] else []) ++
      (if l.dacl.isSome then [ControlFlag.daclPresent] else []))

def controlWord (l : Layout) : UInt16 :=
  l.control.getD (UInt16.ofBitVec l.impliedControl.raw)

def components (l : Layout) : List (Option (List UInt8)) := [l.owner, l.group, l.sacl, l.dacl]

/-- The offset of each component, zero for one that is absent, when the first of them
stands at `start`. -/
def offsets : (start : Nat) → List (Option (List UInt8)) → List Nat
  | _, [] => []
  | start, none :: rest => 0 :: offsets start rest
  | start, some bytes :: rest => start :: offsets (start + bytes.length) rest

def encode (l : Layout) : Except LayoutError (List UInt8) :=
  let places := offsets headerLength l.components
  if places.all fun offset => offset < ByteOrder.capacity 4 then
    .ok (l.revision :: 0 ::
      (ByteOrder.toLittle 2 l.controlWord.toNat ++ places.flatMap (ByteOrder.toLittle 4) ++
        l.components.flatMap fun bytes => bytes.getD []))
  else .error .descriptorTooLong

end Layout
end Descriptor
end AccessControl
