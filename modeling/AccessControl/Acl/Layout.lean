import AccessControl.Acl.Basic
import AccessControl.LayoutError

/-!
# Writing lists

A layout holds entries that are already encoded. Size and count follow from them unless
they are given.
-/

namespace AccessControl
namespace Acl

structure Layout where
  revision : UInt8 := AclRevision.directoryService.value
  sbz1 : UInt8 := 0
  sbz2 : UInt16 := 0
  entries : List (List UInt8) := []
  declaredSize : Option UInt16 := none
  declaredCount : Option UInt16 := none
deriving DecidableEq

namespace Layout

def body (l : Layout) : List UInt8 := l.entries.flatten

def length (l : Layout) : Nat := headerLength + l.body.length

/-- The true length is judged before the true count, and both even when others are
declared. -/
def encode (l : Layout) : Except LayoutError (List UInt8) :=
  if ByteOrder.capacity 2 ≤ l.length then .error .aclTooLong
  else if ByteOrder.capacity 2 ≤ l.entries.length then .error .tooManyEntries
  else
    let size := l.declaredSize.getD (UInt16.ofNat l.length)
    let count := l.declaredCount.getD (UInt16.ofNat l.entries.length)
    .ok (l.revision :: l.sbz1 ::
      (ByteOrder.toLittle 2 size.toNat ++ ByteOrder.toLittle 2 count.toNat ++
        ByteOrder.toLittle 2 l.sbz2.toNat ++ l.body))

end Layout
end Acl
end AccessControl
