import AccessControl.Ace.Basic
import AccessControl.Acl.Revision

/-!
# Access control lists

Entries in the order of the wire, behind a header with a declared size that need not be
the length of the entries.
-/

namespace AccessControl

structure Acl where
  revision : AclRevision
  sbz1 : UInt8
  size : UInt16
  sbz2 : UInt16
  aces : List Ace
deriving DecidableEq

namespace Acl

/-- Revision, two reserved fields, size and number of entries. -/
def headerLength : Nat := 8

/-- Where the next entry stands, if the list from `offset` on begins with these. -/
def endOffset : (offset : Nat) → List Ace → Nat
  | offset, [] => offset
  | offset, ace :: aces => endOffset (offset + ace.size.toNat) aces

/-- The bytes covered by the header and by the declared sizes of all entries. -/
def consumedLength (acl : Acl) : Nat := endOffset headerLength acl.aces

end Acl
end AccessControl
