import AccessControl.Acl.Basic
import AccessControl.Descriptor.Control

/-!
# Security descriptors

Who owns an object, which group it belongs to, and its two access control lists: the
system list for auditing and the discretionary list for access.
-/

namespace AccessControl

structure Descriptor where
  revision : UInt8
  sbz1 : UInt8
  control : Control
  owner : Option Sid
  group : Option Sid
  /-- Absent unless the control word says that it is present. -/
  sacl : Option Acl
  dacl : Option Acl
deriving DecidableEq

namespace Descriptor

/-- Revision, a reserved byte, the control word and four offsets. -/
def headerLength : Nat := 20

end Descriptor
end AccessControl
