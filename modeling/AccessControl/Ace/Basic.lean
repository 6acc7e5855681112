import AccessControl.Ace.Flags
import AccessControl.Ace.ObjectFlags
import AccessControl.Ace.Rights
import AccessControl.Ace.Type
import AccessControl.Guid
import AccessControl.Sid.Basic

/-!
# Entries of access control lists

One entry applies a mask of rights to a trustee. Entries of the object types have a
scope: flags, and up to two object type identifiers.
-/

namespace AccessControl

structure ObjectScope where
  flags : ObjectFlags
  objectType : Option Guid
  inheritedObjectType : Option Guid
deriving DecidableEq

namespace ObjectScope

def identifiers (scope : ObjectScope) : List Guid :=
  scope.objectType.toList ++ scope.inheritedObjectType.toList

def encodedLength (scope : ObjectScope) : Nat :=
  4 + Guid.encodedLength * scope.identifiers.length

end ObjectScope

structure Ace where
  type : AceType
  flags : AceFlags
  mask : UInt32
  /-- Present for the object types. -/
  scope : Option ObjectScope
  trustee : Sid
  /-- Present, if perhaps empty, for the types that carry data. -/
  applicationData : Option (List UInt8)
  /-- The declared size, header included. -/
  size : UInt16
deriving DecidableEq

namespace Ace

/-- Type, flags and size. -/
def headerLength : Nat := 4

/-- Header, mask and a trustee without sub-authorities. -/
def minLength : Nat := headerLength + 4 + Sid.headerLength

def rights (ace : Ace) : AccessRights := ⟨ace.mask.toBitVec⟩

def objectFlags (ace : Ace) : Option ObjectFlags := ace.scope.map ObjectScope.flags

def objectType (ace : Ace) : Option Guid := ace.scope.bind ObjectScope.objectType

def inheritedObjectType (ace : Ace) : Option Guid :=
  ace.scope.bind ObjectScope.inheritedObjectType

def isInherited (ace : Ace) : Bool := ace.flags.contains .inherited

/-- The bytes up to the end of the trustee. -/
def fieldsLength (ace : Ace) : Nat :=
  headerLength + 4 + ace.scope.elim 0 ObjectScope.encodedLength + ace.trustee.encodedLength

end Ace
end AccessControl
