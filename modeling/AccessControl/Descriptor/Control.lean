import AccessControl.FlagSet

/-!
# Control word

How the parts of a security descriptor came about, and which of them are there.
-/

namespace AccessControl

inductive ControlFlag
  | ownerDefaulted
  | groupDefaulted
  | daclPresent
  | daclDefaulted
  | saclPresent
  | saclDefaulted
  | daclTrusted
  | serverSecurity
  | daclComputedInheritanceRequired
  | saclComputedInheritanceRequired
  | daclAutoInherited
  | saclAutoInherited
  | daclProtected
  | saclProtected
  | rmControlValid
  | selfRelative
deriving DecidableEq

namespace ControlFlag

def all : List ControlFlag :=
  [.ownerDefaulted, .groupDefaulted, .daclPresent, .daclDefaulted, .saclPresent,
    .saclDefaulted, .daclTrusted, .serverSecurity, .daclComputedInheritanceRequired,
    .saclComputedInheritanceRequired, .daclAutoInherited, .saclAutoInherited,
    .daclProtected, .saclProtected, .rmControlValid, .selfRelative]

def position : ControlFlag → Nat
  | .ownerDefaulted => 0
  | .groupDefaulted => 1
  | .daclPresent => 2
  | .daclDefaulted => 3
  | .saclPresent => 4
  | .saclDefaulted => 5
  | .daclTrusted => 6
  | .serverSecurity => 7
  | .daclComputedInheritanceRequired => 8
  | .saclComputedInheritanceRequired => 9
  | .daclAutoInherited => 10
  | .saclAutoInherited => 11
  | .daclProtected => 12
  | .saclProtected => 13
  | .rmControlValid => 14
  | .selfRelative => 15

def name : ControlFlag → String
  | .ownerDefaulted => "OWNER_DEFAULTED"
  | .groupDefaulted => "GROUP_DEFAULTED"
  | .daclPresent => "DACL_PRESENT"
  | .daclDefaulted => "DACL_DEFAULTED"
  | .saclPresent => "SACL_PRESENT"
  | .saclDefaulted => "SACL_DEFAULTED"
  | .daclTrusted => "DACL_TRUSTED"
  | .serverSecurity => "SERVER_SECURITY"
  | .daclComputedInheritanceRequired => "DACL_COMPUTED_INHERITANCE_REQUIRED"
  | .saclComputedInheritanceRequired => "SACL_COMPUTED_INHERITANCE_REQUIRED"
  | .daclAutoInherited => "DACL_AUTO_INHERITED"
  | .saclAutoInherited => "SACL_AUTO_INHERITED"
  | .daclProtected => "DACL_PROTECTED"
  | .saclProtected => "SACL_PROTECTED"
  | .rmControlValid => "RM_CONTROL_VALID"
  | .selfRelative => "SELF_RELATIVE"

instance : Flag ControlFlag 16 where
  all := all
  position := position
  name := name
  mem_all f := by cases f <;> decide
  nodup_positions := by decide
  position_lt := by decide

end ControlFlag

abbrev Control := FlagSet ControlFlag

end AccessControl
