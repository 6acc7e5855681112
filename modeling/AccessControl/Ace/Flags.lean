import AccessControl.FlagSet

/-!
# Entry flags

Inheritance of an entry, and what an audit entry records.
-/

namespace AccessControl

inductive AceFlag
  | objectInherit
  | containerInherit
  | noPropagateInherit
  | inheritOnly
  | inherited
  | successfulAccess
  | failedAccess
deriving DecidableEq

namespace AceFlag

def all : List AceFlag :=
  [.objectInherit, .containerInherit, .noPropagateInherit, .inheritOnly, .inherited,
    .successfulAccess, .failedAccess]

def position : AceFlag → Nat
  | .objectInherit => 0
  | .containerInherit => 1
  | .noPropagateInherit => 2
  | .inheritOnly => 3
  | .inherited => 4
  | .successfulAccess => 6
  | .failedAccess => 7

def name : AceFlag → String
  | .objectInherit => "OBJECT_INHERIT"
  | .containerInherit => "CONTAINER_INHERIT"
  | .noPropagateInherit => "NO_PROPAGATE_INHERIT"
  | .inheritOnly => "INHERIT_ONLY"
  | .inherited => "INHERITED"
  | .successfulAccess => "SUCCESSFUL_ACCESS"
  | .failedAccess => "FAILED_ACCESS"

instance : Flag AceFlag 8 where
  all := all
  position := position
  name := name
  mem_all f := by cases f <;> decide
  nodup_positions := by decide
  position_lt := by decide

end AceFlag

abbrev AceFlags := FlagSet AceFlag

/-- Whether any kind of child receives the entry. -/
def AceFlags.isInheritable (flags : AceFlags) : Bool :=
  flags.contains .objectInherit || flags.contains .containerInherit

end AccessControl
