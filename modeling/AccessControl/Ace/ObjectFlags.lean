import AccessControl.FlagSet

/-!
# Object flags

Which object type identifiers follow in an entry that may be scoped by them.
-/

namespace AccessControl

inductive ObjectFlag
  | objectTypePresent
  | inheritedObjectTypePresent
deriving DecidableEq

namespace ObjectFlag

def all : List ObjectFlag :=
  [.objectTypePresent, .inheritedObjectTypePresent]

def position : ObjectFlag → Nat
  | .objectTypePresent => 0
  | .inheritedObjectTypePresent => 1

def name : ObjectFlag → String
  | .objectTypePresent => "OBJECT_TYPE_PRESENT"
  | .inheritedObjectTypePresent => "INHERITED_OBJECT_TYPE_PRESENT"

instance : Flag ObjectFlag 32 where
  all := all
  position := position
  name := name
  mem_all f := by cases f <;> decide
  nodup_positions := by decide
  position_lt := by decide

end ObjectFlag

abbrev ObjectFlags := FlagSet ObjectFlag

end AccessControl
