import AccessControl.FlagSet

/-!
# Access rights

The rights of an access mask: generic and standard rights in the upper half of the word,
rights of the directory in the lower.
-/

namespace AccessControl

inductive AccessRight
  | genericRead
  | genericWrite
  | genericExecute
  | genericAll
  | maximumAllowed
  | accessSystemSecurity
  | synchronize
  | writeOwner
  | writeDacl
  | readControl
  | delete
  | dsControlAccess
  | dsCreateChild
  | dsDeleteChild
  | actrlDsList
  | dsSelf
  | dsReadProp
  | dsWriteProp
  | dsDeleteTree
  | dsListObject
deriving DecidableEq

namespace AccessRight

def all : List AccessRight :=
  [.genericRead, .genericWrite, .genericExecute, .genericAll, .maximumAllowed,
    .accessSystemSecurity, .synchronize, .writeOwner, .writeDacl, .readControl, .delete,
    .dsControlAccess, .dsCreateChild, .dsDeleteChild, .actrlDsList, .dsSelf, .dsReadProp,
    .dsWriteProp, .dsDeleteTree, .dsListObject]

def position : AccessRight → Nat
  | .genericRead => 31
  | .genericWrite => 30
  | .genericExecute => 29
  | .genericAll => 28
  | .maximumAllowed => 25
  | .accessSystemSecurity => 24
  | .synchronize => 20
  | .writeOwner => 19
  | .writeDacl => 18
  | .readControl => 17
  | .delete => 16
  | .dsControlAccess => 8
  | .dsCreateChild => 0
  | .dsDeleteChild => 1
  | .actrlDsList => 2
  | .dsSelf => 3
  | .dsReadProp => 4
  | .dsWriteProp => 5
  | .dsDeleteTree => 6
  | .dsListObject => 7

def name : AccessRight → String
  | .genericRead => "GENERIC_READ"
  | .genericWrite => "GENERIC_WRITE"
  | .genericExecute => "GENERIC_EXECUTE"
  | .genericAll => "GENERIC_ALL"
  | .maximumAllowed => "MAXIMUM_ALLOWED"
  | .accessSystemSecurity => "ACCESS_SYSTEM_SECURITY"
  | .synchronize => "SYNCHRONIZE"
  | .writeOwner => "WRITE_OWNER"
  | .writeDacl => "WRITE_DACL"
  | .readControl => "READ_CONTROL"
  | .delete => "DELETE"
  | .dsControlAccess => "DS_CONTROL_ACCESS"
  | .dsCreateChild => "DS_CREATE_CHILD"
  | .dsDeleteChild => "DS_DELETE_CHILD"
  | .actrlDsList => "ACTRL_DS_LIST"
  | .dsSelf => "DS_SELF"
  | .dsReadProp => "DS_READ_PROP"
  | .dsWriteProp => "DS_WRITE_PROP"
  | .dsDeleteTree => "DS_DELETE_TREE"
  | .dsListObject => "DS_LIST_OBJECT"

instance : Flag AccessRight 32 where
  all := all
  position := position
  name := name
  mem_all f := by cases f <;> decide
  nodup_positions := by decide
  position_lt := by decide

end AccessRight

abbrev AccessRights := FlagSet AccessRight

end AccessControl
