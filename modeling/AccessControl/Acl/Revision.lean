/-!
# Revisions of access control lists

A list of the standard revision holds no entries scoped by object type; one of the
directory service may.
-/

namespace AccessControl

inductive AclRevision
  | standard
  | directoryService
deriving DecidableEq

namespace AclRevision

def value : AclRevision → UInt8
  | .standard => 2
  | .directoryService => 4

def ofValue? (value : UInt8) : Option AclRevision :=
  [.standard, .directoryService].find? fun r => r.value = value

@[simp] theorem ofValue?_value (r : AclRevision) : ofValue? r.value = some r := by
  cases r <;> rfl

theorem ofValue?_eq_some_iff {value : UInt8} {r : AclRevision} :
    ofValue? value = some r ↔ r.value = value := by
  constructor
  · intro h
    simpa using List.find?_some h
  · rintro rfl
    exact ofValue?_value r

def name : AclRevision → String
  | .standard => "ACL_REVISION"
  | .directoryService => "ACL_REVISION_DS"

end AclRevision
end AccessControl
