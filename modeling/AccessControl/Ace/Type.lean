/-!
# Entry types

What an entry of an access control list does: it allows, denies or records access, or
labels the object. Some types are scoped by object type identifiers, and some carry data
of the application behind the trustee.
-/

namespace AccessControl

inductive AceType
  | accessAllowed
  | accessDenied
  | systemAudit
  | systemAlarm
  | accessAllowedCompound
  | accessAllowedObject
  | accessDeniedObject
  | systemAuditObject
  | systemAlarmObject
  | accessAllowedCallback
  | accessDeniedCallback
  | accessAllowedCallbackObject
  | accessDeniedCallbackObject
  | systemAuditCallback
  | systemAlarmCallback
  | systemAuditCallbackObject
  | systemAlarmCallbackObject
  | systemMandatoryLabel
  | systemResourceAttribute
  | systemScopedPolicyId
deriving DecidableEq

namespace AceType

def all : List AceType :=
  [.accessAllowed, .accessDenied, .systemAudit, .systemAlarm, .accessAllowedCompound,
    .accessAllowedObject, .accessDeniedObject, .systemAuditObject, .systemAlarmObject,
    .accessAllowedCallback, .accessDeniedCallback, .accessAllowedCallbackObject,
    .accessDeniedCallbackObject, .systemAuditCallback, .systemAlarmCallback,
    .systemAuditCallbackObject, .systemAlarmCallbackObject, .systemMandatoryLabel,
    .systemResourceAttribute, .systemScopedPolicyId]

/-- The byte that stands for the type at the start of an entry. -/
def code : AceType → UInt8
  | .accessAllowed => 0
  | .accessDenied => 1
  | .systemAudit => 2
  | .systemAlarm => 3
  | .accessAllowedCompound => 4
  | .accessAllowedObject => 5
  | .accessDeniedObject => 6
  | .systemAuditObject => 7
  | .systemAlarmObject => 8
  | .accessAllowedCallback => 9
  | .accessDeniedCallback => 10
  | .accessAllowedCallbackObject => 11
  | .accessDeniedCallbackObject => 12
  | .systemAuditCallback => 13
  | .systemAlarmCallback => 14
  | .systemAuditCallbackObject => 15
  | .systemAlarmCallbackObject => 16
  | .systemMandatoryLabel => 17
  | .systemResourceAttribute => 18
  | .systemScopedPolicyId => 19

def ofCode? (code : UInt8) : Option AceType := all.find? fun t => t.code = code

@[simp] theorem ofCode?_code (t : AceType) : ofCode? t.code = some t := by
  cases t <;> rfl

theorem ofCode?_eq_some_iff {code : UInt8} {t : AceType} :
    ofCode? code = some t ↔ t.code = code := by
  constructor
  · intro h
    simpa using List.find?_some h
  · rintro rfl
    exact ofCode?_code t

/-- The known codes are those below twenty. -/
theorem exists_code_eq_iff {code : UInt8} : (∃ t : AceType, t.code = code) ↔ code < 20 := by
  constructor
  · rintro ⟨t, rfl⟩
    cases t <;> decide
  · intro h
    have hall : ∀ i : Fin 20, (all[i.val]?.map fun t => t.code.toNat) = some i.val := by decide
    obtain ⟨t, -, ht⟩ := Option.map_eq_some_iff.mp (hall ⟨code.toNat, UInt8.lt_iff_toNat_lt.mp h⟩)
    exact ⟨t, UInt8.toNat_inj.mp ht⟩

def name : AceType → String
  | .accessAllowed => "ACCESS_ALLOWED"
  | .accessDenied => "ACCESS_DENIED"
  | .systemAudit => "SYSTEM_AUDIT"
  | .systemAlarm => "SYSTEM_ALARM"
  | .accessAllowedCompound => "ACCESS_ALLOWED_COMPOUND"
  | .accessAllowedObject => "ACCESS_ALLOWED_OBJECT"
  | .accessDeniedObject => "ACCESS_DENIED_OBJECT"
  | .systemAuditObject => "SYSTEM_AUDIT_OBJECT"
  | .systemAlarmObject => "SYSTEM_ALARM_OBJECT"
  | .accessAllowedCallback => "ACCESS_ALLOWED_CALLBACK"
  | .accessDeniedCallback => "ACCESS_DENIED_CALLBACK"
  | .accessAllowedCallbackObject => "ACCESS_ALLOWED_CALLBACK_OBJECT"
  | .accessDeniedCallbackObject => "ACCESS_DENIED_CALLBACK_OBJECT"
  | .systemAuditCallback => "SYSTEM_AUDIT_CALLBACK"
  | .systemAlarmCallback => "SYSTEM_ALARM_CALLBACK"
  | .systemAuditCallbackObject => "SYSTEM_AUDIT_CALLBACK_OBJECT"
  | .systemAlarmCallbackObject => "SYSTEM_ALARM_CALLBACK_OBJECT"
  | .systemMandatoryLabel => "SYSTEM_MANDATORY_LABEL"
  | .systemResourceAttribute => "SYSTEM_RESOURCE_ATTRIBUTE"
  | .systemScopedPolicyId => "SYSTEM_SCOPED_POLICY_ID"

/-- Types whose entries begin with object flags. -/
def isObject : AceType → Bool
  | .accessAllowedObject | .accessDeniedObject | .systemAuditObject | .systemAlarmObject |
  .accessAllowedCallbackObject | .accessDeniedCallbackObject | .systemAuditCallbackObject |
  .systemAlarmCallbackObject => true
  | _ => false

/-- Types whose entries keep what follows the trustee. -/
def carriesData : AceType → Bool
  | .systemAuditObject | .accessAllowedCallback | .accessDeniedCallback |
  .accessAllowedCallbackObject | .accessDeniedCallbackObject | .systemAuditCallback => true
  | _ => false

/-- Types that grant the rights of their mask. -/
def allows : AceType → Bool
  | .accessAllowed | .accessAllowedCompound | .accessAllowedObject | .accessAllowedCallback
  | .accessAllowedCallbackObject => true
  | _ => false

/-- Types that refuse the rights of their mask. -/
def denies : AceType → Bool
  | .accessDenied | .accessDeniedObject | .accessDeniedCallback |
  .accessDeniedCallbackObject => true
  | _ => false

theorem not_allows_and_denies (t : AceType) : ¬ (t.allows = true ∧ t.denies = true) := by
  cases t <;> decide

end AceType
end AccessControl
