import AccessControl.Proofs.FlagSet
import AccessControl.Proofs.Json.Readable
import AccessControl.Proofs.Text.Words
import AccessControl.Report.Json
import Mathlib.Tactic.MkIffOfInductiveProp

/-!
# What the JSON of a descriptor tells

Everything in a descriptor is told by its JSON, except for the bits of flags and of object flags
that have no name. Descriptors have the same JSON text exactly when they are the same without these
bits.
-/

namespace AccessControl

/-! ## Members by name -/

namespace Json

/-- The value of the first member of this name. -/
def valueOf (name : String) (members : List (String × Json)) : Option Json := members.lookup name

variable {name : String}

@[simp] theorem valueOf_nil : valueOf name [] = none := rfl

@[simp] theorem valueOf_cons (key : String) (value : Json) (members : List (String × Json)) :
    valueOf name ((key, value) :: members) =
      if name = key then some value else valueOf name members := by
  by_cases h : name = key
  · simp [valueOf, h]
  · have hkey : (name == key) = false := beq_false_of_ne h
    simp [valueOf, List.lookup_cons, h, hkey]

@[simp] theorem valueOf_append (members members' : List (String × Json)) :
    valueOf name (members ++ members') = (valueOf name members).or (valueOf name members') :=
  List.lookup_append

@[simp] theorem valueOf_optionalMember {α : Type} (key : String) (value : Option α)
    (toJson : α → Json) :
    valueOf name (optionalMember key value toJson) =
      if name = key then value.map toJson else none := by
  cases value with
  | none => simp [optionalMember]
  | some a => simp [optionalMember]

theorem optionalMember_congr {α : Type} {key : String} {value value' : Option α} {toJson : α → Json}
    (h : value.map toJson = value'.map toJson) :
    optionalMember key value toJson = optionalMember key value' toJson := by
  cases value <;> cases value' <;> simp_all [optionalMember]

/-- Objects that are the same have the same members. -/
theorem valueOf_eq_of_object_eq {members members' : List (String × Json)}
    (h : Json.object members = Json.object members') (name : String) :
    valueOf name members = valueOf name members' := by
  rw [Json.object.inj h]

/-- What is absent is not confused with anything that is there. -/
theorem elim_null_eq_iff {α : Type} {toJson : α → Json} {same : α → α → Prop}
    (hnull : ∀ a, Json.null ≠ toJson a) (hsame : ∀ {a b}, toJson a = toJson b ↔ same a b)
    {a b : Option α} :
    a.elim .null toJson = b.elim .null toJson ↔ Option.Rel same a b := by
  cases a with
  | none =>
    cases b with
    | none => exact iff_of_true rfl .none
    | some b => exact iff_of_false (hnull b) nofun
  | some a =>
    cases b with
    | none => exact iff_of_false (hnull a).symm nofun
    | some b => exact hsame.trans Option.rel_some_some.symm

end Json

/-! ## Values of fields -/

theorem Sid.toJson_injective : Function.Injective Sid.toJson := by
  intro a b h
  exact text_injective (Json.string.inj h)

theorem Guid.toJson_injective : Function.Injective Guid.toJson := by
  intro a b h
  exact text_injective (Json.string.inj h)

theorem AceType.toJson_injective : Function.Injective AceType.toJson := by
  intro a b h
  exact name_injective (Json.string.inj h)

theorem AclRevision.toJson_injective : Function.Injective AclRevision.toJson := by
  intro a b h
  exact name_injective (Json.string.inj h)

theorem Hex.string_text_injective : Function.Injective (Json.string ∘ Hex.text) := by
  intro a b h
  exact text_injective (Json.string.inj h)

namespace FlagSet

variable {F : Type} {width : Nat} [Flag F width] {a b : FlagSet F}

theorem toJson_eq_iff (h : Flag.Legible F) : a.toJson = b.toJson ↔ a.named = b.named := by
  rw [← names_eq_iff h, toJson, toJson, Json.array.injEq]
  exact List.map_inj_right fun _ _ => Json.string.inj

theorem map_toJson_eq_iff (h : Flag.Legible F) {a b : Option (FlagSet F)} :
    a.map toJson = b.map toJson ↔ a.map named = b.map named := by
  cases a <;> cases b <;> simp [toJson_eq_iff h]

end FlagSet

/-- A descriptor has a name for each bit of its control word. -/
theorem Control.named_eq (control : Control) : control.named = control := by
  have hknown : FlagSet.known (F := ControlFlag) = BitVec.allOnes 16 := by decide
  rw [FlagSet.eq_iff_raw_eq, FlagSet.named, hknown, BitVec.and_allOnes]

/-! ## Entries -/

def ObjectScope.named (scope : ObjectScope) : ObjectScope :=
  { scope with flags := scope.flags.named }

namespace Ace

/-- The entry without the unnamed bits of its flags and object flags. -/
def named (ace : Ace) : Ace :=
  { ace with flags := ace.flags.named, scope := ace.scope.map ObjectScope.named }

/-- Agreement in what the JSON of an entry shows. -/
structure SameShown (a b : Ace) : Prop where
  type : a.type = b.type
  flags : a.flags.named = b.flags.named
  mask : a.mask = b.mask
  objectFlags : a.objectFlags.map FlagSet.named = b.objectFlags.map FlagSet.named
  objectType : a.objectType = b.objectType
  inheritedObjectType : a.inheritedObjectType = b.inheritedObjectType
  trustee : a.trustee = b.trustee
  applicationData : a.applicationData = b.applicationData
  size : a.size = b.size

theorem sameShown_of_toJson_eq {a b : Ace} (h : a.toJson = b.toJson) : a.SameShown b := by
  -- Members are looked up by name, as those before them may be left out.
  have hvalue := Json.valueOf_eq_of_object_eq h
  have hidentifier : Function.Injective (Option.map Guid.toJson) :=
    Option.map_injective Guid.toJson_injective
  have htype : a.type.toJson = b.type.toJson := by simpa using hvalue "type"
  have hflags : a.flags.toJson = b.flags.toJson := by simpa using hvalue "flags"
  have hmask : a.mask.toNat = b.mask.toNat := by simpa using hvalue "mask"
  have hobjectFlags : a.objectFlags.map FlagSet.toJson = b.objectFlags.map FlagSet.toJson := by
    simpa using hvalue "object_flags"
  have hobjectType : a.objectType.map Guid.toJson = b.objectType.map Guid.toJson := by
    simpa using hvalue "object_type"
  have hinherited : a.inheritedObjectType.map Guid.toJson =
      b.inheritedObjectType.map Guid.toJson := by
    simpa using hvalue "inherited_object_type"
  have htrustee : a.trustee.toJson = b.trustee.toJson := by simpa using hvalue "trustee"
  have hdata : a.applicationData.map (Json.string ∘ Hex.text) =
      b.applicationData.map (Json.string ∘ Hex.text) := by
    simpa using hvalue "application_data"
  have hsize : a.size.toNat = b.size.toNat := by simpa using hvalue "size"
  exact {
    type := AceType.toJson_injective htype
    flags := (FlagSet.toJson_eq_iff AceFlag.legible).mp hflags
    mask := UInt32.toNat_inj.mp hmask
    objectFlags := (FlagSet.map_toJson_eq_iff ObjectFlag.legible).mp hobjectFlags
    objectType := hidentifier hobjectType
    inheritedObjectType := hidentifier hinherited
    trustee := Sid.toJson_injective htrustee
    applicationData := Option.map_injective Hex.string_text_injective hdata
    size := UInt16.toNat_inj.mp hsize }

theorem toJson_eq_iff {a b : Ace} : a.toJson = b.toJson ↔ a.SameShown b := by
  constructor
  · exact sameShown_of_toJson_eq
  · intro h
    have hflags := (FlagSet.toJson_eq_iff AceFlag.legible).mpr h.flags
    have hobjectFlags := (FlagSet.map_toJson_eq_iff ObjectFlag.legible).mpr h.objectFlags
    rw [toJson, toJson, h.type, hflags, h.mask, Json.optionalMember_congr hobjectFlags,
      h.objectType, h.inheritedObjectType, h.trustee, h.applicationData, h.size]

/-- Object flags are there for the object types, with the identifiers. -/
theorem scope_named_eq_iff {a b : Option ObjectScope} :
    a.map ObjectScope.named = b.map ObjectScope.named ↔
      (a.map ObjectScope.flags).map FlagSet.named = (b.map ObjectScope.flags).map FlagSet.named ∧
        a.bind ObjectScope.objectType = b.bind ObjectScope.objectType ∧
        a.bind ObjectScope.inheritedObjectType = b.bind ObjectScope.inheritedObjectType := by
  cases a <;> cases b <;> simp [ObjectScope.named]

theorem named_eq_iff {a b : Ace} : a.named = b.named ↔ a.SameShown b := by
  constructor
  · intro h
    simp only [named, Ace.mk.injEq, scope_named_eq_iff] at h
    obtain ⟨htype, hflags, hmask, ⟨hobjectFlags, hobjectType, hinherited⟩, htrustee, hdata,
      hsize⟩ := h
    exact ⟨htype, hflags, hmask, hobjectFlags, hobjectType, hinherited, htrustee, hdata, hsize⟩
  · intro h
    have hscope := scope_named_eq_iff.mpr ⟨h.objectFlags, h.objectType, h.inheritedObjectType⟩
    rw [named, named, h.type, h.flags, h.mask, hscope, h.trustee, h.applicationData, h.size]

end Ace

/-! ## Lists -/

namespace Acl

/-- The list without the unnamed bits of its entries. -/
def named (acl : Acl) : Acl := { acl with aces := acl.aces.map Ace.named }

/-- Agreement in what the JSON of a list shows. -/
@[mk_iff]
structure SameShown (a b : Acl) : Prop where
  revision : a.revision = b.revision
  sbz1 : a.sbz1 = b.sbz1
  size : a.size = b.size
  sbz2 : a.sbz2 = b.sbz2
  aces : List.Forall₂ Ace.SameShown a.aces b.aces

/-- Entries that are told apart in the same way, one by one. -/
theorem map_eq_map_iff_forall₂ {β : Type} {f : Ace → β}
    (hf : ∀ {a b : Ace}, f a = f b ↔ a.SameShown b) {aces aces' : List Ace} :
    aces.map f = aces'.map f ↔ List.Forall₂ Ace.SameShown aces aces' := by
  induction aces generalizing aces' with
  | nil => cases aces' <;> simp
  | cons ace aces ih => cases aces' <;> simp [hf, ih]

theorem toJson_eq_iff {a b : Acl} : a.toJson = b.toJson ↔ a.SameShown b := by
  simp only [toJson, sameShown_iff, Json.object.injEq, List.cons.injEq, Prod.mk.injEq,
    Json.number.injEq, Json.array.injEq, AclRevision.toJson_injective.eq_iff, UInt8.toNat_inj,
    UInt16.toNat_inj, map_eq_map_iff_forall₂ Ace.toJson_eq_iff, true_and, and_true]

theorem named_eq_iff {a b : Acl} : a.named = b.named ↔ a.SameShown b := by
  simp only [named, sameShown_iff, Acl.mk.injEq, map_eq_map_iff_forall₂ Ace.named_eq_iff]

end Acl

namespace Descriptor

/-- The descriptor without the unnamed bits of its entries. -/
def named (d : Descriptor) : Descriptor :=
  { d with sacl := d.sacl.map Acl.named, dacl := d.dacl.map Acl.named }

/-- Agreement in what the JSON of a descriptor shows. -/
@[mk_iff]
structure SameShown (a b : Descriptor) : Prop where
  revision : a.revision = b.revision
  sbz1 : a.sbz1 = b.sbz1
  control : a.control = b.control
  owner : a.owner = b.owner
  group : a.group = b.group
  sacl : Option.Rel Acl.SameShown a.sacl b.sacl
  dacl : Option.Rel Acl.SameShown a.dacl b.dacl

theorem map_named_eq_iff {a b : Option Acl} :
    a.map Acl.named = b.map Acl.named ↔ Option.Rel Acl.SameShown a b := by
  cases a <;> cases b <;> simp [Acl.named_eq_iff]

theorem sid_toJson_eq_iff {a b : Option Sid} :
    a.elim .null Sid.toJson = b.elim .null Sid.toJson ↔ a = b := by
  rw [Json.elim_null_eq_iff nofun Sid.toJson_injective.eq_iff]
  cases a <;> cases b <;> simp

theorem acl_toJson_eq_iff {a b : Option Acl} :
    a.elim .null Acl.toJson = b.elim .null Acl.toJson ↔ Option.Rel Acl.SameShown a b :=
  Json.elim_null_eq_iff nofun Acl.toJson_eq_iff

theorem control_toJson_eq_iff {a b : Control} : a.toJson = b.toJson ↔ a = b := by
  rw [FlagSet.toJson_eq_iff ControlFlag.legible, Control.named_eq, Control.named_eq]

theorem toJson_eq_iff {a b : Descriptor} : a.toJson = b.toJson ↔ a.SameShown b := by
  simp only [toJson, sameShown_iff, Json.object.injEq, List.cons.injEq, Prod.mk.injEq,
    Json.number.injEq, UInt8.toNat_inj, control_toJson_eq_iff, sid_toJson_eq_iff,
    acl_toJson_eq_iff, true_and, and_true]

theorem named_eq_iff {a b : Descriptor} : a.named = b.named ↔ a.SameShown b := by
  simp only [named, sameShown_iff, Descriptor.mk.injEq, map_named_eq_iff]

end Descriptor

/-- Compact or indented to any depth, descriptors have the same text exactly when they are the same
without the unnamed bits of flags and object flags: everything else can be read from the text. -/
theorem json_text_eq_iff_named_eq (d d' : Descriptor) :
    (d.toJson.compact = d'.toJson.compact ↔ d.named = d'.named) ∧
      (∀ depth, d.toJson.pretty depth = d'.toJson.pretty depth ↔ d.named = d'.named) ∧
      (d.named = d'.named ↔ d.SameShown d') := by
  have htree : d.toJson = d'.toJson ↔ d.named = d'.named :=
    Descriptor.toJson_eq_iff.trans Descriptor.named_eq_iff.symm
  refine ⟨?_, fun depth => ?_, Descriptor.named_eq_iff⟩
  · rw [Json.compact_injective.eq_iff, htree]
  · rw [(Json.pretty_injective depth).eq_iff, htree]

end AccessControl
