import AccessControl.Proofs.Locations
import Mathlib.Data.List.Chain

/-!
# Classification of errors

However deep an error lies inside others, the innermost one decides how the whole is classified,
and each message ends in that of the error inside it. An error that holds an unrecognized byte
says where that byte stands in the input: at the offset of the entry inside the list, behind the
offset of the component inside the descriptor.
-/

namespace AccessControl

variable {options : DecodeOptions} {bytes : List UInt8} {value : UInt8}

namespace DecodeError

variable {e : DecodeError}

/-! ## Errors around errors -/

/-- The place of an entry or a component stands around another error. -/
def IsPlaced : DecodeError → Prop
  | .inAce _ _ _ | .inDescriptor _ _ => True
  | _ => False

theorem not_isPlaced_rootCause (e : DecodeError) : ¬ e.rootCause.IsPlaced := by
  induction e with
  | inAce _ _ _ ih => exact ih
  | inDescriptor _ _ ih => exact ih
  | _ => exact id

theorem kind_rootCause (e : DecodeError) : e.rootCause.kind = e.kind := by
  induction e with
  | inAce _ _ _ ih => exact ih
  | inDescriptor _ _ ih => exact ih
  | _ => rfl

theorem unrecognizedValue?_rootCause (e : DecodeError) :
    e.rootCause.unrecognizedValue? = e.unrecognizedValue? := by
  induction e with
  | inAce _ _ _ ih => exact ih
  | inDescriptor _ _ ih => exact ih
  | _ => rfl

theorem kind_eq_unrecognized_iff (e : DecodeError) :
    e.kind = .unrecognizedDiscriminant ↔ ∃ value, e.unrecognizedValue? = some value := by
  induction e with
  | inAce _ _ _ ih => exact ih
  | inDescriptor _ _ ih => exact ih
  | unknownAceType value => exact ⟨fun _ => ⟨value, rfl⟩, fun _ => rfl⟩
  | unknownAclRevision value => exact ⟨fun _ => ⟨value, rfl⟩, fun _ => rfl⟩
  | _ => exact ⟨nofun, fun ⟨_, h⟩ => nomatch h⟩

theorem unrecognizedValue?_of_malformed (h : e.kind = .malformedStructure) :
    e.unrecognizedValue? ≠ some value := by
  intro hvalue
  cases h.symm.trans ((kind_eq_unrecognized_iff e).mpr ⟨value, hvalue⟩)

/-! ## Messages -/

/-- The inner text ends the outer one, and something stands before it. -/
def EndsIn (outer inner : String) : Prop := ∃ front, front ≠ "" ∧ outer = front ++ inner

/-- The first error stands around the second one. -/
inductive Wraps : DecodeError → DecodeError → Prop
  | entry (index offset : Nat) (source : DecodeError) : Wraps (.inAce index offset source) source
  | component (which : Component) (source : DecodeError) :
      Wraps (.inDescriptor which source) source

theorem Wraps.chain_eq {outer inner : DecodeError} (h : outer.Wraps inner) :
    outer.chain = outer.message :: inner.chain := by
  cases h <;> rfl

theorem head?_chain (e : DecodeError) : e.chain.head? = some e.message := by
  cases e <;> rfl

theorem isChain_cons_chain {outer : String} (h : EndsIn outer e.message)
    (hchain : e.chain.IsChain EndsIn) : (outer :: e.chain).IsChain EndsIn := by
  apply List.isChain_cons.mpr
  refine ⟨?_, hchain⟩
  rw [head?_chain]
  rintro _ ⟨⟩
  exact h

theorem isChain_chain (e : DecodeError) : e.chain.IsChain EndsIn := by
  induction e with
  | sid offset source =>
    exact List.isChain_pair.mpr ⟨_, by simp, rfl⟩
  | inAce index offset source ih => exact isChain_cons_chain ⟨_, by simp, rfl⟩ ih
  | inDescriptor component source ih => exact isChain_cons_chain ⟨_, by simp, rfl⟩ ih
  | _ => exact List.isChain_singleton _

/-! ## Places -/

/-- Where the header puts the component that failed; zero for an error of no component. -/
def componentOffset (bytes : List UInt8) : DecodeError → Nat
  | .inDescriptor which _ => Descriptor.offsetAt bytes which
  | _ => 0

/-- Where the entry that failed stands in its list; zero for an error of no entry. -/
def entryOffset : DecodeError → Nat
  | .inAce _ offset _ => offset
  | .inDescriptor _ source => source.entryOffset
  | _ => 0

/-- The value is known neither as a type nor as a revision, whichever of them it was read as. -/
def RejectsAs (e : DecodeError) (value : UInt8) : Prop :=
  e.rootCause = .unknownAceType value ∧ 20 ≤ value ∨
    e.rootCause = .unknownAclRevision value ∧ value ≠ 2 ∧ value ≠ 4

theorem OfEntry.entryOffset_eq (h : OfEntry e) : e.entryOffset = 0 := by
  cases h <;> rfl

theorem OfList.componentOffset_eq (h : OfList e) : e.componentOffset bytes = 0 := by
  cases h <;> rfl

theorem OfEntry.componentOffset_eq (h : OfEntry e) : e.componentOffset bytes = 0 := by
  cases h <;> rfl

end DecodeError

open DecodeError

/-! ## Decoders -/

theorem AceType.le_of_ofCode?_eq_none {code : UInt8} (h : ofCode? code = none) : 20 ≤ code := by
  apply UInt8.not_lt.mp
  intro hlt
  obtain ⟨type, htype⟩ := exists_code_eq_iff.mpr hlt
  cases h.symm.trans (ofCode?_eq_some_iff.mpr htype)

theorem AclRevision.ne_of_ofValue?_eq_none (h : ofValue? value = none) :
    value ≠ 2 ∧ value ≠ 4 := by
  constructor
  · rintro rfl
    cases h
  · rintro rfl
    cases h

/-- Only the first byte of an entry may be unrecognized. -/
theorem Ace.head_of_unrecognized {e : DecodeError} (h : decode options bytes = .error e)
    (hvalue : e.unrecognizedValue? = some value) :
    bytes[0]? = some value ∧ e.RejectsAs value := by
  rcases readHeader_error_or_ofBody h with hheader | hbody
  · rcases short_or_unknown_of_readHeader bytes e hheader with
      hshort | ⟨code, rest, rfl, hunknown, rfl⟩
    · exact absurd hvalue (unrecognizedValue?_of_malformed (kind_of_isShortEntry hshort))
    · cases hvalue
      exact ⟨rfl, .inl ⟨rfl, AceType.le_of_ofCode?_eq_none hunknown⟩⟩
  · cases hbody <;> cases hvalue

/-- In a list it is the first byte of the list, or that of an entry. -/
theorem Acl.byte_of_unrecognized {e : DecodeError} (h : decode options bytes = .error e)
    (hvalue : e.unrecognizedValue? = some value) :
    bytes[e.entryOffset]? = some value ∧ e.RejectsAs value := by
  cases hheader : readHeader bytes with
  | error e' =>
    cases h.symm.trans (decode_of_readHeader_error hheader)
    rcases short_or_unknown_of_readHeader bytes e hheader with
      hshort | ⟨code, rest, rfl, hunknown, rfl⟩
    · exact absurd hvalue (unrecognizedValue?_of_malformed (kind_of_isShortList hshort))
    · cases hvalue
      exact ⟨rfl, .inr ⟨rfl, AclRevision.ne_of_ofValue?_eq_none hunknown⟩⟩
  | ok header =>
    rcases exists_reached_of_readHeader hheader with
      ⟨acl, -, -, hdecode⟩ | ⟨s, source, -, -, hsource, hdecode⟩
    · rw [hdecode, checkSize] at h
      split_ifs at h
      cases h
      cases hvalue
    · cases h.symm.trans hdecode
      obtain ⟨hbyte, hrejects⟩ := Ace.head_of_unrecognized hsource hvalue
      rw [List.getElem?_drop] at hbyte
      exact ⟨hbyte, hrejects⟩

/-- In a descriptor the list that holds it stands at its own offset. -/
theorem Descriptor.byte_of_unrecognized {e : DecodeError} (h : decode options bytes = .error e)
    (hvalue : e.unrecognizedValue? = some value) :
    bytes[e.componentOffset bytes + e.entryOffset]? = some value ∧ e.RejectsAs value := by
  rcases header_or_component_error h with hheader | ⟨-, which, hcomponent⟩
  · have hmalformed : Fails (fun e => e.kind = .malformedStructure) (readHeader bytes) :=
      fails_readHeader (fun _ _ _ _ _ => rfl) bytes
    exact absurd hvalue (unrecognizedValue?_of_malformed (hmalformed e hheader))
  · obtain ⟨-, source, rfl, hfails⟩ := component_eq_error_iff.mp hcomponent
    cases hfails with
    | outside => cases hvalue
    | identifier => cases hvalue
    | list hwhich hinside hlist =>
      obtain ⟨hbyte, hrejects⟩ := Acl.byte_of_unrecognized hlist hvalue
      rw [List.getElem?_drop] at hbyte
      exact ⟨hbyte, hrejects⟩

/-- A descriptor fails with an error of its header, or with one component around an error of that
component, and a list with one entry at most around an error of that entry. Of every error, however
deep, the innermost one decides the kind and the unrecognized value, which is there exactly for one
of the two kinds. Its messages start with its own and, if it stands around another error, go on
with those of that error; every one of them ends in the next. What a decoder did not recognize is
the byte at the place that the error gives, and stands for no type or no revision. -/
theorem errors_are_classified :
    (∀ options bytes e, Descriptor.decode options bytes = .error e → OfDescriptor e) ∧
      (∀ e : DecodeError, ¬ e.rootCause.IsPlaced ∧ e.rootCause.kind = e.kind ∧
        e.rootCause.unrecognizedValue? = e.unrecognizedValue? ∧
        (e.kind = .unrecognizedDiscriminant ↔ ∃ value, e.unrecognizedValue? = some value) ∧
        e.chain.head? = some e.message ∧
        (∀ inner, e.Wraps inner → e.chain = e.message :: inner.chain) ∧
        (∀ offset source, e = .sid offset source → e.chain = [e.message, source.message]) ∧
        e.chain.IsChain EndsIn) ∧
      ∀ options bytes e, Ace.decode options bytes = .error e ∨ Acl.decode options bytes = .error e ∨
          Descriptor.decode options bytes = .error e →
        ∀ value, e.unrecognizedValue? = some value →
          bytes[e.componentOffset bytes + e.entryOffset]? = some value ∧ e.RejectsAs value := by
  refine ⟨fun options bytes => Descriptor.fails_decode options bytes, ?_, ?_⟩
  · intro e
    refine ⟨not_isPlaced_rootCause e, kind_rootCause e, unrecognizedValue?_rootCause e,
      kind_eq_unrecognized_iff e, head?_chain e, fun _ => Wraps.chain_eq, ?_, isChain_chain e⟩
    rintro offset source rfl
    rfl
  · rintro options bytes e (h | h | h) value hvalue
    · have hentry := Ace.fails_decode options bytes e h
      rw [hentry.componentOffset_eq, hentry.entryOffset_eq]
      exact Ace.head_of_unrecognized h hvalue
    · have hlist := Acl.fails_decode options bytes e h
      rw [hlist.componentOffset_eq, Nat.zero_add]
      exact Acl.byte_of_unrecognized h hvalue
    · exact Descriptor.byte_of_unrecognized h hvalue

/-- The list stands at 28 and its second entry at 24 behind that. -/
theorem errors_are_classified_secondUnknown : ∃ e,
    Descriptor.decode {} ownedSecondUnknown = .error e ∧ OfDescriptor e ∧
      e.rootCause = .unknownAceType 99 ∧ e.componentOffset ownedSecondUnknown = 28 ∧
      e.entryOffset = 24 ∧ ownedSecondUnknown[28 + 24]? = some 99 ∧ e.RejectsAs 99 := by
  have herror : Descriptor.decode {} ownedSecondUnknown =
      .error (.inDescriptor .dacl (.inAce 1 24 (.unknownAceType 99))) := rfl
  obtain ⟨hnesting, -, hplace⟩ := errors_are_classified
  obtain ⟨hbyte, hrejects⟩ := hplace {} ownedSecondUnknown _ (.inr (.inr herror)) 99 rfl
  exact ⟨_, herror, hnesting _ _ _ herror, rfl, rfl, rfl, hbyte, hrejects⟩

end AccessControl
