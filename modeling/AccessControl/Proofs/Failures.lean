import AccessControl.Descriptor.Decode
import AccessControl.Proofs.Acl.Scan
import AccessControl.Proofs.Truncation

/-!
# Failures

Which errors a decoder can give. The errors of an entry stand by themselves, a list puts the
place of the entry around them, and a descriptor its component around those of a list. A
trustee is never cut off: the identifier that was read says how long it is, and was read from
what is skipped.
-/

namespace AccessControl

namespace Field

def ofEntry : List Field :=
  [.aceType, .aceFlags, .aceSize, .aceHeader, .accessMask, .objectFlags, .objectType,
    .inheritedObjectType]

def ofList : List Field := [.aclRevision, .aclSbz1, .aclSize, .aceCount, .aclSbz2]

def ofDescriptor : List Field :=
  [.descriptorRevision, .descriptorSbz1, .descriptorControl, .ownerOffset, .groupOffset,
    .saclOffset, .daclOffset]

end Field

namespace DecodeError

/-- The errors in the fields behind the header of an entry. -/
inductive OfFields : DecodeError → Prop
  | truncated {field : Field} (h : field ∈ Field.ofEntry) (offset needed available : Nat) :
      OfFields (.truncated field offset needed available)
  | sid (offset : Nat) (source : Sid.Shortfall) : OfFields (.sid offset source)

/-- The errors behind the header of an entry. -/
inductive OfBody : DecodeError → Prop
  | truncated {field : Field} (h : field ∈ Field.ofEntry) (offset needed available : Nat) :
      OfBody (.truncated field offset needed available)
  | sizeMismatch (declared consumed : Nat) : OfBody (.sizeMismatch declared consumed)
  | sid (offset : Nat) (source : Sid.Shortfall) : OfBody (.sid offset source)

inductive OfEntry : DecodeError → Prop
  | truncated {field : Field} (h : field ∈ Field.ofEntry) (offset needed available : Nat) :
      OfEntry (.truncated field offset needed available)
  | sizeOverrun (offset declared available : Nat) : OfEntry (.sizeOverrun offset declared available)
  | sizeMismatch (declared consumed : Nat) : OfEntry (.sizeMismatch declared consumed)
  | sid (offset : Nat) (source : Sid.Shortfall) : OfEntry (.sid offset source)
  | unknownAceType (code : UInt8) : OfEntry (.unknownAceType code)

/-- The errors in the header of a list. -/
inductive OfListHeader : DecodeError → Prop
  | truncated {field : Field} (h : field ∈ Field.ofList) (offset needed available : Nat) :
      OfListHeader (.truncated field offset needed available)
  | unknownAclRevision (value : UInt8) : OfListHeader (.unknownAclRevision value)

inductive OfList : DecodeError → Prop
  | truncated {field : Field} (h : field ∈ Field.ofList) (offset needed available : Nat) :
      OfList (.truncated field offset needed available)
  | unknownAclRevision (value : UInt8) : OfList (.unknownAclRevision value)
  | aclSizeExceeded (declared consumed : Nat) : OfList (.aclSizeExceeded declared consumed)
  | inAce (index offset : Nat) {source : DecodeError} (h : OfEntry source) :
      OfList (.inAce index offset source)

/-- The errors inside one component. -/
inductive OfComponent : Component → DecodeError → Prop
  | offsetOutOfBounds (which : Component) (offset available : Nat) :
      OfComponent which (.offsetOutOfBounds offset available)
  | owner (offset : Nat) (source : Sid.Shortfall) : OfComponent .owner (.sid offset source)
  | group (offset : Nat) (source : Sid.Shortfall) : OfComponent .group (.sid offset source)
  | sacl {source : DecodeError} (h : OfList source) : OfComponent .sacl source
  | dacl {source : DecodeError} (h : OfList source) : OfComponent .dacl source

inductive OfDescriptor : DecodeError → Prop
  | truncated {field : Field} (h : field ∈ Field.ofDescriptor) (offset needed available : Nat) :
      OfDescriptor (.truncated field offset needed available)
  | inDescriptor {which : Component} {source : DecodeError} (h : OfComponent which source) :
      OfDescriptor (.inDescriptor which source)

variable {e : DecodeError}

theorem OfFields.ofBody (h : OfFields e) : OfBody e := by
  cases h with
  | truncated h => exact .truncated h _ _ _
  | sid => exact .sid _ _

theorem OfBody.ofEntry (h : OfBody e) : OfEntry e := by
  cases h with
  | truncated h => exact .truncated h _ _ _
  | sizeMismatch => exact .sizeMismatch _ _
  | sid => exact .sid _ _

theorem OfListHeader.ofList (h : OfListHeader e) : OfList e := by
  cases h with
  | truncated h => exact .truncated h _ _ _
  | unknownAclRevision => exact .unknownAclRevision _

theorem OfEntry.of_isShort (h : e.isShortEntry = true) : OfEntry e := by
  have hfields : ∀ field ∈ [Field.aceType, .aceFlags, .aceSize], field ∈ Field.ofEntry := by
    decide
  cases e with
  | truncated field => exact .truncated (hfields field (of_decide_eq_true h)) _ _ _
  | sizeOverrun => exact .sizeOverrun _ _ _
  | _ => cases h

/-- The root of the error blames the bytes of a trustee for their number. -/
def CutsTrustee (e : DecodeError) : Prop :=
  ∃ offset needed available, e.rootCause = .truncated .trustee offset needed available

theorem not_cutsTrustee_of_mem {fields : List Field} {field : Field} (h : field ∈ fields)
    (hfields : Field.trustee ∉ fields) (offset needed available : Nat) :
    ¬ CutsTrustee (.truncated field offset needed available) := by
  rintro ⟨_, _, _, hroot⟩
  cases hroot
  exact hfields h

theorem OfEntry.not_cutsTrustee (h : OfEntry e) : ¬ e.CutsTrustee := by
  cases h with
  | truncated h => exact not_cutsTrustee_of_mem h (by decide) _ _ _
  | _ => rintro ⟨_, _, _, ⟨⟩⟩

theorem OfList.not_cutsTrustee (h : OfList e) : ¬ e.CutsTrustee := by
  cases h with
  | truncated h => exact not_cutsTrustee_of_mem h (by decide) _ _ _
  | inAce _ _ h => exact h.not_cutsTrustee
  | _ => rintro ⟨_, _, _, ⟨⟩⟩

theorem OfComponent.not_cutsTrustee {which : Component} (h : OfComponent which e) :
    ¬ e.CutsTrustee := by
  cases h with
  | sacl h => exact h.not_cutsTrustee
  | dacl h => exact h.not_cutsTrustee
  | _ => rintro ⟨_, _, _, ⟨⟩⟩

theorem OfDescriptor.not_cutsTrustee (h : OfDescriptor e) : ¬ e.CutsTrustee := by
  cases h with
  | truncated h => exact not_cutsTrustee_of_mem h (by decide) _ _ _
  | inDescriptor h => exact h.not_cutsTrustee

end DecodeError

open DecodeError

/-! ## Decoders -/

namespace Ace

variable {options : DecodeOptions} {bytes : List UInt8} {c : Cursor}

theorem fails_readHeader (bytes : List UInt8) : Fails OfEntry (readHeader bytes) := by
  intro e he
  rcases short_or_unknown_of_readHeader bytes e he with hshort | ⟨code, rest, -, -, rfl⟩
  · exact .of_isShort hshort
  · exact .unknownAceType code

theorem fails_readIdentifier (present : Bool) {field : Field} (h : field ∈ Field.ofEntry) :
    Fails OfFields (readIdentifier present field c) := by
  cases present with
  | true => exact .map (fails_guid (.truncated h)) _
  | false => exact .ok _

theorem fails_readScope (type : AceType) : Fails OfFields (readScope type c).result := by
  rw [result_readScope]
  split
  · refine .bind (.map (fails_take 4 (.truncated (by decide))) _) ?_
    rintro ⟨word, c₁⟩ -
    refine .bind (fails_readIdentifier _ (by decide)) ?_
    rintro ⟨objectType, c₂⟩ -
    refine .bind (fails_readIdentifier _ (by decide)) ?_
    rintro ⟨inherited, c₃⟩ -
    exact .ok _
  · exact .ok _

/-- The identifier takes up no more than the bytes that it was read from. -/
theorem exists_skip_trustee {trustee : Sid} (h : Sid.decode c.remaining = .ok trustee) :
    ∃ d, c.skip trustee.encodedLength .trustee = .ok d :=
  ⟨_, Cursor.skip_eq_ok_iff.mpr ⟨Sid.encodedLength_le_of_decode h, rfl⟩⟩

theorem fails_readTrustee : Fails OfFields (readTrustee c) := by
  refine .bind (.mapError fun source _ => .sid c.position source) ?_
  intro trustee htrustee
  obtain ⟨d, hd⟩ := exists_skip_trustee (mapError_eq_ok_iff.mp htrustee)
  rw [hd]
  exact .ok _

theorem fails_readTail (policy : SizePolicy) (type : AceType) (declared : Nat) :
    Fails OfBody (readTail policy type declared c).result := by
  unfold readTail
  split_ifs
  · exact .ok _
  · exact .error (.sizeMismatch _ _)
  · exact .ok _

/-- The fields, from behind the header that is passed over. -/
theorem fails_readFields (type : AceType) (extent : List UInt8) :
    Fails OfFields
      ((Cursor.ofBytes extent).skip headerLength .aceHeader >>= readFields type) := by
  refine .bind (.map (fails_take headerLength (.truncated (by decide))) _) ?_
  rintro c₁ -
  refine .bind (.map (fails_take 4 (.truncated (by decide))) _) ?_
  rintro ⟨mask, c₂⟩ -
  refine .bind (fails_readScope type) ?_
  rintro ⟨scope, c₃⟩ -
  refine .bind fails_readTrustee ?_
  rintro ⟨trustee, c₄⟩ -
  exact .ok _

theorem fails_readBody (policy : SizePolicy) (type : AceType) (flags : AceFlags) (size : UInt16)
    (extent : List UInt8) : Fails OfBody (readBody policy type flags size extent).result := by
  rw [result_readBody]
  refine .bind (fun e he => (fails_readFields type extent e he).ofBody) ?_
  rintro ⟨⟨mask, scope, trustee⟩, c₄⟩ -
  exact .map (fails_readTail _ _ _) _

/-- An error comes from the header, or from the fields behind a header that was read. -/
theorem readHeader_error_or_ofBody {e : DecodeError} (h : decode options bytes = .error e) :
    readHeader bytes = .error e ∨ OfBody e := by
  rw [decode, read, Traced.result_bind] at h
  rcases bind_eq_error_iff.mp h with hheader | ⟨⟨type, flags, size⟩, -, hbody⟩
  · exact .inl hheader
  · exact .inr (fails_readBody _ _ _ _ _ e hbody)

theorem fails_decode (options : DecodeOptions) (bytes : List UInt8) :
    Fails OfEntry (decode options bytes) := by
  intro e he
  rcases readHeader_error_or_ofBody he with hheader | hbody
  · exact fails_readHeader bytes e hheader
  · exact hbody.ofEntry

end Ace

namespace Acl

theorem fails_readHeader (bytes : List UInt8) : Fails OfListHeader (readHeader bytes) := by
  refine .bind (.map (fails_take 1 (.truncated (by decide))) _) ?_
  rintro ⟨value, c₁⟩ -
  dsimp only
  cases AclRevision.ofValue? value with
  | none => exact .error (.unknownAclRevision value)
  | some revision =>
    refine .bind (.map (fails_take 1 (.truncated (by decide))) _) ?_
    rintro ⟨sbz1, c₂⟩ -
    refine .bind (.map (fails_take 2 (.truncated (by decide))) _) ?_
    rintro ⟨size, c₃⟩ -
    refine .bind (.map (fails_take 2 (.truncated (by decide))) _) ?_
    rintro ⟨count, c₄⟩ -
    refine .bind (.map (fails_take 2 (.truncated (by decide))) _) ?_
    rintro ⟨sbz2, c₅⟩ -
    exact .ok _

theorem fails_decode (options : DecodeOptions) (bytes : List UInt8) :
    Fails OfList (decode options bytes) := by
  cases hheader : readHeader bytes with
  | error e =>
    rw [decode_of_readHeader_error hheader]
    exact .error (fails_readHeader bytes e hheader).ofList
  | ok header =>
    rcases exists_reached_of_readHeader hheader with
      ⟨acl, -, -, hdecode⟩ | ⟨s, e, -, -, he, hdecode⟩
    · rw [hdecode, checkSize]
      split_ifs
      · exact .error (.aclSizeExceeded _ _)
      · exact .ok _
    · rw [hdecode]
      exact .error (.inAce _ _ (Ace.fails_decode options _ e he))

end Acl

namespace Descriptor

/-- The header is only ever cut off. -/
theorem fails_readHeader {possible : DecodeError → Prop}
    (h : ∀ field ∈ Field.ofDescriptor, ∀ offset needed available,
      possible (.truncated field offset needed available)) (bytes : List UInt8) :
    Fails possible (readHeader bytes) := by
  refine .bind (.map (fails_take 1 (h _ (by decide))) _) ?_
  rintro ⟨revision, c₁⟩ -
  refine .bind (.map (fails_take 1 (h _ (by decide))) _) ?_
  rintro ⟨sbz1, c₂⟩ -
  refine .bind (.map (fails_take 2 (h _ (by decide))) _) ?_
  rintro ⟨control, c₃⟩ -
  refine .bind (.map (fails_take 4 (h _ (by decide))) _) ?_
  rintro ⟨owner, c₄⟩ -
  refine .bind (.map (fails_take 4 (h _ (by decide))) _) ?_
  rintro ⟨group, c₅⟩ -
  refine .bind (.map (fails_take 4 (h _ (by decide))) _) ?_
  rintro ⟨sacl, c₆⟩ -
  refine .bind (.map (fails_take 4 (h _ (by decide))) _) ?_
  rintro ⟨dacl, c₇⟩ -
  exact .ok _

theorem fails_readSid {which : Component}
    (h : ∀ offset source, OfComponent which (.sid offset source)) (offset : Nat)
    (bytes : List UInt8) : Fails (OfComponent which) (readSid offset bytes).result :=
  .mapError fun source _ => h offset source

theorem fails_readComponent {α : Type} {h : Header} {bytes : List UInt8} {which : Component}
    {read : List UInt8 → Traced α}
    (hread : ∀ tail, Fails (OfComponent which) (read tail).result) :
    Fails OfDescriptor (readComponent h bytes which read).result := by
  unfold readComponent
  split
  · rw [Traced.result_mapError]
    refine .mapError fun e he => .inDescriptor ?_
    split at he
    · simp only [Traced.result_bind, Traced.result_record, ok_bind] at he
      exact (hread _).bind (fun _ _ => .ok _) e he
    · cases he
      exact .offsetOutOfBounds _ _ _
  · exact .ok _

theorem fails_decode (options : DecodeOptions) (bytes : List UInt8) :
    Fails OfDescriptor (decode options bytes) := by
  simp only [decode, read, Traced.result_bind, Traced.result_liftM, Traced.result_record, ok_bind]
  refine .bind (fails_readHeader (fun _ hfield => .truncated hfield) bytes) ?_
  intro h _
  refine .bind (fails_readComponent fun tail => fails_readSid .owner _ tail) ?_
  intro owner _
  refine .bind (fails_readComponent fun tail => fails_readSid .group _ tail) ?_
  intro group _
  refine .bind (fails_readComponent fun tail e he => .sacl (Acl.fails_decode options tail e he)) ?_
  intro sacl _
  refine .bind (fails_readComponent fun tail e he => .dacl (Acl.fails_decode options tail e he)) ?_
  intro dacl _
  exact .ok _

end Descriptor
end AccessControl
