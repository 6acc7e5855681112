import AccessControl.Descriptor.Decode
import AccessControl.Proofs.Positions
import Mathlib.Tactic.SplitIfs

/-!
# Descriptors by components

A descriptor is three fields at the front of its bytes and four offsets behind them. Every
component is decoded by itself, from its offset on, wherever that points, and only when the
header selects it: then its offset is not zero and, for the lists, their bit of the control
word is set. An offset that is not selected is never followed.
-/

namespace AccessControl

open ByteOrder (ofLittle)

namespace Component

/-- What a component is decoded to. -/
abbrev Value : Component → Type
  | .owner | .group => Sid
  | .sacl | .dacl => Acl

/-- The decoder of a component, for bytes that stand at this offset of a descriptor. -/
def decode (options : DecodeOptions) (offset : Nat) :
    (which : Component) → List UInt8 → Except DecodeError which.Value
  | .owner, bytes | .group, bytes => (Sid.decode bytes).mapError (.sid offset)
  | .sacl, bytes | .dacl, bytes => Acl.decode options bytes

/-- The reader that a descriptor uses for the component. -/
def read (options : DecodeOptions) (offset : Nat) :
    (which : Component) → List UInt8 → Traced which.Value
  | .owner, bytes | .group, bytes => Descriptor.readSid offset bytes
  | .sacl, bytes | .dacl, bytes => Acl.read options bytes

theorem result_read (options : DecodeOptions) (offset : Nat) (which : Component)
    (bytes : List UInt8) :
    (which.read options offset bytes).result = which.decode options offset bytes := by
  cases which <;> rfl

/-- Where the header has the offset of the component. -/
def offsetPosition : Component → Nat
  | .owner => 4
  | .group => 8
  | .sacl => 12
  | .dacl => 16

theorem forall_iff {p : Component → Prop} :
    (∀ which, p which) ↔ p .owner ∧ p .group ∧ p .sacl ∧ p .dacl := by
  constructor
  · intro h
    exact ⟨h _, h _, h _, h _⟩
  · rintro ⟨howner, hgroup, hsacl, hdacl⟩ which
    cases which <;> assumption

end Component

namespace Descriptor

/-- The component of a descriptor, if it has one. -/
def value (d : Descriptor) : (which : Component) → Option which.Value
  | .owner => d.owner
  | .group => d.group
  | .sacl => d.sacl
  | .dacl => d.dacl

/-! ## The header, told from the bytes -/

def controlAt (bytes : List UInt8) : Nat := ofLittle (stretch bytes 2 2)

def offsetAt (bytes : List UInt8) (which : Component) : Nat :=
  ofLittle (stretch bytes which.offsetPosition 4)

/-- The lists wait for their bits of the control word, 0x10 and 0x04. -/
def admittedAt (bytes : List UInt8) : Component → Bool
  | .owner | .group => true
  | .sacl => (controlAt bytes).testBit 4
  | .dacl => (controlAt bytes).testBit 2

def selectedAt (bytes : List UInt8) (which : Component) : Bool :=
  admittedAt bytes which && offsetAt bytes which != 0

/-- Every field of the header is the one at its position. -/
structure HeaderStands (bytes : List UInt8) (h : Header) : Prop where
  revision_eq : h.revision = bytes.getD 0 0
  sbz1_eq : h.sbz1 = bytes.getD 1 0
  control_eq : h.control.raw.toNat = controlAt bytes
  offset_eq : ∀ which, h.offset which = offsetAt bytes which

variable {options : DecodeOptions} {bytes : List UInt8} {d : Descriptor} {h : Header}

/-- The header, and the cursor behind it. -/
def readHeaderFields (c : Cursor) : Except DecodeError (Header × Cursor) := do
  let (revision, c) ← c.byte .descriptorRevision
  let (sbz1, c) ← c.byte .descriptorSbz1
  let (control, c) ← c.wordLittle .descriptorControl
  let (owner, c) ← c.longLittle .ownerOffset
  let (group, c) ← c.longLittle .groupOffset
  let (sacl, c) ← c.longLittle .saclOffset
  let (dacl, c) ← c.longLittle .daclOffset
  .ok ({ revision, sbz1, control := ⟨control.toBitVec⟩, owner, group, sacl, dacl }, c)

theorem readHeader_eq_map (bytes : List UInt8) :
    readHeader bytes = (readHeaderFields (Cursor.ofBytes bytes)).map Prod.fst := by
  simp only [readHeader, readHeaderFields, ← bind_ok_eq_map, bind_assoc, ok_bind]
  rfl

theorem readHeaderFields_covers (bytes : List UInt8) :
    Cursor.Covers readHeaderFields bytes bytes.length 0 headerLength (HeaderStands bytes) := by
  have hbound : bytes.length ≤ bytes.length := Nat.le_refl _
  have hwidth : headerLength = 1 + (1 + (2 + (4 + (4 + (4 + 4))))) := rfl
  rw [hwidth]
  unfold readHeaderFields
  refine Cursor.Covers.bind (Cursor.byte_covers hbound _) fun revision hrevision => ?_
  refine Cursor.Covers.bind (Cursor.byte_covers hbound _) fun sbz1 hsbz1 => ?_
  refine Cursor.Covers.bind (Cursor.wordLittle_covers hbound _) fun control hcontrol => ?_
  refine Cursor.Covers.bind (Cursor.longLittle_covers hbound _) fun owner howner => ?_
  refine Cursor.Covers.bind (Cursor.longLittle_covers hbound _) fun group hgroup => ?_
  refine Cursor.Covers.bind (Cursor.longLittle_covers hbound _) fun sacl hsacl => ?_
  refine Cursor.Covers.bind_ok (Cursor.longLittle_covers hbound _) fun dacl hdacl => ?_
  refine ⟨⟨revision, sbz1, ⟨control.toBitVec⟩, owner, group, sacl, dacl⟩, ?_, fun _ => rfl⟩
  exact ⟨hrevision, hsbz1, hcontrol, Component.forall_iff.mpr ⟨howner, hgroup, hsacl, hdacl⟩⟩

theorem headerStands_of_readHeader (hread : readHeader bytes = .ok h) :
    headerLength ≤ bytes.length ∧ HeaderStands bytes h := by
  rw [readHeader_eq_map, exceptMap_eq_ok_iff, ← Cursor.within_length_zero] at hread
  obtain ⟨⟨h, c⟩, hread, rfl⟩ := hread
  obtain ⟨hfits, hstands, -⟩ := (readHeaderFields_covers bytes).sound (Nat.zero_le _) hread
  exact ⟨by omega, hstands⟩

theorem exists_readHeader (hlength : headerLength ≤ bytes.length) :
    ∃ h, readHeader bytes = .ok h ∧ HeaderStands bytes h := by
  obtain ⟨h, hstands, hread⟩ := (readHeaderFields_covers bytes).described (by omega)
  refine ⟨h, ?_, hstands⟩
  rw [readHeader_eq_map, ← Cursor.within_length_zero, hread]
  rfl

theorem HeaderStands.selects_eq (hstands : HeaderStands bytes h) (which : Component) :
    h.selects which = selectedAt bytes which := by
  have hadmits : h.admits which = admittedAt bytes which := by
    cases which with
    | owner => rfl
    | group => rfl
    | sacl => exact congrArg (Nat.testBit · 4) hstands.control_eq
    | dacl => exact congrArg (Nat.testBit · 2) hstands.control_eq
  rw [Header.selects, selectedAt, hadmits, hstands.offset_eq]

/-! ## Components -/

/-- The bytes that the offset of the component points to are decoded to this value. -/
def StandsAt (options : DecodeOptions) (bytes : List UInt8) (which : Component)
    (v : which.Value) : Prop :=
  offsetAt bytes which < bytes.length ∧
    which.decode options (offsetAt bytes which) (bytes.drop (offsetAt bytes which)) = .ok v

/-- What a descriptor has to hold for one component. -/
inductive Holds (options : DecodeOptions) (bytes : List UInt8) (which : Component) :
    Option which.Value → Prop
  | absent (hselected : selectedAt bytes which = false) : Holds options bytes which none
  | present {v : which.Value} (hselected : selectedAt bytes which = true)
      (hstands : StandsAt options bytes which v) : Holds options bytes which (some v)

theorem StandsAt.unique {which : Component} {v v' : which.Value}
    (h : StandsAt options bytes which v) (h' : StandsAt options bytes which v') : v = v' :=
  Except.ok.inj (h.2.symm.trans h'.2)

namespace Holds

variable {options' : DecodeOptions} {bytes' : List UInt8} {which : Component}
  {value : Option which.Value}

theorem exists_standsAt (h : Holds options bytes which value)
    (hselected : selectedAt bytes which = true) :
    ∃ v, value = some v ∧ StandsAt options bytes which v := by
  cases h with
  | absent hnot => cases hselected.symm.trans hnot
  | present _ hstands => exact ⟨_, rfl, hstands⟩

theorem standsAt (h : Holds options bytes which value) {v : which.Value} (hv : value = some v) :
    StandsAt options bytes which v := by
  subst hv
  cases h with
  | present _ hstands => exact hstands

/-- What is selected stays selected, and stands there too. -/
theorem transfer (h : Holds options bytes which value)
    (hselected : selectedAt bytes which = selectedAt bytes' which)
    (hstands : ∀ v, value = some v → selectedAt bytes which = true →
      StandsAt options bytes which v → StandsAt options' bytes' which v) :
    Holds options' bytes' which value := by
  cases h with
  | absent hnot => exact .absent (hselected.symm.trans hnot)
  | present his hv => exact .present (hselected.symm.trans his) (hstands _ rfl his hv)

end Holds

theorem exists_holds {which : Component}
    (h : selectedAt bytes which = true → ∃ v, StandsAt options bytes which v) :
    ∃ value, Holds options bytes which value := by
  cases hselected : selectedAt bytes which with
  | false => exact ⟨none, .absent hselected⟩
  | true =>
    obtain ⟨v, hv⟩ := h hselected
    exact ⟨some v, .present hselected hv⟩

/-- One component by itself. -/
def component (options : DecodeOptions) (bytes : List UInt8) (which : Component) :
    Except DecodeError (Option which.Value) :=
  if selectedAt bytes which then
    Except.mapError (.inDescriptor which) <|
      if offsetAt bytes which < bytes.length then
        (which.decode options (offsetAt bytes which)
          (bytes.drop (offsetAt bytes which))).map some
      else .error (.offsetOutOfBounds (offsetAt bytes which) bytes.length)
  else .ok none

theorem component_eq_ok_iff {which : Component} {value : Option which.Value} :
    component options bytes which = .ok value ↔ Holds options bytes which value := by
  unfold component
  constructor
  · intro h
    split_ifs at h with hselected hinside
    · obtain ⟨v, hv, rfl⟩ := exceptMap_eq_ok_iff.mp (mapError_eq_ok_iff.mp h)
      exact .present hselected ⟨hinside, hv⟩
    · cases h
    · cases h
      exact .absent (by simpa using hselected)
  · intro h
    cases h with
    | absent hselected => simp [hselected]
    | present hselected hstands => simp [hselected, hstands.1, hstands.2]

/-- Either the offset points outside, or the decoder of the component fails. -/
theorem exists_of_component_error {which : Component} {e : DecodeError}
    (h : component options bytes which = .error e) :
    selectedAt bytes which = true ∧ ∃ source, e = .inDescriptor which source ∧
      (bytes.length ≤ offsetAt bytes which ∧
          source = .offsetOutOfBounds (offsetAt bytes which) bytes.length ∨
        offsetAt bytes which < bytes.length ∧
          which.decode options (offsetAt bytes which) (bytes.drop (offsetAt bytes which)) =
            .error source) := by
  unfold component at h
  split_ifs at h with hselected hinside
  · cases hsource : which.decode options (offsetAt bytes which)
        (bytes.drop (offsetAt bytes which)) with
    | ok v =>
      rw [hsource] at h
      cases h
    | error source =>
      rw [hsource] at h
      cases h
      exact ⟨hselected, source, rfl, .inr ⟨hinside, rfl⟩⟩
  · cases h
    exact ⟨hselected, _, rfl, .inl ⟨Nat.not_lt.mp hinside, rfl⟩⟩

theorem result_readComponent_eq (hstands : HeaderStands bytes h) (which : Component) :
    (readComponent h bytes which (which.read options (h.offset which))).result =
      component options bytes which := by
  rw [readComponent, component, hstands.selects_eq, hstands.offset_eq]
  by_cases hselected : selectedAt bytes which = true
  · by_cases hinside : offsetAt bytes which < bytes.length
    · simp [hselected, hinside, Nat.succ_le_of_lt hinside, Component.result_read, bind_ok_eq_map]
    · have houtside : ¬ offsetAt bytes which + 1 ≤ bytes.length := hinside
      simp [hselected, hinside, houtside]
  · simp [hselected]

/-- Behind the header, the components one after the other. -/
def ofHeader (options : DecodeOptions) (bytes : List UInt8) (h : Header) :
    Except DecodeError Descriptor := do
  let owner ← component options bytes .owner
  let group ← component options bytes .group
  let sacl ← component options bytes .sacl
  let dacl ← component options bytes .dacl
  .ok { revision := h.revision, sbz1 := h.sbz1, control := h.control, owner, group, sacl, dacl }

theorem decode_of_readHeader (hread : readHeader bytes = .ok h) :
    decode options bytes = ofHeader options bytes h := by
  obtain ⟨-, hstands⟩ := headerStands_of_readHeader hread
  have howner : (readComponent h bytes .owner (readSid (h.offset .owner))).result =
      component options bytes .owner := result_readComponent_eq hstands .owner
  have hgroup : (readComponent h bytes .group (readSid (h.offset .group))).result =
      component options bytes .group := result_readComponent_eq hstands .group
  have hsacl : (readComponent h bytes .sacl (Acl.read options)).result =
      component options bytes .sacl := result_readComponent_eq hstands .sacl
  have hdacl : (readComponent h bytes .dacl (Acl.read options)).result =
      component options bytes .dacl := result_readComponent_eq hstands .dacl
  simp only [decode, read, Traced.result_bind, Traced.result_liftM, Traced.result_record,
    Traced.result_pure, hread, ok_bind, howner, hgroup, hsacl, hdacl, ofHeader]

theorem ofHeader_eq_ok_iff : ofHeader options bytes h = .ok d ↔
    d.revision = h.revision ∧ d.sbz1 = h.sbz1 ∧ d.control = h.control ∧
      ∀ which, Holds options bytes which (d.value which) := by
  simp only [ofHeader, bind_eq_ok_iff, ← component_eq_ok_iff, Component.forall_iff]
  constructor
  · rintro ⟨owner, howner, group, hgroup, sacl, hsacl, dacl, hdacl, h⟩
    cases h
    exact ⟨rfl, rfl, rfl, howner, hgroup, hsacl, hdacl⟩
  · rintro ⟨hrevision, hsbz1, hcontrol, howner, hgroup, hsacl, hdacl⟩
    refine ⟨_, howner, _, hgroup, _, hsacl, _, hdacl, ?_⟩
    rw [← hrevision, ← hsbz1, ← hcontrol]
    rfl

theorem exists_component_error_of_ofHeader {e : DecodeError}
    (herror : ofHeader options bytes h = .error e) :
    ∃ which, component options bytes which = .error e := by
  rcases bind_eq_error_iff.mp herror with h | ⟨owner, -, herror⟩
  · exact ⟨.owner, h⟩
  rcases bind_eq_error_iff.mp herror with h | ⟨group, -, herror⟩
  · exact ⟨.group, h⟩
  rcases bind_eq_error_iff.mp herror with h | ⟨sacl, -, herror⟩
  · exact ⟨.sacl, h⟩
  rcases bind_eq_error_iff.mp herror with h | ⟨dacl, -, herror⟩
  · exact ⟨.dacl, h⟩
  cases herror

/-- Header and components of a descriptor are those that its bytes hold. -/
structure Describes (options : DecodeOptions) (bytes : List UInt8) (d : Descriptor) : Prop where
  header : headerLength ≤ bytes.length
  revision_eq : d.revision = bytes.getD 0 0
  sbz1_eq : d.sbz1 = bytes.getD 1 0
  control_eq : d.control.raw.toNat = controlAt bytes
  holds : ∀ which, Holds options bytes which (d.value which)

theorem decode_of_readHeader_error {e : DecodeError} (hread : readHeader bytes = .error e) :
    decode options bytes = .error e := by
  rw [decode, read, Traced.result_bind, Traced.result_liftM, hread, error_bind]

theorem decode_eq_ok_iff_describes : decode options bytes = .ok d ↔ Describes options bytes d := by
  constructor
  · intro hdecode
    cases hread : readHeader bytes with
    | error e => cases hdecode.symm.trans (decode_of_readHeader_error hread)
    | ok h =>
      obtain ⟨hlength, hstands⟩ := headerStands_of_readHeader hread
      rw [decode_of_readHeader hread, ofHeader_eq_ok_iff] at hdecode
      obtain ⟨hrevision, hsbz1, hcontrol, hholds⟩ := hdecode
      exact ⟨hlength, hrevision.trans hstands.revision_eq, hsbz1.trans hstands.sbz1_eq,
        hcontrol ▸ hstands.control_eq, hholds⟩
  · intro hdescribes
    obtain ⟨h, hread, hstands⟩ := exists_readHeader hdescribes.header
    have hcontrol : d.control = h.control := by
      rw [FlagSet.eq_iff_raw_eq, ← BitVec.toNat_inj, hdescribes.control_eq, hstands.control_eq]
    rw [decode_of_readHeader hread, ofHeader_eq_ok_iff]
    exact ⟨hdescribes.revision_eq.trans hstands.revision_eq.symm,
      hdescribes.sbz1_eq.trans hstands.sbz1_eq.symm, hcontrol, hdescribes.holds⟩

/-- Every error is one of the header or of a component. -/
theorem header_or_component_error {e : DecodeError} (herror : decode options bytes = .error e) :
    readHeader bytes = .error e ∨
      headerLength ≤ bytes.length ∧ ∃ which, component options bytes which = .error e := by
  cases hread : readHeader bytes with
  | error e' =>
    cases herror.symm.trans (decode_of_readHeader_error hread)
    exact .inl rfl
  | ok h =>
    obtain ⟨hlength, -⟩ := headerStands_of_readHeader hread
    rw [decode_of_readHeader hread] at herror
    exact .inr ⟨hlength, exists_component_error_of_ofHeader herror⟩

theorem exists_describes (hlength : headerLength ≤ bytes.length)
    (hholds : ∀ which, ∃ value, Holds options bytes which value) :
    ∃ d, Describes options bytes d := by
  obtain ⟨h, -, hstands⟩ := exists_readHeader hlength
  obtain ⟨owner, howner⟩ := hholds .owner
  obtain ⟨group, hgroup⟩ := hholds .group
  obtain ⟨sacl, hsacl⟩ := hholds .sacl
  obtain ⟨dacl, hdacl⟩ := hholds .dacl
  exact ⟨⟨h.revision, h.sbz1, h.control, owner, group, sacl, dacl⟩, hlength, hstands.revision_eq,
    hstands.sbz1_eq, hstands.control_eq,
    Component.forall_iff.mpr ⟨howner, hgroup, hsacl, hdacl⟩⟩

section Front

variable {options' : DecodeOptions} {bytes' : List UInt8}

theorem getD_eq_of_front (hfront : bytes.take 4 = bytes'.take 4) {i : Nat} (hi : i < 4) :
    bytes.getD i 0 = bytes'.getD i 0 := by
  have h := congrArg (·.getD i 0) hfront
  simpa [List.getD_eq_getElem?_getD, List.getElem?_take_of_lt hi] using h

theorem controlAt_eq_of_front (hfront : bytes.take 4 = bytes'.take 4) :
    controlAt bytes = controlAt bytes' := by
  have htake : ∀ bytes : List UInt8, stretch bytes 2 2 = stretch (bytes.take 4) 2 2 :=
    fun bytes => (stretch_take (Nat.le_refl 4)).symm
  rw [controlAt, controlAt, htake bytes, htake bytes', hfront]

/-- Revision, reserved byte and control word stand in the first four bytes. -/
theorem Describes.of_front (hdescribes : Describes options bytes d)
    (hlength : headerLength ≤ bytes'.length) (hfront : bytes.take 4 = bytes'.take 4)
    (hholds : ∀ which, Holds options' bytes' which (d.value which)) :
    Describes options' bytes' d where
  header := hlength
  revision_eq := hdescribes.revision_eq.trans (getD_eq_of_front hfront (by decide))
  sbz1_eq := hdescribes.sbz1_eq.trans (getD_eq_of_front hfront (by decide))
  control_eq := hdescribes.control_eq.trans (controlAt_eq_of_front hfront)
  holds := hholds

end Front

theorem exists_decode_iff : (∃ d, decode options bytes = .ok d) ↔
    headerLength ≤ bytes.length ∧
      ∀ which, selectedAt bytes which = true → ∃ v, StandsAt options bytes which v := by
  constructor
  · intro h
    obtain ⟨d, h⟩ := h
    have hdescribes := decode_eq_ok_iff_describes.mp h
    refine ⟨hdescribes.header, ?_⟩
    intro which hselected
    obtain ⟨v, -, hstands⟩ := (hdescribes.holds which).exists_standsAt hselected
    exact ⟨v, hstands⟩
  · intro h
    obtain ⟨hlength, hstands⟩ := h
    obtain ⟨d, hdescribes⟩ := exists_describes hlength fun which => exists_holds (hstands which)
    exact ⟨d, decode_eq_ok_iff_describes.mpr hdescribes⟩

/-- Where the components stand, and what lies between them, does not matter. -/
theorem exists_decode_both {bytes' : List UInt8} (hlength : headerLength ≤ bytes.length)
    (hlength' : headerLength ≤ bytes'.length) (hfront : bytes.take 4 = bytes'.take 4)
    (hselected : ∀ which, selectedAt bytes which = selectedAt bytes' which)
    (hboth : ∀ which, selectedAt bytes which = true →
      ∃ v, StandsAt options bytes which v ∧ StandsAt options bytes' which v) :
    ∃ d, decode options bytes = .ok d ∧ decode options bytes' = .ok d := by
  have hstands : ∀ which, selectedAt bytes which = true →
      ∃ v, StandsAt options bytes which v := by
    intro which his
    obtain ⟨v, hv, -⟩ := hboth which his
    exact ⟨v, hv⟩
  obtain ⟨d, h⟩ := exists_decode_iff.mpr ⟨hlength, hstands⟩
  have hdescribes := decode_eq_ok_iff_describes.mp h
  have hdescribes' : Describes options bytes' d := by
    apply hdescribes.of_front hlength' hfront
    intro which
    apply (hdescribes.holds which).transfer (hselected which)
    intro v _ his hv
    obtain ⟨v', hv', hthere⟩ := hboth which his
    exact hv.unique hv' ▸ hthere
  exact ⟨d, h, decode_eq_ok_iff_describes.mpr hdescribes'⟩

theorem short_or_inDescriptor_of_error {e : DecodeError} (h : decode options bytes = .error e) :
    bytes.length < headerLength ∨
      ∃ which source, selectedAt bytes which = true ∧ e = .inDescriptor which source := by
  rcases header_or_component_error h with hread | ⟨-, which, hcomponent⟩
  · left
    apply Nat.lt_of_not_le
    intro hlength
    obtain ⟨header, hok, -⟩ := exists_readHeader hlength
    cases hok.symm.trans hread
  · right
    obtain ⟨hselected, source, he, -⟩ := exists_of_component_error hcomponent
    exact ⟨which, source, hselected, he⟩

/-- A descriptor is decoded exactly when its header is there and every selected component is
decoded from its offset on, and it holds just these components. So bytes that begin alike and
select the same components with equal values are decoded to the same descriptor, however the
components lie, and no error comes from a component that is not selected. -/
theorem decode_iff_components (options : DecodeOptions) (bytes : List UInt8) :
    ((∃ d, decode options bytes = .ok d) ↔ 20 ≤ bytes.length ∧
        ∀ which, selectedAt bytes which = true → ∃ v, StandsAt options bytes which v) ∧
      (∀ d, decode options bytes = .ok d ↔ Describes options bytes d) ∧
      (∀ bytes' : List UInt8, 20 ≤ bytes.length → 20 ≤ bytes'.length →
        bytes.take 4 = bytes'.take 4 →
        (∀ which, selectedAt bytes which = selectedAt bytes' which) →
        (∀ which, selectedAt bytes which = true →
          ∃ v, StandsAt options bytes which v ∧ StandsAt options bytes' which v) →
        ∃ d, decode options bytes = .ok d ∧ decode options bytes' = .ok d) ∧
      ∀ e, decode options bytes = .error e → bytes.length < 20 ∨
        ∃ which source, selectedAt bytes which = true ∧ e = .inDescriptor which source := by
  refine ⟨exists_decode_iff, fun d => decode_eq_ok_iff_describes, ?_, ?_⟩
  · intro bytes' hlength hlength' hfront hselected hboth
    exact exists_decode_both hlength hlength' hfront hselected hboth
  · intro e herror
    exact short_or_inDescriptor_of_error herror

/-- One identifier is owner and group; the lists have offsets, but not their bits. -/
def shared : List UInt8 :=
  [1, 7, 0, 0x80, 20, 0, 0, 0, 20, 0, 0, 0, 0xFF, 0xFF, 0xFF, 0xFF, 3, 0, 0, 0] ++
    [1, 0, 0, 0, 0, 0, 0, 5]

/-- The group stands before the owner, with a gap between them. -/
def apart : List UInt8 :=
  [1, 7, 0, 0x80, 29, 0, 0, 0, 20, 0, 0, 0, 0, 0, 0, 0, 0, 0, 0, 0] ++
    [1, 0, 0, 0, 0, 0, 0, 5] ++ [0xEE] ++ [1, 0, 0, 0, 0, 0, 0, 5, 0xEE]

theorem decode_shared_and_apart :
    (∀ which, selectedAt shared which = selectedAt apart which) ∧
      (∀ which, selectedAt shared which = true →
        ∃ v, StandsAt {} shared which v ∧ StandsAt {} apart which v) ∧
      ∃ d, decode {} shared = .ok d ∧ decode {} apart = .ok d := by
  have hselected : ∀ which, selectedAt shared which = selectedAt apart which := by
    intro which
    cases which <;> rfl
  have hstands : ∀ which, selectedAt shared which = true →
      ∃ v, StandsAt {} shared which v ∧ StandsAt {} apart which v := by
    intro which his
    cases which with
    | owner => exact ⟨⟨1, 5, []⟩, ⟨by decide, rfl⟩, by decide, rfl⟩
    | group => exact ⟨⟨1, 5, []⟩, ⟨by decide, rfl⟩, by decide, rfl⟩
    | sacl => cases his
    | dacl => cases his
  obtain ⟨-, -, hsame, -⟩ := decode_iff_components {} shared
  exact ⟨hselected, hstands,
    hsame apart (by decide) (by decide) (by decide) hselected hstands⟩

end Descriptor
end AccessControl
