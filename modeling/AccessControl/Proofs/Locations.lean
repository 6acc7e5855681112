import AccessControl.Proofs.Descriptor.Components
import AccessControl.Proofs.Failures
import Mathlib.Data.List.Induction

/-!
# Where decoding fails

The entries of a list stand in a chain: each begins where the one before it ends by its declared
size. The first link that is not decoded is the one that is reported, with the number of links
before it and the place where it stands. In a descriptor it is the first selected component that
is not decoded, in the order owner, group, system list, discretionary list.
-/

namespace AccessControl

variable {options : DecodeOptions} {bytes : List UInt8}

/-! ## Lists -/

namespace Acl

/-- Decoded entries that stand in a chain from `offset` on. -/
def Chained (options : DecodeOptions) (bytes : List UInt8) : (offset : Nat) → List Ace → Prop
  | _, [] => True
  | offset, ace :: aces => Ace.decode options (bytes.drop offset) = .ok ace ∧
      Chained options bytes (offset + ace.size.toNat) aces

variable {header : Header} {s : Scan} {ace : Ace} {aces : List Ace}

theorem chained_append_singleton_iff {offset : Nat} :
    Chained options bytes offset (aces ++ [ace]) ↔ Chained options bytes offset aces ∧
      Ace.decode options (bytes.drop (endOffset offset aces)) = .ok ace := by
  induction aces generalizing offset with
  | nil => simp [Chained, endOffset]
  | cons first aces ih => simp only [List.cons_append, Chained, endOffset, ih, and_assoc]

namespace Scan

theorem Reached.chained (h : Reached options bytes header s) :
    Chained options bytes headerLength s.found := by
  induction h with
  | start hheader => exact trivial
  | push hs hcount hace ih =>
    apply chained_append_singleton_iff.mpr
    rw [← hs.sound.offset_eq]
    exact ⟨ih, hace⟩

/-- A scan follows the chain as far as entries are announced. -/
theorem reached_of_chained (hheader : readHeader bytes = .ok header)
    (hchained : Chained options bytes headerLength aces)
    (hcount : aces.length ≤ header.count.toNat) :
    Reached options bytes header ⟨endOffset headerLength aces, aces⟩ := by
  induction aces using List.reverseRecOn with
  | nil => exact .start hheader
  | append_singleton aces ace ih =>
    rw [List.length_append, List.length_singleton] at hcount
    obtain ⟨hfront, hace⟩ := chained_append_singleton_iff.mp hchained
    have hreached := ih hfront (Nat.le_of_succ_le hcount)
    have hnext := hreached.push hcount hace
    rw [push, ← endOffset_append] at hnext
    exact hnext

end Scan

/-- The header is read, and so are these entries behind it, all of which it announces. -/
structure Begins (options : DecodeOptions) (bytes : List UInt8) (header : Header)
    (aces : List Ace) : Prop where
  header_eq : readHeader bytes = .ok header
  chained : Chained options bytes headerLength aces
  announced : aces.length ≤ header.count.toNat

theorem begins_iff_reached : Begins options bytes header aces ↔
    Scan.Reached options bytes header ⟨endOffset headerLength aces, aces⟩ := by
  constructor
  · intro h
    exact Scan.reached_of_chained h.header_eq h.chained h.announced
  · intro h
    exact ⟨h.readHeader_eq, h.chained, h.sound.announced⟩

/-- Every state of the scan is a beginning of the list. -/
theorem Scan.Reached.begins (h : Scan.Reached options bytes header s) :
    Begins options bytes header s.found ∧ s.offset = endOffset headerLength s.found :=
  ⟨⟨h.readHeader_eq, h.chained, h.sound.announced⟩, h.sound.offset_eq⟩

theorem Begins.endOffset_le (h : Begins options bytes header aces) :
    endOffset headerLength aces ≤ bytes.length :=
  (begins_iff_reached.mp h).sound.inside

theorem checkSize_ne_inAce {acl : Acl} {index offset : Nat} {e : DecodeError} :
    checkSize options acl ≠ .error (.inAce index offset e) := by
  unfold checkSize
  split_ifs <;> nofun

theorem checkSize_eq_aclSizeExceeded_iff {acl : Acl} {declared consumed : Nat} :
    checkSize options acl = .error (.aclSizeExceeded declared consumed) ↔
      options.checkAclSize = true ∧ acl.size.toNat < acl.consumedLength ∧
        declared = acl.size.toNat ∧ consumed = acl.consumedLength := by
  unfold checkSize
  split_ifs with h
  · simp only [Except.error.injEq, DecodeError.aclSizeExceeded.injEq]
    constructor
    · rintro ⟨rfl, rfl⟩
      exact ⟨h.1, h.2, rfl, rfl⟩
    · rintro ⟨-, -, rfl, rfl⟩
      exact ⟨rfl, rfl⟩
  · constructor
    · nofun
    · rintro ⟨hcheck, hexceeds, -, -⟩
      exact absurd ⟨hcheck, hexceeds⟩ h

/-- An entry is reported exactly when it is the first of the announced ones that is not decoded. -/
theorem decode_eq_inAce_iff {index offset : Nat} {e : DecodeError} :
    decode options bytes = .error (.inAce index offset e) ↔
      ∃ header aces, Begins options bytes header aces ∧ aces.length = index ∧
        index < header.count.toNat ∧ endOffset headerLength aces = offset ∧
        Ace.decode options (bytes.drop offset) = .error e := by
  constructor
  · intro h
    cases hheader : readHeader bytes with
    | error e' =>
      rw [decode_of_readHeader_error hheader] at h
      cases h
      -- No error of the header is placed in an entry.
      cases fails_readHeader bytes _ hheader
    | ok header =>
      rcases exists_reached_of_readHeader hheader with
        ⟨acl, -, -, hdecode⟩ | ⟨s, e', hs, hcount, he, hdecode⟩
      · exact absurd (hdecode.symm.trans h) checkSize_ne_inAce
      · cases hdecode.symm.trans h
        obtain ⟨hbegins, hoffset⟩ := hs.begins
        exact ⟨header, s.found, hbegins, rfl, hcount, hoffset.symm, he⟩
  · rintro ⟨header, aces, hbegins, rfl, hcount, rfl, he⟩
    exact (begins_iff_reached.mp hbegins).decode_of_error hcount he

/-- The size is checked when all announced entries are decoded, and not before. -/
theorem decode_eq_aclSizeExceeded_iff {declared consumed : Nat} :
    decode options bytes = .error (.aclSizeExceeded declared consumed) ↔
      ∃ header aces, Begins options bytes header aces ∧ aces.length = header.count.toNat ∧
        options.checkAclSize = true ∧ header.size.toNat = declared ∧
        endOffset headerLength aces = consumed ∧ declared < consumed := by
  constructor
  · intro h
    cases hheader : readHeader bytes with
    | error e =>
      rw [decode_of_readHeader_error hheader] at h
      cases h
      cases fails_readHeader bytes _ hheader
    | ok header =>
      rcases exists_reached_of_readHeader hheader with
        ⟨acl, hreached, hcount, -⟩ | ⟨s, e, -, -, -, hdecode⟩
      · have hcomplete : decode options bytes = _ := hreached.decode_of_complete hcount
        obtain ⟨hcheck, hexceeds, rfl, rfl⟩ :=
          checkSize_eq_aclSizeExceeded_iff.mp (hcomplete.symm.trans h)
        obtain ⟨hbegins, -⟩ := hreached.begins
        exact ⟨header, acl.aces, hbegins, hcount, hcheck, rfl, rfl, hexceeds⟩
      · cases hdecode.symm.trans h
  · rintro ⟨header, aces, hbegins, hcount, hcheck, rfl, rfl, hexceeds⟩
    rw [(begins_iff_reached.mp hbegins).decode_of_complete hcount]
    exact checkSize_eq_aclSizeExceeded_iff.mpr ⟨hcheck, hexceeds, rfl, rfl⟩

end Acl

/-! ## Descriptors -/

/-- The components that are decoded before this one. -/
def Component.earlier : Component → List Component
  | .owner => []
  | .group => [.owner]
  | .sacl => [.owner, .group]
  | .dacl => [.owner, .group, .sacl]

namespace Descriptor

variable {h : Header} {which : Component} {e : DecodeError}

/-- Why a selected component is not decoded. -/
inductive FailsAt (options : DecodeOptions) (bytes : List UInt8) : Component → DecodeError → Prop
  | outside {which : Component} (houtside : bytes.length ≤ offsetAt bytes which) :
      FailsAt options bytes which (.offsetOutOfBounds (offsetAt bytes which) bytes.length)
  | identifier {which : Component} {source : Sid.Shortfall} (hwhich : which ∈ [.owner, .group])
      (hinside : offsetAt bytes which < bytes.length)
      (hfails : Sid.decode (bytes.drop (offsetAt bytes which)) = .error source) :
      FailsAt options bytes which (.sid (offsetAt bytes which) source)
  | list {which : Component} {source : DecodeError} (hwhich : which ∈ [.sacl, .dacl])
      (hinside : offsetAt bytes which < bytes.length)
      (hfails : Acl.decode options (bytes.drop (offsetAt bytes which)) = .error source) :
      FailsAt options bytes which source

theorem failsAt_iff : FailsAt options bytes which e ↔
    bytes.length ≤ offsetAt bytes which ∧
        e = .offsetOutOfBounds (offsetAt bytes which) bytes.length ∨
      offsetAt bytes which < bytes.length ∧
        which.decode options (offsetAt bytes which) (bytes.drop (offsetAt bytes which)) =
          .error e := by
  constructor
  · intro h
    cases h with
    | outside houtside => exact .inl ⟨houtside, rfl⟩
    | identifier hwhich hinside hfails =>
      refine .inr ⟨hinside, ?_⟩
      cases which with
      | owner => exact congrArg (Except.mapError _) hfails
      | group => exact congrArg (Except.mapError _) hfails
      | sacl => exact absurd hwhich (by decide)
      | dacl => exact absurd hwhich (by decide)
    | list hwhich hinside hfails =>
      refine .inr ⟨hinside, ?_⟩
      cases which with
      | owner => exact absurd hwhich (by decide)
      | group => exact absurd hwhich (by decide)
      | sacl => exact hfails
      | dacl => exact hfails
  · rintro (⟨houtside, rfl⟩ | ⟨hinside, hfails⟩)
    · exact .outside houtside
    · cases which with
      | owner =>
        obtain ⟨source, hsource, rfl⟩ := mapError_eq_error_iff.mp hfails
        exact .identifier (by decide) hinside hsource
      | group =>
        obtain ⟨source, hsource, rfl⟩ := mapError_eq_error_iff.mp hfails
        exact .identifier (by decide) hinside hsource
      | sacl => exact .list (by decide) hinside hfails
      | dacl => exact .list (by decide) hinside hfails

theorem component_eq_error_iff : component options bytes which = .error e ↔
    selectedAt bytes which = true ∧
      ∃ source, e = .inDescriptor which source ∧ FailsAt options bytes which source := by
  constructor
  · intro h
    obtain ⟨hselected, source, he, hsource⟩ := exists_of_component_error h
    exact ⟨hselected, source, he, failsAt_iff.mpr hsource⟩
  · rintro ⟨hselected, source, rfl, hfails⟩
    rcases failsAt_iff.mp hfails with ⟨houtside, rfl⟩ | ⟨hinside, hdecode⟩
    · rw [component, if_pos hselected, if_neg (Nat.not_lt.mpr houtside)]
      rfl
    · rw [component, if_pos hselected, if_pos hinside, hdecode]
      rfl

theorem exists_component_ok_iff : (∃ value, component options bytes which = .ok value) ↔
    (selectedAt bytes which = true → ∃ v, StandsAt options bytes which v) := by
  constructor
  · rintro ⟨value, hvalue⟩ hselected
    obtain ⟨v, -, hstands⟩ := (component_eq_ok_iff.mp hvalue).exists_standsAt hselected
    exact ⟨v, hstands⟩
  · intro h
    obtain ⟨value, hholds⟩ := exists_holds h
    exact ⟨value, component_eq_ok_iff.mpr hholds⟩

/-- The first component that fails, behind others that do not, decides the error. -/
theorem ofHeader_eq_error_iff : ofHeader options bytes h = .error e ↔
    ∃ which, component options bytes which = .error e ∧
      ∀ before ∈ which.earlier, ∃ value, component options bytes before = .ok value := by
  constructor
  · intro herror
    rcases bind_eq_error_iff.mp herror with hfails | ⟨owner, howner, herror⟩
    · exact ⟨.owner, hfails, List.forall_mem_nil _⟩
    rcases bind_eq_error_iff.mp herror with hfails | ⟨group, hgroup, herror⟩
    · exact ⟨.group, hfails, List.forall_mem_singleton.mpr ⟨owner, howner⟩⟩
    rcases bind_eq_error_iff.mp herror with hfails | ⟨sacl, hsacl, herror⟩
    · refine ⟨.sacl, hfails, List.forall_mem_cons.mpr ⟨⟨owner, howner⟩, ?_⟩⟩
      exact List.forall_mem_singleton.mpr ⟨group, hgroup⟩
    rcases bind_eq_error_iff.mp herror with hfails | ⟨dacl, -, herror⟩
    · refine ⟨.dacl, hfails, List.forall_mem_cons.mpr ⟨⟨owner, howner⟩, ?_⟩⟩
      refine List.forall_mem_cons.mpr ⟨⟨group, hgroup⟩, ?_⟩
      exact List.forall_mem_singleton.mpr ⟨sacl, hsacl⟩
    cases herror
  · rintro ⟨which, hfails, hbefore⟩
    unfold ofHeader
    cases which with
    | owner => rw [hfails, error_bind]
    | group =>
      obtain ⟨owner, howner⟩ := hbefore .owner (by decide)
      rw [howner, ok_bind, hfails, error_bind]
    | sacl =>
      obtain ⟨owner, howner⟩ := hbefore .owner (by decide)
      obtain ⟨group, hgroup⟩ := hbefore .group (by decide)
      rw [howner, ok_bind, hgroup, ok_bind, hfails, error_bind]
    | dacl =>
      obtain ⟨owner, howner⟩ := hbefore .owner (by decide)
      obtain ⟨group, hgroup⟩ := hbefore .group (by decide)
      obtain ⟨sacl, hsacl⟩ := hbefore .sacl (by decide)
      rw [howner, ok_bind, hgroup, ok_bind, hsacl, ok_bind, hfails, error_bind]

theorem decode_eq_inDescriptor_iff :
    decode options bytes = .error (.inDescriptor which e) ↔
      headerLength ≤ bytes.length ∧
        (∀ before ∈ which.earlier, selectedAt bytes before = true →
          ∃ v, StandsAt options bytes before v) ∧
        selectedAt bytes which = true ∧ FailsAt options bytes which e := by
  constructor
  · intro herror
    cases hread : readHeader bytes with
    | error e' =>
      rw [decode_of_readHeader_error hread] at herror
      cases herror
      have hflat : Fails (fun e => ∀ which source, e ≠ .inDescriptor which source)
          (readHeader bytes) := fails_readHeader (fun _ _ _ _ _ => nofun) bytes
      exact absurd rfl (hflat _ hread which e)
    | ok header =>
      obtain ⟨hlength, -⟩ := headerStands_of_readHeader hread
      rw [decode_of_readHeader hread] at herror
      obtain ⟨which', hfails, hbefore⟩ := ofHeader_eq_error_iff.mp herror
      obtain ⟨hselected, source, he, hfails⟩ := component_eq_error_iff.mp hfails
      cases he
      exact ⟨hlength, fun before hmem => exists_component_ok_iff.mp (hbefore before hmem),
        hselected, hfails⟩
  · rintro ⟨hlength, hbefore, hselected, hfails⟩
    obtain ⟨header, hread, -⟩ := exists_readHeader hlength
    rw [decode_of_readHeader hread, ofHeader_eq_error_iff]
    exact ⟨which, component_eq_error_iff.mpr ⟨hselected, e, rfl, hfails⟩,
      fun before hmem => exists_component_ok_iff.mpr (hbefore before hmem)⟩

end Descriptor

/-- An entry is reported as the first announced one of the chain that is not decoded, by the number
of entries before it and the end of their sizes, and with the error that its own decoder gives
there; the size of a list is blamed only when the whole chain is decoded. A component is reported
when it is selected, all selected components before it are decoded, and it fails itself: its offset
lies outside the bytes, or the decoder for its kind fails from that offset on. -/
theorem failures_are_located (options : DecodeOptions) (bytes : List UInt8) :
    (∀ index offset e, Acl.decode options bytes = .error (.inAce index offset e) ↔
        ∃ header aces, Acl.Begins options bytes header aces ∧ aces.length = index ∧
          index < header.count.toNat ∧ Acl.endOffset 8 aces = offset ∧ offset ≤ bytes.length ∧
          Ace.decode options (bytes.drop offset) = .error e) ∧
      (∀ declared consumed,
        Acl.decode options bytes = .error (.aclSizeExceeded declared consumed) ↔
          ∃ header aces, Acl.Begins options bytes header aces ∧
            aces.length = header.count.toNat ∧ options.checkAclSize = true ∧
            header.size.toNat = declared ∧ Acl.endOffset 8 aces = consumed ∧
            declared < consumed) ∧
      ∀ which e, Descriptor.decode options bytes = .error (.inDescriptor which e) ↔
        20 ≤ bytes.length ∧
          (∀ before ∈ which.earlier, Descriptor.selectedAt bytes before = true →
            ∃ v, Descriptor.StandsAt options bytes before v) ∧
          Descriptor.selectedAt bytes which = true ∧
          Descriptor.FailsAt options bytes which e := by
  refine ⟨?_, fun _ _ => Acl.decode_eq_aclSizeExceeded_iff,
    fun _ _ => Descriptor.decode_eq_inDescriptor_iff⟩
  intro index offset e
  rw [Acl.decode_eq_inAce_iff]
  constructor
  · rintro ⟨header, aces, hbegins, hindex, hcount, rfl, he⟩
    exact ⟨header, aces, hbegins, hindex, hcount, rfl, hbegins.endOffset_le, he⟩
  · rintro ⟨header, aces, hbegins, hindex, hcount, hoffset, -, he⟩
    exact ⟨header, aces, hbegins, hindex, hcount, hoffset, he⟩

/-- Two entries, of which the second has no known type. -/
def secondUnknown : List UInt8 :=
  [2, 0, 32, 0, 2, 0, 0, 0] ++ [0, 0, 16, 0, 0, 0, 0, 1, 1, 0, 0, 0, 0, 0, 0, 5] ++ [99]

/-- An owner, and behind it that list. -/
def ownedSecondUnknown : List UInt8 :=
  [1, 0, 4, 0x80, 20, 0, 0, 0, 0, 0, 0, 0, 0, 0, 0, 0, 28, 0, 0, 0] ++
    [1, 0, 0, 0, 0, 0, 0, 5] ++ secondUnknown

theorem failures_are_located_secondUnknown :
    Acl.decode {} secondUnknown = .error (.inAce 1 24 (.unknownAceType 99)) ∧
      Descriptor.decode {} ownedSecondUnknown =
        .error (.inDescriptor .dacl (.inAce 1 24 (.unknownAceType 99))) := by
  obtain ⟨hentry, -, -⟩ := failures_are_located {} secondUnknown
  obtain ⟨-, -, hcomponent⟩ := failures_are_located {} ownedSecondUnknown
  have hlist : Acl.decode {} secondUnknown = .error (.inAce 1 24 (.unknownAceType 99)) :=
    (hentry 1 24 (.unknownAceType 99)).mpr
      ⟨⟨.standard, 0, 32, 2, 0⟩, [⟨.accessAllowed, ⟨0⟩, 1, none, ⟨1, 5, []⟩, none, 16⟩],
        ⟨rfl, ⟨rfl, trivial⟩, by decide⟩, rfl, by decide, rfl, by decide, rfl⟩
  refine ⟨hlist, (hcomponent .dacl _).mpr ⟨by decide, ?_, by decide, ?_⟩⟩
  · intro before hbefore hselected
    cases before with
    | owner => exact ⟨⟨1, 5, []⟩, by decide, rfl⟩
    | group => cases hselected
    | sacl => cases hselected
    | dacl => exact absurd hbefore (by decide)
  · exact .list (by decide) (by decide) hlist

end AccessControl
