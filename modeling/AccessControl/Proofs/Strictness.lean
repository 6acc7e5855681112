import AccessControl.Proofs.Acl.Scan
import AccessControl.Proofs.Descriptor.Components
import AccessControl.Proofs.Truncation

/-!
# Stricter options

An option that is switched on refuses some of what was decoded without it, and changes nothing
else. The size check of a list refuses entries beyond its declared size, and the strict policy
the first entry with slack, even when something else is wrong behind it.
-/

namespace AccessControl

variable {options options' : DecodeOptions} {bytes : List UInt8}

/-- Every check of the weak options is one of the strong options. -/
structure DecodeOptions.Weaker (weak strong : DecodeOptions) : Prop where
  policy : weak.sizePolicy = .strict → strong.sizePolicy = .strict
  size : weak.checkAclSize = true → strong.checkAclSize = true

/-! ## Entries -/

namespace Ace

variable {ace : Ace}

/-- Bytes are declared that no field accounts for. -/
def HasSlack (ace : Ace) : Prop :=
  ace.type.carriesData = false ∧ ace.fieldsLength < ace.size.toNat

instance (ace : Ace) : Decidable ace.HasSlack := inferInstanceAs (Decidable (_ ∧ _))

theorem decode_of_weaker {weak strong : DecodeOptions} (h : weak.Weaker strong)
    (hdecode : decode strong bytes = .ok ace) : decode weak bytes = .ok ace := by
  obtain ⟨tail, hfills, hexact⟩ := decode_eq_ok_iff_fills.mp hdecode
  apply decode_eq_ok_iff_fills.mpr
  exact ⟨tail, hfills, fun hpolicy => hexact (h.policy hpolicy)⟩

theorem decode_of_not_hasSlack (h : decode options bytes = .ok ace) (hslack : ¬ ace.HasSlack)
    (options' : DecodeOptions) : decode options' bytes = .ok ace := by
  obtain ⟨tail, hfills, -⟩ := decode_eq_ok_iff_fills.mp h
  apply decode_eq_ok_iff_fills.mpr
  refine ⟨tail, hfills, ?_⟩
  intro _ hcarries
  have hlength := hfills.length_front_add
  rw [length_front_eq_fieldsLength hfills.countable] at hlength
  have hfull : ¬ ace.fieldsLength < ace.size.toNat := fun hlt => hslack ⟨hcarries, hlt⟩
  apply List.eq_nil_of_length_eq_zero
  omega

/-- The fields are read as before, and then there are bytes left. -/
theorem decode_of_hasSlack (h : decode options bytes = .ok ace) (hslack : ace.HasSlack)
    (hstrict : options'.sizePolicy = .strict) :
    decode options' bytes = .error (.sizeMismatch ace.size.toNat ace.fieldsLength) := by
  obtain ⟨tail, hfills, -⟩ := decode_eq_ok_iff_fills.mp h
  obtain ⟨hcarries, hlt⟩ := hslack
  have hlength : ace.size.toNat = (image ace.type ace.flags ace.size ace.mask ace.scope
      ace.trustee tail).length := by
    rw [← front_append, List.length_append, hfills.length_front_add]
  have hfields : headerLength + (fields ace.mask ace.scope ace.trustee).length =
      ace.fieldsLength := by
    rw [← length_front, length_front_eq_fieldsLength hfills.countable]
  rw [hfills.bytes_eq, front_append, decode_image hfills.scope_fits hfills.countable hlength,
    hfields]
  simp [readTail, hcarries, hstrict, Nat.ne_of_lt hlt]

/-- What fails without a strict policy fails for a reason that no policy has a say in. -/
theorem decode_of_trust_error {check : Bool} {e : DecodeError}
    (h : decode ⟨.trust, check⟩ bytes = .error e) (options : DecodeOptions) :
    decode options bytes = .error e := by
  cases hheader : readHeader bytes with
  | error e' =>
    rw [decode_of_readHeader_error hheader] at h ⊢
    exact h
  | ok header =>
    obtain ⟨type, flags, size⟩ := header
    rw [decode, read_eq_readBody hheader, result_readBody] at h ⊢
    rcases bind_eq_error_iff.mp h with hfields | ⟨⟨⟨mask, scope, trustee⟩, c⟩, -, htail⟩
    · rw [hfields]
      rfl
    · have htail := exceptMap_eq_error_iff.mp htail
      have hok : (readTail .trust type size.toNat c).result =
          .ok (if type.carriesData then some c.remaining else none) := by
        apply result_readTail_eq_ok_iff.mpr
        constructor
        · intro hstrict
          cases hstrict
        · rfl
      cases htail.symm.trans hok

/-- Whether a list has to keep to its size is none of an entry's concern. -/
theorem decode_congr (h : options.sizePolicy = options'.sizePolicy) (bytes : List UInt8) :
    decode options bytes = decode options' bytes := by
  rw [decode, decode, read, read, h]

end Ace

/-! ## Lists -/

namespace Acl

variable {header : Header} {s : Scan} {ace : Ace} {acl : Acl}

theorem readEntries_congr (h : options.sizePolicy = options'.sizePolicy)
    (count index offset : Nat) (bytes : List UInt8) :
    (readEntries options count index offset bytes).result =
      (readEntries options' count index offset bytes).result := by
  induction count generalizing index offset bytes with
  | zero => rfl
  | succ count ih => simp only [result_readEntries_succ, Ace.decode_congr h, ih]

/-- The size of a list is checked after everything else. -/
theorem decode_checked (policy : SizePolicy) (bytes : List UInt8) :
    decode ⟨policy, true⟩ bytes = decode ⟨policy, false⟩ bytes >>= fun acl =>
      if acl.size.toNat < acl.consumedLength then
        .error (.aclSizeExceeded acl.size.toNat acl.consumedLength)
      else .ok acl := by
  cases hheader : readHeader bytes with
  | error e =>
    rw [decode_of_readHeader_error hheader, decode_of_readHeader_error hheader, error_bind]
  | ok header =>
    obtain ⟨rest, rfl⟩ := readHeader_eq_ok_iff.mp hheader
    have hpolicy : DecodeOptions.sizePolicy ⟨policy, true⟩ =
        DecodeOptions.sizePolicy ⟨policy, false⟩ := rfl
    rw [decode_encode_append, decode_encode_append, readEntries_congr hpolicy, bind_assoc]
    simp [checkSize]

/-- An announced entry with slack, found when declared sizes are trusted. -/
structure SlackAt (bytes : List UInt8) (s : Scan) (ace : Ace) : Prop where
  reached : ∃ header, Scan.Reached {} bytes header s ∧ s.found.length < header.count.toNat
  decoded : Ace.decode {} (bytes.drop s.offset) = .ok ace
  slack : ace.HasSlack

/-- No entry before this one has slack. -/
structure FirstSlackAt (bytes : List UInt8) (s : Scan) (ace : Ace) : Prop
    extends SlackAt bytes s ace where
  first : ∀ earlier ∈ s.found, ¬ earlier.HasSlack

namespace Scan

/-- As long as there is no slack, the scan does not depend on the options. -/
theorem Reached.of_no_slack (h : Reached {} bytes header s)
    (hslack : ∀ ace ∈ s.found, ¬ ace.HasSlack) (options : DecodeOptions) :
    Reached options bytes header s := by
  induction h with
  | start hheader => exact .start hheader
  | push _ hcount hace ih =>
    obtain ⟨hfound, hlast⟩ := List.forall_mem_append.mp hslack
    exact (ih hfound).push hcount
      (Ace.decode_of_not_hasSlack hace (hlast _ List.mem_cons_self) options)

theorem Reached.no_slack_or_first (h : Reached {} bytes header s) :
    (∀ ace ∈ s.found, ¬ ace.HasSlack) ∨ ∃ s' ace, FirstSlackAt bytes s' ace := by
  -- On the way to the state: the step that finds the first slack stands right behind it.
  induction h with
  | start => exact .inl (List.forall_mem_nil _)
  | @push s ace hs hcount hace ih =>
    rcases ih with hfound | hfirst
    · by_cases hslack : ace.HasSlack
      · right
        exact ⟨s, ace, ⟨⟨header, hs, hcount⟩, hace, hslack⟩, hfound⟩
      · left
        exact List.forall_mem_append.mpr ⟨hfound, by simpa using hslack⟩
    · exact .inr hfirst

end Scan

theorem SlackAt.exists_first (h : SlackAt bytes s ace) :
    ∃ s' ace', FirstSlackAt bytes s' ace' := by
  obtain ⟨header, hreached, -⟩ := h.reached
  rcases hreached.no_slack_or_first with hfound | hfirst
  · exact ⟨s, ace, h, hfound⟩
  · exact hfirst

/-- The strict scan comes as far as the first slack, and no further. -/
theorem FirstSlackAt.decode_eq (h : FirstSlackAt bytes s ace)
    (hstrict : options.sizePolicy = .strict) :
    decode options bytes = .error (.inAce s.found.length s.offset
      (.sizeMismatch ace.size.toNat ace.fieldsLength)) := by
  obtain ⟨header, hreached, hcount⟩ := h.reached
  exact (hreached.of_no_slack h.first options).decode_of_error hcount
    (Ace.decode_of_hasSlack h.decoded h.slack hstrict)

/-- Without slack it does not matter what a policy says about it. -/
theorem decode_eq_of_no_slack (hnone : ¬ ∃ s ace, SlackAt bytes s ace)
    (hcheck : options.checkAclSize = options'.checkAclSize) :
    decode options bytes = decode options' bytes := by
  have hfound : ∀ {header s}, Scan.Reached {} bytes header s → ∀ options : DecodeOptions,
      Scan.Reached options bytes header s := by
    intro header s hreached options
    rcases hreached.no_slack_or_first with hslack | ⟨s', ace, hfirst⟩
    · exact hreached.of_no_slack hslack options
    · exact absurd ⟨s', ace, hfirst.toSlackAt⟩ hnone
  cases hheader : readHeader bytes with
  | error e => rw [decode_of_readHeader_error hheader, decode_of_readHeader_error hheader]
  | ok header =>
    -- The trusting scan ends behind the last entry, or at an error that no policy has a say in.
    rcases @exists_reached_of_readHeader {} bytes header hheader with
      ⟨acl, hreached, hcount, -⟩ | ⟨s, e, hreached, hcount, hace, -⟩
    · rw [(hfound hreached options).decode_of_complete hcount,
        (hfound hreached options').decode_of_complete hcount, checkSize, checkSize, hcheck]
    · rw [(hfound hreached options).decode_of_error hcount (Ace.decode_of_trust_error hace options),
        (hfound hreached options').decode_of_error hcount (Ace.decode_of_trust_error hace options')]

theorem decode_of_weaker {weak strong : DecodeOptions} (h : weak.Weaker strong)
    (hdecode : decode strong bytes = .ok acl) : decode weak bytes = .ok acl := by
  obtain ⟨entries, hfills⟩ := decode_eq_ok_iff_fills.mp hdecode
  apply decode_eq_ok_iff_fills.mpr
  refine ⟨entries, ?_, hfills.count_lt, hfills.bytes_eq, ?_⟩
  · apply hfills.whole.imp
    intro entry ace hwhole
    exact ⟨Ace.decode_of_weaker h hwhole.1, hwhole.2⟩
  · intro hcheck
    exact hfills.size_checked (h.size hcheck)

end Acl

/-! ## Descriptors -/

theorem Component.decode_of_weaker {weak strong : DecodeOptions} (h : weak.Weaker strong)
    {offset : Nat} {which : Component} {v : which.Value}
    (hdecode : which.decode strong offset bytes = .ok v) :
    which.decode weak offset bytes = .ok v := by
  cases which with
  | owner => exact hdecode
  | group => exact hdecode
  | sacl => exact Acl.decode_of_weaker h hdecode
  | dacl => exact Acl.decode_of_weaker h hdecode

/-- The options do not decide which components are selected. -/
theorem Descriptor.decode_of_weaker {weak strong : DecodeOptions} (h : weak.Weaker strong)
    {d : Descriptor} (hdecode : decode strong bytes = .ok d) : decode weak bytes = .ok d := by
  have hdescribes := decode_eq_ok_iff_describes.mp hdecode
  apply decode_eq_ok_iff_describes.mpr
  apply hdescribes.of_front hdescribes.header rfl
  intro which
  apply (hdescribes.holds which).transfer rfl
  intro v _ _ hstands
  exact ⟨hstands.1, Component.decode_of_weaker h hstands.2⟩

/-- The size check of a list refuses exactly the lists that take up more than they declare, and
the strict policy exactly those that have an entry with slack, at the first of them, whatever
would have come out behind it. Nothing that is still decoded is decoded differently. -/
theorem options_only_reject (bytes : List UInt8) :
    (∀ policy, Acl.decode ⟨policy, true⟩ bytes = Acl.decode ⟨policy, false⟩ bytes >>= fun acl =>
        if acl.size.toNat < acl.consumedLength then
          .error (.aclSizeExceeded acl.size.toNat acl.consumedLength)
        else .ok acl) ∧
      (∀ check, (¬ (∃ s ace, Acl.SlackAt bytes s ace) →
          Acl.decode ⟨.strict, check⟩ bytes = Acl.decode ⟨.trust, check⟩ bytes) ∧
        ((∃ s ace, Acl.SlackAt bytes s ace) → ∃ s ace, Acl.FirstSlackAt bytes s ace) ∧
        ∀ s ace, Acl.FirstSlackAt bytes s ace → Acl.decode ⟨.strict, check⟩ bytes =
          .error (.inAce s.found.length s.offset
            (.sizeMismatch ace.size.toNat ace.fieldsLength))) ∧
      ∀ weak strong : DecodeOptions, weak.Weaker strong →
        (∀ ace, Ace.decode strong bytes = .ok ace → Ace.decode weak bytes = .ok ace) ∧
        (∀ acl, Acl.decode strong bytes = .ok acl → Acl.decode weak bytes = .ok acl) ∧
        ∀ d, Descriptor.decode strong bytes = .ok d → Descriptor.decode weak bytes = .ok d := by
  refine ⟨fun policy => Acl.decode_checked policy bytes, ?_, ?_⟩
  · intro check
    refine ⟨fun hnone => Acl.decode_eq_of_no_slack hnone rfl, ?_, ?_⟩
    · rintro ⟨s, ace, hslack⟩
      exact hslack.exists_first
    · intro s ace hfirst
      exact hfirst.decode_eq rfl
  · intro weak strong h
    exact ⟨fun _ => Ace.decode_of_weaker h, fun _ => Acl.decode_of_weaker h,
      fun _ => Descriptor.decode_of_weaker h⟩

namespace Acl

/-- The second of three entries has slack, and the third is of no known type. -/
def slackThenUnknown : List UInt8 :=
  [2, 0, 0, 0, 3, 0, 0, 0] ++ [0, 0, 16, 0, 0, 0, 0, 1, 1, 0, 0, 0, 0, 0, 0, 5] ++
    [0, 0, 18, 0, 0, 0, 0, 1, 1, 0, 0, 0, 0, 0, 0, 5, 0xAA, 0xBB] ++ [0xFF]

/-- What stands behind the only trustee is data, not slack. -/
def dataOnly : List UInt8 :=
  [4, 0, 26, 0, 1, 0, 0, 0] ++ [9, 0, 18, 0, 0, 0, 0, 1, 1, 0, 0, 0, 0, 0, 0, 5, 0xAA, 0xBB]

theorem firstSlackAt_slackThenUnknown : ∃ s ace, FirstSlackAt slackThenUnknown s ace ∧
    s.found.length = 1 ∧ s.offset = 24 ∧ ace.size.toNat = 18 ∧ ace.fieldsLength = 16 := by
  have hstart : Scan.Reached {} slackThenUnknown ⟨.standard, 0, 0, 3, 0⟩ .start := .start rfl
  have hfirst : Ace.decode {} (slackThenUnknown.drop 8) =
      .ok ⟨.accessAllowed, ⟨0⟩, 1, none, ⟨1, 5, []⟩, none, 16⟩ := rfl
  have hsecond := hstart.push (by decide) hfirst
  exact ⟨_, ⟨.accessAllowed, ⟨0⟩, 1, none, ⟨1, 5, []⟩, none, 18⟩,
    ⟨⟨⟨_, hsecond, by decide⟩, rfl, by decide⟩, by decide⟩, rfl, rfl, rfl, rfl⟩

theorem not_slackAt_dataOnly : ¬ ∃ s ace, SlackAt dataOnly s ace := by
  rintro ⟨s, ace, ⟨header, hreached, hcount⟩, hdecoded, hslack⟩
  have hone : header.count.toNat = 1 := by
    have hheader : readHeader dataOnly = .ok ⟨.directoryService, 0, 26, 1, 0⟩ := rfl
    cases hheader.symm.trans hreached.readHeader_eq
    rfl
  cases hreached with
  | start =>
    cases hdecoded
    exact absurd hslack (by decide)
  | push => simp [Scan.push, hone] at hcount

end Acl

theorem options_only_reject_slackThenUnknown :
    Acl.decode {} Acl.slackThenUnknown = .error (.inAce 2 42 (.unknownAceType 0xFF)) ∧
      Acl.decode ⟨.strict, false⟩ Acl.slackThenUnknown =
        .error (.inAce 1 24 (.sizeMismatch 18 16)) ∧
      Acl.decode ⟨.strict, true⟩ Acl.dataOnly = Acl.decode ⟨.trust, true⟩ Acl.dataOnly ∧
      ∃ acl, Acl.decode .strict Acl.dataOnly = .ok acl ∧ Acl.decode {} Acl.dataOnly = .ok acl := by
  obtain ⟨-, hpolicy, -⟩ := options_only_reject Acl.slackThenUnknown
  obtain ⟨-, hsame, hweaker⟩ := options_only_reject Acl.dataOnly
  obtain ⟨s, ace, hfirst, hindex, hoffset, hsize, hfields⟩ := Acl.firstSlackAt_slackThenUnknown
  have hstrict := (hpolicy false).2.2 s ace hfirst
  rw [hindex, hoffset, hsize, hfields] at hstrict
  obtain ⟨-, hacl, -⟩ := hweaker {} .strict ⟨fun _ => rfl, fun _ => rfl⟩
  obtain ⟨acl, hdecode⟩ : ∃ acl, Acl.decode .strict Acl.dataOnly = .ok acl := ⟨_, rfl⟩
  exact ⟨rfl, hstrict, (hsame true).1 Acl.not_slackAt_dataOnly, acl, hdecode, hacl acl hdecode⟩

end AccessControl
