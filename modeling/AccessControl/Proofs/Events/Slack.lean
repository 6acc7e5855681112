import AccessControl.Proofs.Events.Entry
import AccessControl.Proofs.Descriptor.Components

/-!
# Slack foretells the strict verdict

A trusting run reports slack where a strict one would fail. Up to there the two runs agree, so
the first slack that is reported says whether the strict run fails, and with which numbers. The
runs are followed side by side: what one step of the trusting run foretells of the strict one,
its sequence with a next step foretells too.
-/

namespace AccessControl

variable {α β : Type}

/-- Declared and consumed bytes, of an event that reports slack. -/
def Event.slack? : Event → Option (Nat × Nat)
  | .slack declared consumed => some (declared, consumed)
  | _ => none

/-- The numbers of the first slack. -/
def firstSlack (events : List Event) : Option (Nat × Nat) :=
  events.findSome? Event.slack?

theorem firstSlack_append (events events' : List Event) :
    firstSlack (events ++ events') = (firstSlack events).or (firstSlack events') :=
  List.findSome?_append

theorem firstSlack_eq_none_iff {events : List Event} :
    firstSlack events = none ↔ ∀ declared consumed, Event.slack declared consumed ∉ events := by
  rw [firstSlack, List.findSome?_eq_none_iff]
  constructor
  · intro h declared consumed hmem
    cases h _ hmem
  · intro h e he
    cases e with
    | slack declared consumed => exact absurd he (h declared consumed)
    | _ => rfl

theorem firstSlack_cons (e : Event) (events : List Event) :
    firstSlack (e :: events) = e.slack?.or (firstSlack events) := by
  rw [firstSlack, List.findSome?_cons]
  cases e.slack? <;> rfl

/-- From the second request for more detail on, slack is shown. -/
theorem firstSlack_shown {verbose : Nat} (h : 2 ≤ verbose) (events : List Event) :
    firstSlack ((Verbosity.ofCount verbose).shown events) = firstSlack events := by
  have hdebug : Level.debug.rank ≤ (Verbosity.ofCount verbose).level.rank := by
    obtain ⟨more, rfl⟩ := Nat.exists_eq_add_of_le' h
    cases more with
    | zero => exact Nat.le_refl _
    | succ more => exact Nat.le_succ _
  have hhidden : ∀ e : Event, ¬ (Verbosity.ofCount verbose).enables e.level → e.slack? = none := by
    intro e he
    cases e with
    | slack declared consumed => exact absurd (decide_eq_true hdebug) he
    | _ => rfl
  induction events with
  | nil => rfl
  | cons e events ih =>
    rw [Verbosity.shown, List.filter_cons, firstSlack_cons]
    split_ifs with hshown
    · rw [firstSlack_cons]
      exact congrArg _ ih
    · rw [hhidden e hshown, Option.none_or]
      exact ih

/-- A run that has come to a value without slack is a strict one as well; with slack, the strict
run has failed on account of the first. -/
inductive Foretold (events : List Event) (a : α) : Except DecodeError α → Prop
  | accepted (hnone : firstSlack events = none) : Foretold events a (.ok a)
  | refused {declared consumed : Nat} {e : DecodeError}
      (hfirst : firstSlack events = some (declared, consumed))
      (hcause : e.rootCause = .sizeMismatch declared consumed) : Foretold events a (.error e)

theorem Foretold.shown {events : List Event} {a : α} {strict : Except DecodeError α}
    {verbose : Nat} (h : Foretold events a strict) (hverbose : 2 ≤ verbose) :
    Foretold ((Verbosity.ofCount verbose).shown events) a strict := by
  cases h with
  | accepted hnone => exact .accepted ((firstSlack_shown hverbose events).trans hnone)
  | refused hfirst hcause => exact .refused ((firstSlack_shown hverbose events).trans hfirst) hcause

/-- Where the first run comes to a value, its slack tells what the second comes to. -/
def Foretells (trusting strict : Traced α) : Prop :=
  ∀ a, trusting.result = .ok a → Foretold trusting.events a strict.result

namespace Foretells

variable {x y : Traced α} {f g : α → Traced β}

/-- A step without slack is the same under both policies. -/
theorem refl_of_silent (h : firstSlack x.events = none) : Foretells x x := by
  intro a hresult
  rw [hresult]
  exact .accepted h

theorem liftM (r : Except DecodeError α) : Foretells (liftM r) (liftM r) :=
  refl_of_silent rfl

/-- After slack the strict run has stopped, so what comes later changes neither side. -/
theorem bind (hfirst : Foretells x y)
    (hrest : ∀ a, x.result = .ok a → Foretells (f a) (g a)) :
    Foretells (x >>= f) (y >>= g) := by
  intro b hresult
  rw [Traced.result_bind, bind_eq_ok_iff] at hresult
  obtain ⟨a, hx, hb⟩ := hresult
  rw [Traced.events_bind_ok hx, Traced.result_bind]
  have hstep := hfirst a hx
  generalize y.result = result at hstep
  cases hstep with
  | accepted hnone =>
    have hnext := hrest a hx b hb
    rw [ok_bind]
    generalize (g a).result = result at hnext
    cases hnext with
    | accepted hnone' =>
      apply Foretold.accepted
      rw [firstSlack_append, hnone, hnone', Option.or_none]
    | refused hslack hcause =>
      apply Foretold.refused _ hcause
      rw [firstSlack_append, hnone, hslack, Option.none_or]
  | refused hslack hcause =>
    apply Foretold.refused _ hcause
    rw [firstSlack_append, hslack, Option.some_or]

/-- The place around an error is not its root cause. -/
theorem mapError {place : DecodeError → DecodeError} (h : Foretells x y)
    (hplace : ∀ e, (place e).rootCause = e.rootCause) :
    Foretells (x.mapError place) (y.mapError place) := by
  intro a hresult
  have hstep := h a (mapError_eq_ok_iff.mp hresult)
  rw [Traced.events_mapError, Traced.result_mapError]
  generalize y.result = result at hstep
  cases hstep with
  | accepted hnone => exact .accepted hnone
  | @refused _ _ e hslack hcause => exact .refused hslack ((hplace e).trans hcause)

theorem map {f : α → β} (h : Foretells x y) : Foretells (f <$> x) (f <$> y) := by
  intro b hresult
  obtain ⟨a, hx, rfl⟩ := exceptMap_eq_ok_iff.mp hresult
  have hstep := h a hx
  rw [Traced.events_map, Traced.result_map]
  generalize y.result = result at hstep
  cases hstep with
  | accepted hnone => exact .accepted hnone
  | refused hslack hcause => exact .refused hslack hcause

end Foretells

/-! ## Decoders -/

namespace Ace

/-- What is reported as slack is what a strict policy does not let pass. -/
theorem foretells_readTail (type : AceType) (declared : Nat) (c : Cursor) :
    Foretells (readTail .trust type declared c) (readTail .strict type declared c) := by
  intro data hresult
  unfold readTail tailEvents at hresult ⊢
  cases hcarries : type.carriesData with
  | true =>
    simp only [hcarries, if_true] at hresult ⊢
    cases hresult
    exact .accepted rfl
  | false =>
    simp only [hcarries, Bool.false_eq_true, if_false] at hresult ⊢
    cases hresult
    by_cases hposition : declared = c.position
    · rw [if_neg fun h => h hposition, if_neg fun h => h.2 hposition.symm]
      exact .accepted rfl
    · rw [if_pos hposition, if_pos ⟨trivial, Ne.symm hposition⟩]
      exact .refused rfl rfl

theorem firstSlack_events_readScope (type : AceType) (c : Cursor) :
    firstSlack (readScope type c).events = none := by
  rw [events_readScope]
  split_ifs
  · cases c.longLittle .objectFlags <;> rfl
  · rfl

theorem foretells_readBody (type : AceType) (flags : AceFlags) (size : UInt16)
    (extent : List UInt8) :
    Foretells (readBody .trust type flags size extent)
      (readBody .strict type flags size extent) := by
  unfold readBody
  refine .bind (.liftM _) fun c _ => ?_
  refine .bind (.liftM _) fun _ _ => ?_
  refine .bind (.refl_of_silent (firstSlack_events_readScope _ _)) fun _ _ => ?_
  refine .bind (.liftM _) fun _ _ => ?_
  refine .bind (foretells_readTail _ _ _) fun _ _ => ?_
  exact .refl_of_silent rfl

theorem foretells_read (check : Bool) (bytes : List UInt8) :
    Foretells (read ⟨.trust, check⟩ bytes) (read ⟨.strict, check⟩ bytes) := by
  refine .bind (.liftM _) fun _ _ => ?_
  exact foretells_readBody _ _ _ _

end Ace

namespace Acl

theorem foretells_readEntries (check : Bool) (count index offset : Nat) (bytes : List UInt8) :
    Foretells (readEntries ⟨.trust, check⟩ count index offset bytes)
      (readEntries ⟨.strict, check⟩ count index offset bytes) := by
  -- On the entries that are left; wherever they stand, each foretells its own strict run.
  induction count generalizing index offset bytes with
  | zero => exact .refl_of_silent rfl
  | succ count ih =>
    refine .bind ((Ace.foretells_read check bytes).mapError fun _ => rfl) fun ace _ => ?_
    refine .bind (.refl_of_silent rfl) fun _ _ => ?_
    exact .map (ih _ _ _)

theorem foretells_read (check : Bool) (bytes : List UInt8) :
    Foretells (read ⟨.trust, check⟩ bytes) (read ⟨.strict, check⟩ bytes) := by
  refine .bind (.liftM _) fun header _ => ?_
  refine .bind (.refl_of_silent rfl) fun _ _ => ?_
  refine .bind (foretells_readEntries _ _ _ _ _) fun aces _ => ?_
  exact .liftM _

end Acl

namespace Descriptor

theorem foretells_readComponent {read read' : List UInt8 → Traced α}
    (hread : ∀ bytes, Foretells (read bytes) (read' bytes)) (h : Header) (bytes : List UInt8)
    (which : Component) :
    Foretells (readComponent h bytes which read) (readComponent h bytes which read') := by
  unfold readComponent
  split_ifs
  · refine .mapError ?_ fun _ => rfl
    refine .bind (.refl_of_silent rfl) fun _ _ => ?_
    exact .bind (hread _) fun _ _ => .refl_of_silent rfl
  · exact .refl_of_silent rfl
  · exact .refl_of_silent rfl

theorem foretells_read (check : Bool) (bytes : List UInt8) :
    Foretells (read ⟨.trust, check⟩ bytes) (read ⟨.strict, check⟩ bytes) := by
  have hsid : ∀ offset bytes, Foretells (readSid offset bytes) (readSid offset bytes) :=
    fun _ _ => .refl_of_silent rfl
  refine .bind (.liftM _) fun h _ => ?_
  refine .bind (.refl_of_silent rfl) fun _ _ => ?_
  refine .bind (foretells_readComponent (hsid _) _ _ _) fun _ _ => ?_
  refine .bind (foretells_readComponent (hsid _) _ _ _) fun _ _ => ?_
  refine .bind (foretells_readComponent (Acl.foretells_read check) _ _ _) fun _ _ => ?_
  refine .bind (foretells_readComponent (Acl.foretells_read check) _ _ _) fun _ _ => ?_
  exact .refl_of_silent rfl

end Descriptor

/-- What the events of a trusting run say about the outcome of a strict one. -/
structure Verdict (events : List Event) (strict : Except DecodeError α) : Prop where
  accepts_iff : (∃ a, strict = .ok a) ↔
    ∀ declared consumed, Event.slack declared consumed ∉ events
  refuses : ∀ declared consumed, firstSlack events = some (declared, consumed) →
    ∃ e, strict = .error e ∧ e.rootCause = .sizeMismatch declared consumed

theorem Foretold.verdict {events : List Event} {a : α} {strict : Except DecodeError α}
    (h : Foretold events a strict) : Verdict events strict := by
  cases h with
  | accepted hnone =>
    refine ⟨⟨fun _ => firstSlack_eq_none_iff.mp hnone, fun _ => ⟨a, rfl⟩⟩, ?_⟩
    intro declared consumed hfirst
    cases hnone.symm.trans hfirst
  | @refused declared consumed e hfirst hcause =>
    constructor
    · constructor
      · rintro ⟨a, ha⟩
        cases ha
      · intro hnone
        cases hfirst.symm.trans (firstSlack_eq_none_iff.mpr hnone)
    · intro declared' consumed' hfirst'
      cases hfirst.symm.trans hfirst'
      exact ⟨e, rfl, hcause⟩

/-- When a trusting run comes to a value, the strict one does if and only if no slack was shown, and
otherwise its root cause is a size mismatch with the numbers of the first slack. -/
theorem slack_foretells_strict {verbose : Nat} (h : 2 ≤ verbose) (check : Bool)
    (bytes : List UInt8) :
    let shown := (Verbosity.ofCount verbose).shown
    (∀ ace, Ace.decode ⟨.trust, check⟩ bytes = .ok ace →
        Verdict (shown (Ace.read ⟨.trust, check⟩ bytes).events)
          (Ace.decode ⟨.strict, check⟩ bytes)) ∧
      (∀ acl, Acl.decode ⟨.trust, check⟩ bytes = .ok acl →
        Verdict (shown (Acl.read ⟨.trust, check⟩ bytes).events)
          (Acl.decode ⟨.strict, check⟩ bytes)) ∧
      ∀ d, Descriptor.decode ⟨.trust, check⟩ bytes = .ok d →
        Verdict (shown (Descriptor.read ⟨.trust, check⟩ bytes).events)
          (Descriptor.decode ⟨.strict, check⟩ bytes) := by
  intro shown
  refine ⟨?_, ?_, ?_⟩
  · intro ace hdecode
    exact (Ace.foretells_read check bytes ace hdecode).shown h |>.verdict
  · intro acl hdecode
    exact (Acl.foretells_read check bytes acl hdecode).shown h |>.verdict
  · intro d hdecode
    exact (Descriptor.foretells_read check bytes d hdecode).shown h |>.verdict

/-- Both entries have slack, the second more of it. -/
def slackTwice : List UInt8 :=
  [2, 0, 0, 0, 2, 0, 0, 0] ++ [0, 0, 17, 0, 0, 0, 0, 1, 1, 0, 0, 0, 0, 0, 0, 5, 0xAA] ++
    [0, 0, 18, 0, 0, 0, 0, 1, 1, 0, 0, 0, 0, 0, 0, 5, 0xBB, 0xBB]

/-- The discretionary list is that one; the system list before it, in the order of decoding, is
the same without its first entry. -/
def slackInBoth : List UInt8 :=
  [1, 0, 0x14, 0x80, 0, 0, 0, 0, 0, 0, 0, 0, 63, 0, 0, 0, 20, 0, 0, 0] ++ slackTwice ++
    [2, 0, 0, 0, 1, 0, 0, 0] ++ slackTwice.drop 25

theorem slack_foretells_strict_slackInBoth :
    2 ≤ 2 ∧ (∃ acl, Acl.decode {} slackTwice = .ok acl) ∧
      (∃ d, Descriptor.decode {} slackInBoth = .ok d) ∧
      (∃ e, Acl.decode ⟨.strict, false⟩ slackTwice = .error e ∧
        e.rootCause = .sizeMismatch 17 16) ∧
      ∃ e, Descriptor.decode ⟨.strict, false⟩ slackInBoth = .error e ∧
        e.rootCause = .sizeMismatch 18 16 := by
  have htwo : 2 ≤ 2 := Nat.le_refl 2
  obtain ⟨-, hacl, -⟩ := slack_foretells_strict htwo false slackTwice
  obtain ⟨-, -, hdescriptor⟩ := slack_foretells_strict htwo false slackInBoth
  obtain ⟨acl, hlist⟩ : ∃ acl, Acl.decode {} slackTwice = .ok acl := ⟨_, rfl⟩
  obtain ⟨d, hboth⟩ : ∃ d, Descriptor.decode {} slackInBoth = .ok d := ⟨_, rfl⟩
  exact ⟨htwo, ⟨acl, hlist⟩, ⟨d, hboth⟩, (hacl acl hlist).refuses 17 16 rfl,
    (hdescriptor d hboth).refuses 18 16 rfl⟩

end AccessControl
