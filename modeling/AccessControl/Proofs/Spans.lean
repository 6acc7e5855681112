import AccessControl.Proofs.Positions

/-!
# Fields and extents

A reader that takes fields from an extent, one behind the other, fails exactly where the first of
them does not end inside the extent, and says so. The first fault of readers that follow each other
is a fault of the first reader, or else the first of the second.
-/

namespace AccessControl

/-! ## Fields cut off -/

/-- A field at its place. -/
structure Span where
  field : Field
  start : Nat
  length : Nat

namespace Span

/-- The field does not end inside an extent. -/
def Exceeds (bound : Nat) (s : Span) : Prop := bound < s.start + s.length

instance (bound : Nat) : DecidablePred (Exceeds bound) :=
  fun s => inferInstanceAs (Decidable (bound < s.start + s.length))

def error (bound : Nat) (s : Span) : DecodeError :=
  .truncated s.field s.start s.length (bound - s.start)

/-- The first of the fields that does not end inside an extent. -/
def firstCut (bound : Nat) (spans : List Span) : Option Span := spans.find? (Exceeds bound)

/-- Fields that follow each other without a gap, from one position to another. -/
inductive Adjoining : Nat → List Span → Nat → Prop
  | nil (position : Nat) : Adjoining position [] position
  | cons {position stop : Nat} {s : Span} {rest : List Span} (hstart : s.start = position)
      (h : Adjoining (position + s.length) rest stop) : Adjoining position (s :: rest) stop

/-- What the first field that is cut off leads to. -/
def fault (bound : Nat) (spans : List Span) : Option DecodeError :=
  (firstCut bound spans).map (error bound)

variable {bound start stop : Nat} {spans spans' : List Span} {s : Span}

theorem Adjoining.append {middle : Nat} (h : Adjoining start spans middle)
    (h' : Adjoining middle spans' stop) : Adjoining start (spans ++ spans') stop := by
  induction h with
  | nil => exact h'
  | cons hstart _ ih => exact .cons hstart (ih h')

theorem Adjoining.le (h : Adjoining start spans stop) : start ≤ stop := by
  induction h with
  | nil => exact Nat.le_refl _
  | cons _ _ ih => exact Nat.le_trans (Nat.le_add_right _ _) ih

/-- All fields end inside the extent when the last of them does. -/
theorem Adjoining.firstCut_eq_none_iff (h : Adjoining start spans stop) (hstart : start ≤ bound) :
    firstCut bound spans = none ↔ stop ≤ bound := by
  induction h with
  | nil => exact ⟨fun _ => hstart, fun _ => rfl⟩
  | @cons position stop s rest hposition h ih =>
    subst hposition
    by_cases hs : s.Exceeds bound
    · have hstop := h.le
      simp only [firstCut, List.find?_cons, decide_eq_true hs, reduceCtorEq, false_iff]
      unfold Exceeds at hs
      omega
    · rw [firstCut, List.find?_cons, decide_eq_false hs]
      exact ih (Nat.not_lt.mp hs)

/-- The fields before the first that is cut off end inside the extent, so it begins there. -/
theorem Adjoining.start_le (h : Adjoining start spans stop) (hstart : start ≤ bound)
    (hcut : firstCut bound spans = some s) : s.start ≤ bound := by
  induction h with
  | nil => cases hcut
  | @cons position stop t rest hposition h ih =>
    subst hposition
    by_cases ht : t.Exceeds bound
    · rw [firstCut, List.find?_cons, decide_eq_true ht] at hcut
      cases hcut
      exact hstart
    · rw [firstCut, List.find?_cons, decide_eq_false ht] at hcut
      exact ih (Nat.not_lt.mp ht) hcut

theorem exceeds_of_firstCut (h : firstCut bound spans = some s) : s.Exceeds bound := by
  simpa using List.find?_some h

/-- What is left of the extent where the first field is cut off is too little for it. -/
theorem Adjoining.exists_cut {e : DecodeError} (h : Adjoining start spans stop)
    (hstart : start ≤ bound) (hfault : fault bound spans = some e) :
    ∃ s available, firstCut bound spans = some s ∧ s.start + available = bound ∧
      available < s.length ∧ e = .truncated s.field s.start s.length available := by
  obtain ⟨s, hcut, rfl⟩ := Option.map_eq_some_iff.mp hfault
  have hexceeds := exceeds_of_firstCut hcut
  have hle := h.start_le hstart hcut
  unfold Exceeds at hexceeds
  exact ⟨s, bound - s.start, hcut, by omega, by omega, rfl⟩

theorem fault_of_firstCut {available : Nat} (hcut : firstCut bound spans = some s)
    (hend : s.start + available = bound) :
    fault bound spans = some (.truncated s.field s.start s.length available) := by
  have hrest : bound - s.start = available := by omega
  rw [fault, hcut, Option.map_some, error, hrest]

theorem fault_eq_none_iff : fault bound spans = none ↔ firstCut bound spans = none :=
  Option.map_eq_none_iff

theorem fault_append :
    fault bound (spans ++ spans') = (fault bound spans).or (fault bound spans') := by
  rw [fault, firstCut, List.find?_append, Option.map_or]
  rfl

theorem fault_cons (s : Span) :
    fault bound (s :: spans) = (fault bound [s]).or (fault bound spans) :=
  @fault_append bound [s] spans

theorem fault_singleton_eq_some_iff {e : DecodeError} :
    fault bound [s] = some e ↔ s.Exceeds bound ∧ e = s.error bound := by
  by_cases h : s.Exceeds bound
  · simp [fault, firstCut, h, eq_comm]
  · simp [fault, firstCut, h]

end Span

namespace Cursor

/-! ## Readers that fail at positions -/

variable {α β γ : Type} {bytes : List UInt8} {bound position width : Nat}
  {fault fault' : Option DecodeError}

/-- A reader fails at a position when there is a fault, and then with it. -/
def FailsWith (read : Cursor → Except DecodeError α) (bytes : List UInt8)
    (bound position : Nat) (fault : Option DecodeError) : Prop :=
  position ≤ bound → ∀ e, read (within bytes bound position) = .error e ↔ fault = some e

theorem length_remaining_within (hbound : bound ≤ bytes.length) :
    (within bytes bound position).remaining.length = bound - position := by
  simp only [within, List.length_drop, List.length_take]
  omega

namespace FailsWith

theorem ok (f : Cursor → α) : FailsWith (fun c => .ok (f c)) bytes bound position none := by
  intro _ e
  simp

theorem error (e : DecodeError) :
    FailsWith (fun _ => (.error e : Except DecodeError α)) bytes bound position (some e) := by
  intro _ d
  simp

/-- The second reader is not reached when there is a fault in the first. -/
theorem bind {read : Cursor → Except DecodeError (α × Cursor)} {describes : α → Prop}
    {next : α × Cursor → Except DecodeError γ}
    (hread : FailsWith read bytes bound position fault)
    (hcovers : Covers read bytes bound position width describes)
    (hnext : ∀ a, describes a →
      FailsWith (fun c => next (a, c)) bytes bound (position + width) fault') :
    FailsWith (fun c => read c >>= next) bytes bound position (fault.or fault') := by
  intro hposition e
  have hfault := hread hposition
  show read (within bytes bound position) >>= next = .error e ↔ _
  cases hr : read (within bytes bound position) with
  | error d =>
    rw [(hfault d).mp hr, error_bind, Option.some_or, Except.error.injEq, Option.some.injEq]
  | ok found =>
    obtain ⟨a, d⟩ := found
    obtain ⟨hfits, hdescribes, rfl⟩ := hcovers.sound hposition hr
    have hnone : fault = none := by
      cases fault with
      | none => rfl
      | some d => cases hr.symm.trans ((hfault d).mpr rfl)
    rw [hnone, Option.none_or, ok_bind]
    exact hnext a hdescribes hfits e

/-- What cannot fail adds no fault. -/
theorem bind_total {read : Cursor → Except DecodeError α} {next : α → Except DecodeError γ}
    (hread : FailsWith read bytes bound position fault) (hnext : ∀ a, ∃ b, next a = .ok b) :
    FailsWith (fun c => read c >>= next) bytes bound position fault := by
  intro hposition e
  rw [bind_eq_error_iff, hread hposition e, or_iff_left]
  rintro ⟨a, -, herror⟩
  obtain ⟨b, hb⟩ := hnext a
  cases hb.symm.trans herror

theorem map {read : Cursor → Except DecodeError α} (h : FailsWith read bytes bound position fault)
    (f : α → β) : FailsWith (fun c => (read c).map f) bytes bound position fault := by
  intro hposition e
  rw [exceptMap_eq_error_iff]
  exact h hposition e

end FailsWith

theorem take_failsWith (hbound : bound ≤ bytes.length) (n : Nat) (field : Field) :
    FailsWith (fun c => c.take n field) bytes bound position
      (Span.fault bound [⟨field, position, n⟩]) := by
  intro hposition e
  rw [take_eq_error_iff, length_remaining_within hbound, Span.fault_singleton_eq_some_iff]
  exact and_congr_left' (by simp only [Span.Exceeds]; omega)

theorem guid_failsWith (hbound : bound ≤ bytes.length) (field : Field) :
    FailsWith (fun c => c.guid field) bytes bound position
      (Span.fault bound [⟨field, position, 16⟩]) := by
  intro hposition e
  exact guid_eq_error_iff.trans (take_failsWith hbound 16 field hposition e)

theorem skip_failsWith {read : Cursor → Except DecodeError α} {n : Nat} {field : Field}
    (hbound : bound ≤ bytes.length)
    (h : FailsWith read bytes bound (position + n) fault) :
    FailsWith (fun c => c.skip n field >>= read) bytes bound position
      ((Span.fault bound [⟨field, position, n⟩]).or fault) := by
  have hunit : ∀ c : Cursor, c.skip n field >>= read =
      ((c.take n field).map fun found => ((), found.2)) >>= fun found => read found.2 := by
    intro c
    unfold skip
    cases c.take n field <;> rfl
  simp only [hunit]
  exact FailsWith.bind ((take_failsWith hbound n field).map _)
    (covers_take hbound n field (fun _ => ()) (fun _ _ => True) fun _ _ => trivial)
    fun _ _ => h

end Cursor
end AccessControl
