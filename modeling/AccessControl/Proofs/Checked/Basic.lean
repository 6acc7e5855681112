import AccessControl.Extent
import AccessControl.Outcome
import AccessControl.Traced
import AccessControl.Verbosity

/-!
# Checked runs

Some operations on bytes and lengths have no result unless a condition holds: an index or a
stretch has to lie inside the bytes, a difference must not be negative, a copy has to have the
length of its target. A decoder that is written with them makes a checked run, which stops at
the first condition that fails. The run follows a plain decoder when all conditions hold, and
the outcome and the events that are shown are those of the plain decoder. Sums are left as they
are: each of them is a length of bytes that exist, or at most that of the longest identifier.
-/

namespace AccessControl

/-- The conditions that can fail. The last one says that a list outgrows what is reserved. -/
inductive Fault
  | index (position length : Nat)
  | slice (start stop length : Nat)
  | difference (minuend subtrahend : Nat)
  | copy (expected actual : Nat)
  | reservation (held reserved : Nat)
deriving DecidableEq

inductive Checked (α : Type)
  | fault (f : Fault)
  | outcome (t : Traced α)

theorem Verbosity.shown_append (v : Verbosity) (events events' : List Event) :
    v.shown (events ++ events') = v.shown events ++ v.shown events' :=
  List.filter_append events events'

theorem Verbosity.shown_singleton (v : Verbosity) (e : Event) :
    v.shown [e] = if v.enables e.level then [e] else [] :=
  List.filter_cons

namespace Traced

variable {α β : Type}

/-- The outcome as a subscriber of this verbosity sees it. -/
def shown (v : Verbosity) (t : Traced α) : Traced α := ⟨v.shown t.events, t.result⟩

theorem ofExcept_bind (r : Except DecodeError α) (f : α → Except DecodeError β) :
    ofExcept (r >>= f) = ofExcept r >>= fun a => ofExcept (f a) := by
  cases r <;> rfl

theorem map_eq_bind (t : Traced α) (f : α → β) : f <$> t = t >>= fun a => Pure.pure (f a) := by
  obtain ⟨events, result⟩ := t
  cases result with
  | ok a => exact Traced.ext (List.append_nil events).symm rfl
  | error e => rfl

end Traced

namespace Checked

variable {α β γ δ : Type}

/-- The run with these events before its own. -/
def after (events : List Event) : Checked α → Checked α
  | .fault why => .fault why
  | .outcome t => .outcome ⟨events ++ t.events, t.result⟩

def bind (x : Checked α) (f : α → Checked β) : Checked β :=
  match x with
  | .fault why => .fault why
  | .outcome ⟨events, .error e⟩ => .outcome ⟨events, .error e⟩
  | .outcome ⟨events, .ok a⟩ => (f a).after events

instance : Monad Checked where
  pure a := .outcome (pure a)
  bind := bind

def fail (e : DecodeError) : Checked α := .outcome (.fail e)

def ofExcept (r : Except DecodeError α) : Checked α := .outcome (.ofExcept r)

def mapError (f : DecodeError → DecodeError) : Checked α → Checked α
  | .fault why => .fault why
  | .outcome t => .outcome (t.mapError f)

/-- What an event says is worked out only if the event is shown. -/
def report (v : Verbosity) (level : Level) (event : Checked Event) : Checked Unit :=
  if v.enables level then do
    let e ← event
    .outcome (.record e)
  else return ()

@[simp] theorem pure_bind (a : α) (f : α → Checked β) : (pure a >>= f) = f a := by
  show (f a).after [] = f a
  cases f a <;> rfl

@[simp] theorem fail_bind (e : DecodeError) (f : α → Checked β) :
    (fail e >>= f) = fail e := rfl

/-! ## Operations with a condition -/

/-- The condition decides between the value and the fault. -/
def require (condition : Prop) [Decidable condition] (fault : Fault) (a : α) : Checked α :=
  if condition then pure a else .fault fault

def index (bytes : List UInt8) (i : Nat) : Checked UInt8 :=
  require (i < bytes.length) (.index i bytes.length) (bytes.getD i 0)

/-- The bytes from `start` up to `stop`. -/
def slice (bytes : List UInt8) (start stop : Nat) : Checked (List UInt8) :=
  require (start ≤ stop ∧ stop ≤ bytes.length) (.slice start stop bytes.length)
    (stretch bytes start (stop - start))

def sliceFrom (bytes : List UInt8) (start : Nat) : Checked (List UInt8) :=
  slice bytes start bytes.length

def difference (m n : Nat) : Checked Nat := require (n ≤ m) (.difference m n) (m - n)

section

variable {bytes : List UInt8} {i start stop m n : Nat}

theorem require_of {condition : Prop} [Decidable condition] (h : condition) (fault : Fault)
    (a : α) : require condition fault a = pure a := if_pos h

theorem index_of_lt (h : i < bytes.length) : index bytes i = pure (bytes.getD i 0) :=
  require_of h _ _

theorem slice_of_le (hstart : start ≤ stop) (hstop : stop ≤ bytes.length) :
    slice bytes start stop = pure (stretch bytes start (stop - start)) :=
  require_of ⟨hstart, hstop⟩ _ _

example : slice [1, 2] 1 5 = .fault (.slice 1 5 2) := rfl

theorem sliceFrom_of_le (h : start ≤ bytes.length) :
    sliceFrom bytes start = pure (bytes.drop start) := by
  rw [sliceFrom, slice_of_le h (Nat.le_refl _), stretch, ← List.length_drop, List.take_length]

theorem difference_of_le (h : n ≤ m) : difference m n = pure (m - n) := require_of h _ _

end

/-! ## Following a plain decoder -/

/-- The same error, or values that belong together. -/
inductive Agree (related : α → β → Prop) : Except DecodeError α → Except DecodeError β → Prop
  | ok {a : α} {b : β} (h : related a b) : Agree related (.ok a) (.ok b)
  | error (e : DecodeError) : Agree related (.error e) (.error e)

/-- The run meets no fault, shows the events of the plain decoder and agrees with it. -/
def Follows (v : Verbosity) (related : α → β → Prop) (x : Checked α) (t : Traced β) : Prop :=
  ∃ result, x = .outcome ⟨v.shown t.events, result⟩ ∧ Agree related result t.result

namespace Follows

variable {v : Verbosity} {related : α → β → Prop} {x : Checked α} {t : Traced β}

theorem pure {a : α} {b : β} (h : related a b) :
    Follows v related (Pure.pure a : Checked α) (Pure.pure b : Traced β) :=
  ⟨.ok a, rfl, .ok h⟩

theorem fail (e : DecodeError) :
    Follows v related (Checked.fail e : Checked α) (Traced.fail e : Traced β) :=
  ⟨.error e, rfl, .error e⟩

theorem ofExcept (r : Except DecodeError α) :
    Follows v Eq (Checked.ofExcept r) (Traced.ofExcept r) := by
  refine ⟨r, rfl, ?_⟩
  cases r with
  | ok a => exact .ok rfl
  | error e => exact .error e

/-- The second step may count on the first value. -/
theorem bind {related' : γ → δ → Prop} {f : α → Checked γ} {g : β → Traced δ}
    (h : Follows v related x t)
    (hnext : ∀ a b, t.result = .ok b → related a b → Follows v related' (f a) (g b)) :
    Follows v related' (x >>= f) (t >>= g) := by
  obtain ⟨result, rfl, hagree⟩ := h
  cases hresult : t.result with
  | error e =>
    rw [hresult] at hagree
    cases hagree
    refine ⟨.error e, ?_, ?_⟩
    · rw [Traced.events_bind_error hresult]
      rfl
    · rw [Traced.result_bind, hresult]
      exact .error e
  | ok b =>
    rw [hresult] at hagree
    cases hagree with
    | @ok a _ hab =>
      obtain ⟨result', hf, hagree'⟩ := hnext a b hresult hab
      refine ⟨result', ?_, ?_⟩
      · show (f a).after (v.shown t.events) = _
        rw [hf, after, Traced.events_bind_ok hresult, Verbosity.shown_append]
      · rw [Traced.result_bind, hresult]
        exact hagree'

theorem bind_ofExcept {related' : γ → δ → Prop} {f : α → Checked γ} {r : Except DecodeError β}
    {g : β → Except DecodeError δ} (h : Follows v related x (Traced.ofExcept r))
    (hnext : ∀ a b, r = .ok b → related a b →
      Follows v related' (f a) (Traced.ofExcept (g b))) :
    Follows v related' (x >>= f) (Traced.ofExcept (r >>= g)) := by
  rw [Traced.ofExcept_bind]
  exact h.bind hnext

theorem map {related' : γ → δ → Prop} {f : α → γ} {g : β → δ} (h : Follows v related x t)
    (hrelated : ∀ a b, related a b → related' (f a) (g b)) :
    Follows v related' (x >>= fun a => Pure.pure (f a)) (g <$> t) := by
  rw [Traced.map_eq_bind]
  exact h.bind fun a b _ hab => pure (hrelated a b hab)

/-- Only the plain decoder goes on to make another value. -/
theorem map_right {related' : α → γ → Prop} {g : β → γ} (h : Follows v related x t)
    (hrelated : ∀ a b, related a b → related' a (g b)) : Follows v related' x (g <$> t) := by
  obtain ⟨result, rfl, hagree⟩ := h
  obtain ⟨events, outcome⟩ := t
  refine ⟨result, rfl, ?_⟩
  cases hagree with
  | ok hab => exact .ok (hrelated _ _ hab)
  | error e => exact .error e

theorem mapError (h : Follows v related x t) (f : DecodeError → DecodeError) :
    Follows v related (x.mapError f) (t.mapError f) := by
  obtain ⟨result, rfl, hagree⟩ := h
  obtain ⟨events, outcome⟩ := t
  refine ⟨result.mapError f, rfl, ?_⟩
  cases hagree with
  | ok hab => exact .ok hab
  | error e => exact .error (f e)

theorem report (e : Event) :
    Follows v Eq (Checked.report v e.level (Pure.pure e)) (Traced.record e) := by
  refine ⟨.ok (), ?_, .ok rfl⟩
  rw [Checked.report, Traced.events_record, Verbosity.shown_singleton]
  split
  · rw [pure_bind]
    rfl
  · rfl

theorem eq_outcome {t : Traced α} (h : Follows v Eq x t) : x = .outcome (t.shown v) := by
  obtain ⟨result, rfl, hagree⟩ := h
  cases t with
  | mk events result' =>
    cases hagree with
    | ok hab => rw [hab]; rfl
    | error e => rfl

end Follows
end Checked
end AccessControl
