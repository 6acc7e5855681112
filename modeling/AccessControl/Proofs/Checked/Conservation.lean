import AccessControl.Proofs.Checked.Reader
import Mathlib.Data.List.Chain

/-!
# Conservation of bytes

A reader is changed in place, so what an operation has done to it would stay done if the operation
failed behind that. It never does: an operation takes as many bytes as it asks for or, when fewer
are left, says so and leaves the reader where it was. After any operations, the bytes that were
taken and the bytes that are left make up the whole.
-/

namespace AccessControl
namespace Reader

variable {α β : Type} {bytes : List UInt8} {position n : Nat} {field : Field}

/-! ## Operations in place -/

/-- An error leaves behind the reader as it was at that point. -/
abbrev InPlace := ExceptT DecodeError (StateT Reader Checked)

namespace InPlace

def outcome (x : InPlace α) (r : Reader) : Checked (Except DecodeError α × Reader) := x.run.run r

theorem outcome_bind_ok {x : InPlace α} {r s : Reader} {a : α} (h : outcome x r = pure (.ok a, s))
    (f : α → InPlace β) : outcome (x >>= f) r = outcome (f a) s := by
  show (outcome x r >>= fun p => (ExceptT.bindCont f p.1).run p.2) = _
  rw [h, Checked.pure_bind]
  rfl

theorem outcome_bind_error {x : InPlace α} {r s : Reader} {e : DecodeError}
    (h : outcome x r = pure (.error e, s)) (f : α → InPlace β) :
    outcome (x >>= f) r = pure (.error e, s) := by
  show (outcome x r >>= fun p => (ExceptT.bindCont f p.1).run p.2) = _
  rw [h, Checked.pure_bind]
  rfl

def take (n : Nat) (field : Field) : InPlace (List UInt8) := do
  let r ← get
  let available ← Checked.difference r.bytes.length r.position
  if available < n then throw (.truncated field r.position n available)
  else
    set { r with position := r.position + n }
    Checked.slice r.bytes r.position (r.position + n)

def skip (n : Nat) (field : Field) : InPlace Unit := do
  let _ ← take n field

/-- Copies what it takes into a block of `n` bytes. -/
def block (n : Nat) (field : Field) : InPlace { bytes : List UInt8 // bytes.length = n } := do
  let taken ← take n field
  if h : taken.length = n then return ⟨taken, h⟩
  else Checked.fault (.copy n taken.length)

/-- A block of `n` bytes, read as a value. -/
def value (n : Nat) (field : Field) (ofBytes : List UInt8 → α) : InPlace α := do
  let bytes ← block n field
  return ofBytes bytes.val

/-- Everything that is left. -/
def rest : InPlace (List UInt8) := do
  let r ← get
  let taken ← r.remaining
  set { r with position := r.bytes.length }
  return taken

theorem outcome_get (r : Reader) : outcome (get : InPlace Reader) r = pure (.ok r, r) := rfl

theorem outcome_set (r s : Reader) : outcome (set s : InPlace Unit) r = pure (.ok (), s) := rfl

theorem outcome_throw (e : DecodeError) (r : Reader) :
    outcome (throw e : InPlace α) r = pure (.error e, r) := rfl

theorem outcome_pure (a : α) (r : Reader) :
    outcome (pure a : InPlace α) r = pure (.ok a, r) := rfl

/-- An operation with a condition leaves the reader alone. -/
theorem outcome_liftM {x : Checked α} {a : α} (h : x = pure a) (r : Reader) :
    outcome (liftM x : InPlace α) r = pure (.ok a, r) := by
  rw [h]
  rfl

/-- Takes `n` bytes and makes this of them or, when fewer are left, says so and leaves the reader
where it is. -/
def Takes (x : InPlace α) (n : Nat) (field : Field) (ofBytes : List UInt8 → α) : Prop :=
  ∀ (bytes : List UInt8) (position : Nat), position ≤ bytes.length →
    outcome x ⟨bytes, position⟩ =
      if bytes.length - position < n then
        pure (.error (.truncated field position n (bytes.length - position)), ⟨bytes, position⟩)
      else pure (.ok (ofBytes (stretch bytes position n)), ⟨bytes, position + n⟩)

theorem takes_take (n : Nat) (field : Field) : Takes (take n field) n field id := by
  intro bytes position h
  rw [take, outcome_bind_ok (outcome_get _),
    outcome_bind_ok (outcome_liftM (Checked.difference_of_le h) _)]
  split
  · exact outcome_throw _ _
  · have hstop : position + n ≤ bytes.length := by omega
    rw [outcome_bind_ok (outcome_set _ _)]
    apply outcome_liftM
    rw [Checked.slice_of_le (Nat.le_add_right _ _) hstop, Nat.add_sub_cancel_left, id]

theorem Takes.map {x : InPlace α} {ofBytes : List UInt8 → α} (h : Takes x n field ofBytes)
    (f : α → β) : Takes (x >>= fun a => pure (f a)) n field fun bytes => f (ofBytes bytes) := by
  intro bytes position hposition
  have hx := h bytes position hposition
  by_cases hn : bytes.length - position < n
  · rw [if_pos hn] at hx ⊢
    exact outcome_bind_error hx _
  · rw [if_neg hn] at hx ⊢
    exact outcome_bind_ok hx _

/-- What was taken has the length that was asked for, so it can be copied. -/
theorem takes_value (n : Nat) (field : Field) (ofBytes : List UInt8 → α) :
    Takes (value n field ofBytes) n field ofBytes := by
  intro bytes position h
  have htake := takes_take n field bytes position h
  by_cases hn : bytes.length - position < n
  · rw [if_pos hn] at htake ⊢
    exact outcome_bind_error (outcome_bind_error htake _) _
  · rw [if_neg hn] at htake ⊢
    have hstop : position + n ≤ bytes.length := by omega
    have hblock : outcome (block n field) ⟨bytes, position⟩ =
        pure (.ok ⟨stretch bytes position n, length_stretch hstop⟩, ⟨bytes, position + n⟩) := by
      rw [block, outcome_bind_ok htake, id, dif_pos (length_stretch hstop), outcome_pure]
    exact outcome_bind_ok hblock _

theorem rest_eq (h : position ≤ bytes.length) :
    outcome rest ⟨bytes, position⟩ = pure (.ok (bytes.drop position), ⟨bytes, bytes.length⟩) := by
  have hremaining : Reader.remaining ⟨bytes, position⟩ = pure (bytes.drop position) :=
    Checked.sliceFrom_of_le h
  rw [rest, outcome_bind_ok (outcome_get _), outcome_bind_ok (outcome_liftM hremaining _),
    outcome_bind_ok (outcome_set _ _), outcome_pure]

end InPlace

/-! ## Operations as data -/

inductive Operation
  | take (n : Nat) (field : Field)
  | skip (n : Nat) (field : Field)
  | block (n : Nat) (field : Field)
  | byte (field : Field)
  | wordLittle (field : Field)
  | longLittle (field : Field)
  | longBig (field : Field)
  | rest

inductive Answer
  | nothing
  | bytes (bytes : List UInt8)
  | byte (b : UInt8)
  | word (w : UInt16)
  | long (w : UInt32)

namespace Operation

/-- How many bytes the operation asks for, and the field that it names if there are fewer. -/
def request? : Operation → Option (Nat × Field)
  | take n field => some (n, field)
  | skip n field => some (n, field)
  | block n field => some (n, field)
  | byte field => some (1, field)
  | wordLittle field => some (2, field)
  | longLittle field => some (4, field)
  | longBig field => some (4, field)
  | rest => none

/-- What is made of the bytes that the operation takes. -/
def answer : Operation → List UInt8 → Answer
  | take _ _, bytes => .bytes bytes
  | skip _ _, _ => .nothing
  | block _ _, bytes => .bytes bytes
  | byte _, bytes => .byte (UInt8.ofNat (ByteOrder.ofLittle bytes))
  | wordLittle _, bytes => .word (UInt16.ofNat (ByteOrder.ofLittle bytes))
  | longLittle _, bytes => .long (UInt32.ofNat (ByteOrder.ofLittle bytes))
  | longBig _, bytes => .long (UInt32.ofNat (ByteOrder.ofBig bytes))
  | rest, bytes => .bytes bytes

def perform : Operation → InPlace Answer
  | take n field => do return .bytes (← InPlace.take n field)
  | skip n field => do
    InPlace.skip n field
    return .nothing
  | block n field => InPlace.value n field .bytes
  | byte field => InPlace.value 1 field (answer (.byte field))
  | wordLittle field => InPlace.value 2 field (answer (.wordLittle field))
  | longLittle field => InPlace.value 4 field (answer (.longLittle field))
  | longBig field => InPlace.value 4 field (answer (.longBig field))
  | rest => do return .bytes (← InPlace.rest)

def onCursor (c : Cursor) : Operation → Except DecodeError (Answer × Cursor)
  | take n field => (c.take n field).map fun (bytes, c) => (.bytes bytes, c)
  | skip n field => (c.skip n field).map fun c => (.nothing, c)
  | block n field => (c.block n field).map fun (bytes, c) => (.bytes bytes.val, c)
  | byte field => (c.byte field).map fun (b, c) => (.byte b, c)
  | wordLittle field => (c.wordLittle field).map fun (w, c) => (.word w, c)
  | longLittle field => (c.longLittle field).map fun (w, c) => (.long w, c)
  | longBig field => (c.longBig field).map fun (w, c) => (.long w, c)
  | rest => .ok (.bytes c.rest.1, c.rest.2)

/-- The answer tells which bytes were consumed, or at least how many. -/
inductive Consumes : Operation → List UInt8 → Answer → Prop
  | take {n : Nat} {bytes : List UInt8} (h : bytes.length = n) (field : Field) :
      Consumes (.take n field) bytes (.bytes bytes)
  | skip {n : Nat} {bytes : List UInt8} (h : bytes.length = n) (field : Field) :
      Consumes (.skip n field) bytes .nothing
  | block {n : Nat} {bytes : List UInt8} (h : bytes.length = n) (field : Field) :
      Consumes (.block n field) bytes (.bytes bytes)
  | byte (b : UInt8) (field : Field) : Consumes (.byte field) [b] (.byte b)
  | wordLittle (w : UInt16) (field : Field) :
      Consumes (.wordLittle field) (ByteOrder.toLittle 2 w.toNat) (.word w)
  | longLittle (w : UInt32) (field : Field) :
      Consumes (.longLittle field) (ByteOrder.toLittle 4 w.toNat) (.long w)
  | longBig (w : UInt32) (field : Field) :
      Consumes (.longBig field) (ByteOrder.toBig 4 w.toNat) (.long w)
  | rest (bytes : List UInt8) : Consumes .rest bytes (.bytes bytes)

variable {op : Operation} {taken : List UInt8}

theorem request?_eq_none_iff : op.request? = none ↔ op = .rest := by
  cases op <;> simp [request?]

theorem consumes_answer (hrequest : op.request? = some (n, field)) (h : taken.length = n) :
    op.Consumes taken (op.answer taken) := by
  cases op with
  | take =>
    cases hrequest
    exact .take h _
  | skip =>
    cases hrequest
    exact .skip h _
  | block =>
    cases hrequest
    exact .block h _
  | byte =>
    cases hrequest
    rw [answer]
    generalize hb : UInt8.ofNat (ByteOrder.ofLittle taken) = b
    rw [(ByteOrder.byte_eq_iff h).mp hb]
    exact .byte b _
  | wordLittle =>
    cases hrequest
    rw [answer]
    generalize hw : UInt16.ofNat (ByteOrder.ofLittle taken) = w
    rw [(ByteOrder.word_eq_iff h).mp hw]
    exact .wordLittle w _
  | longLittle =>
    cases hrequest
    rw [answer]
    generalize hw : UInt32.ofNat (ByteOrder.ofLittle taken) = w
    rw [(ByteOrder.long_eq_iff h).mp hw]
    exact .longLittle w _
  | longBig =>
    cases hrequest
    rw [answer]
    generalize hw : UInt32.ofNat (ByteOrder.ofBig taken) = w
    rw [(ByteOrder.longBig_eq_iff h).mp hw]
    exact .longBig w _
  | rest => cases hrequest

theorem takes_perform (hrequest : op.request? = some (n, field)) :
    InPlace.Takes op.perform n field op.answer := by
  cases op with
  | take =>
    cases hrequest
    exact (InPlace.takes_take n field).map Answer.bytes
  | skip =>
    cases hrequest
    exact ((InPlace.takes_take n field).map fun _ => ()).map fun _ => Answer.nothing
  | block | byte | wordLittle | longLittle | longBig =>
    cases hrequest
    exact InPlace.takes_value _ _ _
  | rest => cases hrequest

theorem perform_rest (h : position ≤ bytes.length) :
    (perform .rest).outcome ⟨bytes, position⟩ =
      pure (.ok (.bytes (bytes.drop position)), ⟨bytes, bytes.length⟩) :=
  InPlace.outcome_bind_ok (InPlace.rest_eq h) _

theorem onCursor_eq_take (hrequest : op.request? = some (n, field)) (c : Cursor) :
    op.onCursor c = (c.take n field).map fun (taken, d) => (op.answer taken, d) := by
  cases op with
  | block =>
    cases hrequest
    rw [← Cursor.block_eq_take, onCursor]
    cases c.block n field <;> rfl
  | take | skip | byte | wordLittle | longLittle | longBig =>
    cases hrequest
    simp only [onCursor, Cursor.skip, Cursor.byte, Cursor.wordLittle, Cursor.longLittle,
      Cursor.longBig]
    cases c.take _ field <;> rfl
  | rest => cases hrequest

end Operation

/-! ## Histories -/

/-- The cursor at the place of the reader. -/
def cursor (r : Reader) : Cursor := ⟨r.position, r.bytes.drop r.position⟩

/-- An operation of a history, with the reader before it and behind it. -/
structure Step where
  operation : Operation
  before : Reader
  result : Except DecodeError Answer
  after : Reader

/-- The operations one after the other, whether they succeed or fail. -/
def history : List Operation → Reader → Checked (List Step × Reader)
  | [], r => return ([], r)
  | op :: ops, r => do
    let (result, s) ← op.perform.outcome r
    let (steps, final) ← history ops s
    return (⟨op, r, result, s⟩ :: steps, final)

namespace Step

/-- The bytes that a successful operation has put behind the reader. -/
def consumed (step : Step) : List UInt8 :=
  match step.result with
  | .ok _ => stretch step.before.bytes step.before.position
      (step.after.position - step.before.position)
  | .error _ => []

/-- What holds of every operation on a reader of these bytes. A cursor in its place gives the same
answer, and stands in its place again behind it. -/
structure Sound (bytes : List UInt8) (step : Step) : Prop where
  whole : step.before.bytes = bytes ∧ step.after.bytes = bytes
  forward : step.before.position ≤ step.after.position
  inside : step.after.position ≤ bytes.length
  consumes : ∀ answer, step.result = .ok answer → step.operation.Consumes step.consumed answer
  fails_iff : ∀ n field, step.operation.request? = some (n, field) →
    ((∃ e, step.result = .error e) ↔ bytes.length - step.before.position < n)
  failed : ∀ e, step.result = .error e → step.after = step.before ∧
    ∃ n field, step.operation.request? = some (n, field) ∧
      bytes.length - step.before.position < n ∧
      e = .truncated field step.before.position n (bytes.length - step.before.position)
  rest : step.operation = .rest →
    (∃ answer, step.result = .ok answer) ∧ step.after.remaining = pure []
  agrees : step.operation.onCursor step.before.cursor =
    step.result.map fun answer => (answer, step.after.cursor)

variable {op : Operation}

theorem sound_of_le (hrequest : op.request? = some (n, field)) (h : position + n ≤ bytes.length) :
    Sound bytes ⟨op, ⟨bytes, position⟩, .ok (op.answer (stretch bytes position n)),
      ⟨bytes, position + n⟩⟩ where
  whole := ⟨rfl, rfl⟩
  forward := Nat.le_add_right position n
  inside := h
  consumes := by
    rintro _ ⟨⟩
    rw [consumed, Nat.add_sub_cancel_left]
    exact op.consumes_answer hrequest (length_stretch h)
  fails_iff := by
    intro m field' hrequest'
    obtain ⟨rfl, rfl⟩ := Prod.mk.inj (Option.some.inj (hrequest.symm.trans hrequest'))
    have hle : ¬ bytes.length - position < n := by omega
    simp [hle]
  failed := nofun
  rest := by
    rintro ⟨⟩
    cases hrequest
  agrees := by
    have hn : n ≤ (bytes.drop position).length := by
      rw [List.length_drop]
      omega
    rw [Operation.onCursor_eq_take hrequest, cursor, Cursor.take_of_le field hn]
    simp [cursor, stretch, Except.map, List.drop_drop]

theorem sound_of_lt (hrequest : op.request? = some (n, field)) (h : position ≤ bytes.length)
    (hn : bytes.length - position < n) :
    Sound bytes ⟨op, ⟨bytes, position⟩,
      .error (.truncated field position n (bytes.length - position)), ⟨bytes, position⟩⟩ where
  whole := ⟨rfl, rfl⟩
  forward := Nat.le_refl position
  inside := h
  consumes := nofun
  fails_iff := by
    intro m field' hrequest'
    obtain ⟨rfl, rfl⟩ := Prod.mk.inj (Option.some.inj (hrequest.symm.trans hrequest'))
    simp [hn]
  failed := by
    rintro _ ⟨⟩
    exact ⟨rfl, n, field, hrequest, hn, rfl⟩
  rest := by
    rintro ⟨⟩
    cases hrequest
  agrees := by
    have hlength : (bytes.drop position).length = bytes.length - position := List.length_drop
    rw [Operation.onCursor_eq_take hrequest, cursor, Cursor.take_of_lt field (hlength ▸ hn),
      hlength]
    rfl

theorem sound_rest (h : position ≤ bytes.length) :
    Sound bytes ⟨.rest, ⟨bytes, position⟩, .ok (.bytes (bytes.drop position)),
      ⟨bytes, bytes.length⟩⟩ where
  whole := ⟨rfl, rfl⟩
  forward := h
  inside := Nat.le_refl _
  consumes := by
    rintro _ ⟨⟩
    rw [consumed, stretch, ← List.length_drop, List.take_length]
    exact .rest _
  fails_iff := nofun
  failed := nofun
  rest := by
    intro _
    refine ⟨⟨_, rfl⟩, ?_⟩
    exact (Checked.sliceFrom_of_le (Nat.le_refl _)).trans (by rw [List.drop_length])
  agrees := by
    simp [Operation.onCursor, Cursor.rest, cursor, Except.map, Nat.add_sub_cancel' h]

/-- A step splits the bytes that were left into those it consumes and those it leaves. -/
theorem Sound.consumed_append_drop {step : Step} (h : Sound bytes step) :
    step.consumed ++ bytes.drop step.after.position = bytes.drop step.before.position := by
  cases hresult : step.result with
  | ok answer =>
    have hlength := h.forward
    have hdrop : bytes.drop step.after.position = (bytes.drop step.before.position).drop
        (step.after.position - step.before.position) := by
      rw [List.drop_drop, Nat.add_sub_cancel' hlength]
    simp only [consumed, hresult, h.whole.1]
    rw [stretch, hdrop, List.take_append_drop]
  | error e =>
    obtain ⟨hsame, -⟩ := h.failed e hresult
    simp only [consumed, hresult, hsame, List.nil_append]

end Step

/-- One operation meets no fault and is sound. -/
theorem exists_sound_step (op : Operation) (h : position ≤ bytes.length) :
    ∃ result stop, op.perform.outcome ⟨bytes, position⟩ = pure (result, ⟨bytes, stop⟩) ∧
      Step.Sound bytes ⟨op, ⟨bytes, position⟩, result, ⟨bytes, stop⟩⟩ := by
  cases hrequest : op.request? with
  | none =>
    obtain rfl := Operation.request?_eq_none_iff.mp hrequest
    exact ⟨_, _, Operation.perform_rest h, Step.sound_rest h⟩
  | some request =>
    obtain ⟨n, field⟩ := request
    have hperform := Operation.takes_perform hrequest bytes position h
    split at hperform
    · next hn => exact ⟨_, _, hperform, Step.sound_of_lt hrequest h hn⟩
    · have hstop : position + n ≤ bytes.length := by omega
      exact ⟨_, _, hperform, Step.sound_of_le hrequest hstop⟩

/-- From any place inside the bytes, step by step. -/
theorem history_of_le (operations : List Operation) (h : position ≤ bytes.length) :
    ∃ steps stop, history operations ⟨bytes, position⟩ = pure (steps, ⟨bytes, stop⟩) ∧
      steps.map Step.operation = operations ∧ (∀ step ∈ steps, step.Sound bytes) ∧
      List.IsChain (· ≤ ·) (position :: steps.map fun step => step.after.position) ∧
      stop ≤ bytes.length ∧
      steps.flatMap Step.consumed ++ bytes.drop stop = bytes.drop position := by
  induction operations generalizing position with
  | nil => exact ⟨[], position, rfl, rfl, List.forall_mem_nil _, .singleton _, h, rfl⟩
  | cons op ops ih =>
    obtain ⟨result, next, hperform, hsound⟩ := exists_sound_step op h
    have hnext : next ≤ bytes.length := hsound.inside
    obtain ⟨steps, stop, hhistory, hoperations, hsteps, hchain, hstop, hconsumed⟩ := ih hnext
    refine ⟨⟨op, ⟨bytes, position⟩, result, ⟨bytes, next⟩⟩ :: steps, stop, ?_, ?_, ?_, ?_, hstop,
      ?_⟩
    · rw [history, hperform, Checked.pure_bind]
      dsimp only
      rw [hhistory, Checked.pure_bind]
    · rw [List.map_cons, hoperations]
    · exact List.forall_mem_cons.mpr ⟨hsound, hsteps⟩
    · rw [List.map_cons]
      exact .cons_cons hsound.forward hchain
    · rw [List.flatMap_cons, List.append_assoc, hconsumed]
      exact hsound.consumed_append_drop

/-- Whatever is asked of a reader, in whatever order and length: it meets no fault, every step is
sound, its position only grows, and the bytes that were consumed and those that remain are the
whole. -/
theorem history_conserves_bytes (bytes : List UInt8) (operations : List Operation) :
    ∃ steps final remaining, history operations (ofBytes bytes) = pure (steps, final) ∧
      steps.map Step.operation = operations ∧ (∀ step ∈ steps, step.Sound bytes) ∧
      List.IsChain (· ≤ ·) (0 :: steps.map fun step => step.after.position) ∧
      final.bytes = bytes ∧ final.position ≤ bytes.length ∧
      final.remaining = pure remaining ∧
      steps.flatMap Step.consumed ++ remaining = bytes := by
  obtain ⟨steps, stop, hhistory, hoperations, hsteps, hchain, hstop, hconsumed⟩ :=
    history_of_le operations (Nat.zero_le bytes.length)
  exact ⟨steps, ⟨bytes, stop⟩, bytes.drop stop, hhistory, hoperations, hsteps, hchain, rfl, hstop,
    Checked.sliceFrom_of_le hstop, hconsumed⟩

/-- A number that is cut off stays where it is and can be read in another way. -/
example : history [.byte .aceType, .longLittle .accessMask, .rest] (ofBytes [1, 2, 3]) =
    pure ([⟨.byte .aceType, ⟨[1, 2, 3], 0⟩, .ok (.byte 1), ⟨[1, 2, 3], 1⟩⟩,
      ⟨.longLittle .accessMask, ⟨[1, 2, 3], 1⟩, .error (.truncated .accessMask 1 4 2),
        ⟨[1, 2, 3], 1⟩⟩,
      ⟨.rest, ⟨[1, 2, 3], 1⟩, .ok (.bytes [2, 3]), ⟨[1, 2, 3], 3⟩⟩], ⟨[1, 2, 3], 3⟩) := rfl

end Reader
end AccessControl
