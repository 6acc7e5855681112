import AccessControl.Event

/-!
# Traced results

The outcome of a decoder together with the events on the way to it. Events that come
before a failure stay, and nothing is reported after one.
-/

namespace AccessControl

structure Traced (α : Type) where
  events : List Event
  result : Except DecodeError α

namespace Traced

variable {α β : Type}

@[ext] theorem ext {x y : Traced α} (events : x.events = y.events) (result : x.result = y.result) :
    x = y := by
  cases x
  cases y
  simp_all

def pure (a : α) : Traced α := ⟨[], .ok a⟩

def bind (x : Traced α) (f : α → Traced β) : Traced β :=
  match x.result with
  | .error e => ⟨x.events, .error e⟩
  | .ok a => ⟨x.events ++ (f a).events, (f a).result⟩

/-- The events stay as they are, however many there are. -/
def map (f : α → β) (x : Traced α) : Traced β := ⟨x.events, x.result.map f⟩

instance : Monad Traced where
  pure := pure
  bind := bind
  map := map

/-- An outcome without events. -/
def ofExcept (result : Except DecodeError α) : Traced α := ⟨[], result⟩

instance : MonadLift (Except DecodeError) Traced := ⟨ofExcept⟩

def fail (e : DecodeError) : Traced α := ⟨[], .error e⟩

def record (e : Event) : Traced Unit := ⟨[e], .ok ()⟩

def mapError (f : DecodeError → DecodeError) (x : Traced α) : Traced α :=
  ⟨x.events, x.result.mapError f⟩

@[simp] theorem events_pure (a : α) : (Pure.pure a : Traced α).events = [] := rfl

@[simp] theorem result_pure (a : α) : (Pure.pure a : Traced α).result = .ok a := rfl

@[simp] theorem events_ofExcept (r : Except DecodeError α) : (ofExcept r).events = [] := rfl

@[simp] theorem result_ofExcept (r : Except DecodeError α) : (ofExcept r).result = r := rfl

@[simp] theorem events_liftM (r : Except DecodeError α) : (liftM r : Traced α).events = [] := rfl

@[simp] theorem result_liftM (r : Except DecodeError α) : (liftM r : Traced α).result = r := rfl

@[simp] theorem events_record (e : Event) : (record e).events = [e] := rfl

@[simp] theorem result_record (e : Event) : (record e).result = .ok () := rfl

@[simp] theorem result_fail (e : DecodeError) : (fail e : Traced α).result = .error e := rfl

@[simp] theorem events_fail (e : DecodeError) : (fail e : Traced α).events = [] := rfl

@[simp] theorem events_mapError (f : DecodeError → DecodeError) (x : Traced α) :
    (x.mapError f).events = x.events := rfl

@[simp] theorem result_mapError (f : DecodeError → DecodeError) (x : Traced α) :
    (x.mapError f).result = x.result.mapError f := rfl

@[simp] theorem events_map (f : α → β) (x : Traced α) : (f <$> x).events = x.events := rfl

@[simp] theorem result_map (f : α → β) (x : Traced α) : (f <$> x).result = x.result.map f := rfl

/-- Results compose as if there were no events. -/
@[simp] theorem result_bind (x : Traced α) (f : α → Traced β) :
    (x >>= f).result = x.result >>= fun a => (f a).result := by
  show (bind x f).result = Except.bind x.result fun a => (f a).result
  unfold bind Except.bind
  cases x.result <;> rfl

theorem events_bind_ok {x : Traced α} {a : α} (h : x.result = .ok a) (f : α → Traced β) :
    (x >>= f).events = x.events ++ (f a).events := by
  show (bind x f).events = _
  simp [bind, h]

theorem events_bind_error {x : Traced α} {e : DecodeError} (h : x.result = .error e)
    (f : α → Traced β) : (x >>= f).events = x.events := by
  show (bind x f).events = _
  simp [bind, h]

@[simp] theorem events_liftM_ok_bind (a : α) (f : α → Traced β) :
    ((liftM (Except.ok a : Except DecodeError α) : Traced α) >>= f).events = (f a).events := rfl

@[simp] theorem events_liftM_error_bind (e : DecodeError) (f : α → Traced β) :
    ((liftM (Except.error e : Except DecodeError α) : Traced α) >>= f).events = [] := rfl

@[simp] theorem events_record_bind (e : Event) (f : Unit → Traced β) :
    (record e >>= f).events = e :: (f ()).events := rfl

/-- What reports nothing adds nothing to what was reported before. -/
theorem events_bind_silent (x : Traced α) {f : α → Traced β} (h : ∀ a, (f a).events = []) :
    (x >>= f).events = x.events := by
  cases hx : x.result with
  | ok a => rw [events_bind_ok hx, h, List.append_nil]
  | error e => rw [events_bind_error hx]

@[simp] theorem events_bind_pure (x : Traced α) (f : α → β) :
    (x >>= fun a => Pure.pure (f a)).events = x.events :=
  events_bind_silent x fun _ => rfl

@[simp] theorem events_bind_liftM (x : Traced α) (f : α → Except DecodeError β) :
    (x >>= fun a => (liftM (f a) : Traced β)).events = x.events :=
  events_bind_silent x fun _ => rfl

end Traced
end AccessControl
