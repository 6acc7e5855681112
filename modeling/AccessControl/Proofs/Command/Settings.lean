import AccessControl.Proofs.Command.Switches
import Mathlib.Data.List.Nodup

/-!
# What arguments set

Every switch, the kind and the input are set once at most. What the arguments so far have settled is
what they have set, although the last of it may still be held back, to be judged with the next word.
-/

namespace AccessControl
namespace Command

/-! ## Settings -/

/-- What is set by the arguments. -/
inductive Setting
  | switch (s : Switch)
  | kind (kind : StructureKind)
  | input (word : String)
deriving DecidableEq

/-- Things that are set once at most. -/
inductive Slot
  | switch (s : Switch)
  | kind
  | input
deriving DecidableEq

def Setting.slot : Setting → Slot
  | switch s => .switch s
  | kind _ => .kind
  | input _ => .input

/-- What is set, as a request. -/
structure Asks (r : Request) (given : List Setting) : Prop where
  input_mem : .input r.input ∈ given
  kind_eq : ∃ kind : Option StructureKind,
    r.kind = kind.getD .descriptor ∧ ∀ k, kind = some k ↔ .kind k ∈ given
  has_iff : ∀ s, r.has s = true ↔ .switch s ∈ given

namespace Setting

variable {given : List Setting}

theorem switch_slot_mem_iff {s : Switch} :
    .switch s ∈ given.map slot ↔ .switch s ∈ given := by
  constructor
  · intro h
    obtain ⟨setting, hmem, hslot⟩ := List.mem_map.mp h
    cases setting <;> cases hslot
    exact hmem
  · exact List.mem_map_of_mem

theorem kind_slot_mem_iff : .kind ∈ given.map slot ↔ ∃ k, .kind k ∈ given := by
  constructor
  · intro h
    obtain ⟨setting, hmem, hslot⟩ := List.mem_map.mp h
    cases setting <;> cases hslot
    exact ⟨_, hmem⟩
  · rintro ⟨k, hmem⟩
    exact List.mem_map_of_mem hmem

theorem input_slot_mem_iff : .input ∈ given.map slot ↔ ∃ word, .input word ∈ given := by
  constructor
  · intro h
    obtain ⟨setting, hmem, hslot⟩ := List.mem_map.mp h
    cases setting <;> cases hslot
    exact ⟨_, hmem⟩
  · rintro ⟨word, hmem⟩
    exact List.mem_map_of_mem hmem

theorem once_concat (h : (given.map slot).Nodup) (setting : Setting)
    (hnew : setting.slot ∉ given.map slot) : ((given ++ [setting]).map slot).Nodup := by
  rw [List.map_append]
  exact h.append (List.nodup_singleton _) (List.disjoint_singleton.mpr hnew)

end Setting

namespace Progress

variable {p q : Progress} {given : List Setting} {word : String}

/-! ## What is settled -/

/-- Nothing is held back, and what is settled is what has been set. -/
structure Settled (q : Progress) (given : List Setting) : Prop where
  held_eq : q.held = none
  onlyInputs_eq : q.onlyInputs = false
  sawInput_eq : q.sawInput = q.input.isSome
  switches_iff : ∀ s, s ∈ q.switches ↔ .switch s ∈ given
  kind_iff : ∀ kind, q.kind = some kind ↔ .kind kind ∈ given
  input_iff : ∀ word, q.input = some word ↔ .input word ∈ given

/-- Once what is held back has been judged, what is settled is what has been set. -/
def Reflects (p : Progress) (given : List Setting) : Prop :=
  ∃ q, p.settle = .ok q ∧ q.Settled given

namespace Settled

theorem settle_eq (h : q.Settled given) : q.settle = .ok q :=
  settle_eq_ok_iff.mpr (.free h.held_eq)

theorem reflects (h : q.Settled given) : q.Reflects given := ⟨q, h.settle_eq, h⟩

theorem switch (h : q.Settled given) (s : Switch) :
    Settled { q with switches := s :: q.switches } (given ++ [.switch s]) where
  held_eq := h.held_eq
  onlyInputs_eq := h.onlyInputs_eq
  sawInput_eq := h.sawInput_eq
  switches_iff other := by simp [h.switches_iff, or_comm]
  kind_iff kind := by simp [h.kind_iff]
  input_iff word := by simp [h.input_iff]

theorem verbose (h : q.Settled given) (count : Nat) :
    Settled { q with verbose := count } given :=
  ⟨h.held_eq, h.onlyInputs_eq, h.sawInput_eq, h.switches_iff, h.kind_iff, h.input_iff⟩

theorem kind (h : q.Settled given) (hnew : q.kind = none) (kind : StructureKind) :
    Settled { q with kind := some kind } (given ++ [.kind kind]) where
  held_eq := h.held_eq
  onlyInputs_eq := h.onlyInputs_eq
  sawInput_eq := h.sawInput_eq
  switches_iff s := by simp [h.switches_iff]
  kind_iff other := by simp [← h.kind_iff, hnew, eq_comm]
  input_iff word := by simp [h.input_iff]

theorem input (h : q.Settled given) (hnew : q.input = none) (word : String) :
    Settled { q with input := some word, sawInput := true } (given ++ [.input word]) where
  held_eq := h.held_eq
  onlyInputs_eq := h.onlyInputs_eq
  sawInput_eq := rfl
  switches_iff s := by simp [h.switches_iff]
  kind_iff kind := by simp [h.kind_iff]
  input_iff other := by simp [← h.input_iff, hnew, eq_comm]

/-- What has not been set is not settled. -/
theorem switch_not_mem_iff (h : q.Settled given) (s : Switch) :
    s ∉ q.switches ↔ .switch s ∉ given.map Setting.slot := by
  rw [h.switches_iff, Setting.switch_slot_mem_iff]

theorem kind_eq_none_iff (h : q.Settled given) :
    q.kind = none ↔ .kind ∉ given.map Setting.slot := by
  simp [Setting.kind_slot_mem_iff, ← h.kind_iff, Option.eq_none_iff_forall_ne_some]

theorem input_eq_none_iff (h : q.Settled given) :
    q.input = none ↔ .input ∉ given.map Setting.slot := by
  simp [Setting.input_slot_mem_iff, ← h.input_iff, Option.eq_none_iff_forall_ne_some]

/-- The value of the option for the kind is held back. -/
theorem held_kind (h : q.Settled given) (hnew : q.kind = none) (kind : StructureKind) :
    Reflects { q with held := some (.kind (some kind.name)) } (given ++ [.kind kind]) := by
  refine ⟨_, settle_eq_ok_iff.mpr (.kind rfl hnew (StructureKind.ofName?_name kind)), ?_⟩
  rw [← h.held_eq]
  exact h.kind hnew kind

theorem held_input (h : q.Settled given) (hnew : q.input = none) (hword : word ≠ "") :
    Reflects { q with held := some (.input word), sawInput := true } (given ++ [.input word]) := by
  refine ⟨_, settle_eq_ok_iff.mpr (.input rfl hword), ?_⟩
  rw [← h.held_eq]
  exact h.input hnew word

theorem asks (h : q.Settled given) (hinput : q.input = some word) :
    Asks ⟨word, q.kind.getD .descriptor, q.switches, q.verbose⟩ given where
  input_mem := (h.input_iff word).mp hinput
  kind_eq := ⟨q.kind, rfl, h.kind_iff⟩
  has_iff s := by
    rw [← h.switches_iff]
    exact List.elem_iff

end Settled

theorem Reflects.onlyInputs_eq (h : p.Reflects given) : p.onlyInputs = false := by
  obtain ⟨q, hsettle, hq⟩ := h
  obtain ⟨-, -, hmode, -⟩ := frame_of_settle hsettle
  exact hmode.symm.trans hq.onlyInputs_eq

theorem Settled.sawInput_of_settle (h : q.Settled given) (hsettle : p.settle = .ok q) :
    p.sawInput = q.input.isSome := by
  obtain ⟨-, -, -, hsaw⟩ := frame_of_settle hsettle
  rw [← hsaw, h.sawInput_eq]

theorem Settled.input_eq_none_of_settle (h : q.Settled given) (hsettle : p.settle = .ok q)
    (hfirst : p.sawInput = false) : q.input = none := by
  rw [← Option.isNone_iff_eq_none, ← Option.not_isSome, ← h.sawInput_of_settle hsettle, hfirst]
  rfl

end Progress
end Command
end AccessControl
