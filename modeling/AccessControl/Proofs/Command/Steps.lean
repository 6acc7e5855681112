import AccessControl.Command.Arguments
import AccessControl.Outcome
import Mathlib.Tactic.SplitIfs

/-!
# Steps of the arguments

A word either ends the options, or settles what is held back and then does one thing after the
other: it sets the kind, accepts an option or holds back an input. So what holds of two readings
side by side is followed from word to word, once it is known of these steps.
-/

namespace AccessControl
namespace Command
namespace Progress

variable {p p' q q' : Progress} {word value : String}

/-! ## Words -/

/-- How a word is read as long as options have not been ended. -/
inductive Shape (word : String) : Prop
  | separator (h : word.toList = ['-', '-'])
  | long {c : Char} {cs : List Char} (h : word.toList = '-' :: '-' :: c :: cs)
  | short {c : Char} {cs : List Char} (hc : c ≠ '-') (h : word.toList = '-' :: c :: cs)
  | plain (h : ∀ c cs, word.toList ≠ '-' :: c :: cs)

theorem shape (word : String) : Shape word := by
  by_cases hdash : ∃ c cs, word.toList = '-' :: c :: cs
  · obtain ⟨c, cs, h⟩ := hdash
    by_cases hc : c = '-'
    · cases cs with
      | nil => exact .separator (by rw [h, hc])
      | cons d cs => exact .long (by rw [h, hc])
    · exact .short hc h
  · exact .plain fun c cs h => hdash ⟨c, cs, h⟩

theorem take_of_onlyInputs (h : p.onlyInputs = true) (word : String) :
    p.take word = p.takeInput word := if_pos h

theorem take_separator (h : p.onlyInputs = false) (hword : word.toList = ['-', '-']) :
    p.take word = .ok { p with onlyInputs := true } := by
  simp [take, h, hword]

theorem take_long (h : p.onlyInputs = false) {c : Char} {cs : List Char}
    (hword : word.toList = '-' :: '-' :: c :: cs) :
    p.take word = p.takeLong (splitValue (c :: cs)).1 (splitValue (c :: cs)).2 := by
  simp [take, h, hword]

theorem take_short (h : p.onlyInputs = false) {c : Char} {cs : List Char} (hc : c ≠ '-')
    (hword : word.toList = '-' :: c :: cs) : p.take word = p.takeShort (c :: cs) := by
  simp only [take, h, hword]
  cases cs <;> simp [hc]

theorem take_plain (h : p.onlyInputs = false) (hword : ∀ c cs, word.toList ≠ '-' :: c :: cs) :
    p.take word = p.takePlain word := by
  unfold take
  rw [if_neg (Bool.eq_false_iff.mp h)]
  split
  · next heq => exact absurd heq (hword _ _)
  · next heq => exact absurd heq (hword _ _)
  · next heq => exact absurd heq (hword _ _)
  · rfl

/-! ## Steps -/

/-- What settling what is held back does. -/
inductive Settles (p : Progress) : Progress → Prop
  | free (hheld : p.held = none) : Settles p p
  | kind {value : String} {kind : StructureKind} (hheld : p.held = some (.kind (some value)))
      (hnone : p.kind = none) (hvalue : StructureKind.ofName? value = some kind) :
      Settles p { p with held := none, kind := some kind }
  | input {word : String} (hheld : p.held = some (.input word)) (hword : word ≠ "") :
      Settles p { p with held := none, input := some word }

theorem setKind_eq_ok_iff : p.setKind value = .ok p' ↔
    p.kind = none ∧ ∃ kind, StructureKind.ofName? value = some kind ∧
      p' = { p with kind := some kind } := by
  unfold setKind
  cases hkind : p.kind with
  | some kind => simp
  | none =>
    cases hvalue : StructureKind.ofName? value with
    | none => simp
    | some kind => simp [eq_comm]

theorem settle_eq_ok_iff : p.settle = .ok p' ↔ Settles p p' := by
  constructor
  · intro h
    unfold settle at h
    split at h
    · next hheld =>
      cases h
      exact .free hheld
    · cases h
    · next value hheld =>
      obtain ⟨hnone, kind, hvalue, rfl⟩ := setKind_eq_ok_iff.mp h
      exact .kind hheld hnone hvalue
    · next word hheld =>
      split_ifs at h with hword
      cases h
      exact .input hheld hword
  · intro h
    unfold settle
    cases h with
    | free hheld => rw [hheld]
    | kind hheld hnone hvalue =>
      rw [hheld]
      exact setKind_eq_ok_iff.mpr ⟨hnone, _, hvalue, rfl⟩
    | input hheld hword =>
      rw [hheld]
      exact if_neg hword

/-- Settling leaves nothing held back, and whatever it does not judge as it was. -/
theorem frame_of_settle (h : p.settle = .ok p') : p'.held = none ∧ p'.switches = p.switches ∧
    p'.onlyInputs = p.onlyInputs ∧ p'.sawInput = p.sawInput := by
  cases settle_eq_ok_iff.mp h with
  | free hheld => exact ⟨hheld, rfl, rfl, rfl⟩
  | kind => exact ⟨rfl, rfl, rfl, rfl⟩
  | input => exact ⟨rfl, rfl, rfl, rfl⟩

/-- An option that still awaits its value is not settled. -/
theorem held_ne_of_settle (h : p.settle = .ok p') : p.held ≠ some (.kind none) := by
  intro hheld
  rw [Progress.settle, hheld] at h
  cases h

/-- An option without a value does one of three things. -/
inductive Accepts (p : Progress) : OptionName → Progress → Prop
  | kind : Accepts p .kind { p with held := some (.kind none) }
  | switch {s : Switch} (hnew : s ∉ p.switches) :
      Accepts p (.switch s) { p with switches := s :: p.switches }
  | verbose : Accepts p .verbose { p with verbose := min maxVerbose (p.verbose + 1) }

theorem accept_eq_ok_iff {o : OptionName} : p.accept o = .ok p' ↔ Accepts p o p' := by
  constructor
  · intro h
    cases o with
    | kind =>
      cases h
      exact .kind
    | switch s =>
      rw [accept] at h
      split_ifs at h with hgiven
      cases h
      exact .switch (by simpa using hgiven)
    | verbose =>
      cases h
      exact .verbose
    | help => cases h
    | version => cases h
  · intro h
    cases h with
    | kind => rfl
    | switch hnew => exact if_neg (by simpa using hnew)
    | verbose => rfl

theorem takeInput_eq_ok_iff : p.takeInput word = .ok p' ↔
    p.sawInput = false ∧ ∃ p₁, p.settle = .ok p₁ ∧
      p' = { p₁ with held := some (.input word), sawInput := true } := by
  unfold takeInput
  cases p.sawInput with
  | true => simp
  | false =>
    rw [if_neg (by decide), bind_eq_ok_iff]
    simp only [true_and]
    refine exists_congr fun p₁ => and_congr_right fun _ => ?_
    show Except.ok _ = .ok p' ↔ _
    rw [Except.ok.injEq, eq_comm]

/-- The value that is attached to a letter. -/
def attached : List Char → String
  | '=' :: value => String.ofList value
  | value => String.ofList value

theorem takeShort_cons (p : Progress) (c : Char) (rest : List Char) :
    p.takeShort (c :: rest) = match OptionName.ofShort? c with
      | none => .error (.usage (.unexpectedArgument (String.ofList ['-', c])))
      | some o => p.settle >>= fun p =>
        if o = .kind ∧ rest ≠ [] then p.setKind (attached rest)
        else p.accept o >>= fun p => p.takeShort rest := by
  cases ho : OptionName.ofShort? c with
  | none => simp only [takeShort, ho]
  | some o =>
    cases rest with
    | nil => cases o <;> simp [takeShort, ho]
    | cons d value =>
      cases o with
      | kind =>
        by_cases hd : d = '='
        · simp [takeShort, ho, hd, attached]
        · simp [takeShort, ho, hd, attached]
      | _ => simp [takeShort, ho]

theorem takePlain_eq (p : Progress) (word : String) :
    p.takePlain word = if p.held = some (.kind none) then
        .ok { p with held := some (.kind (some word)) }
      else p.takeInput word := by
  unfold takePlain
  split
  · next h => rw [if_pos h]
  · next h => rw [if_neg h]

theorem long_of_ofLong? {name : String} {o : OptionName} (h : OptionName.ofLong? name = some o) :
    o.long = name := by
  simpa using List.find?_some h

theorem ofShort?_ne_switch (c : Char) (s : Switch) : OptionName.ofShort? c ≠ some (.switch s) := by
  unfold OptionName.ofShort?
  split_ifs <;> nofun

theorem takeLong_unknown {name : String} (ho : OptionName.ofLong? name = none) (p : Progress)
    (value : Option String) :
    p.takeLong name value = .error (.usage (.unexpectedArgument ("--" ++ name))) := by
  simp only [takeLong, ho]

theorem takeLong_bare {name : String} {o : OptionName} (ho : OptionName.ofLong? name = some o)
    (p : Progress) : p.takeLong name none = p.settle >>= fun p => p.accept o := by
  cases o <;> simp only [takeLong, ho]

/-- Only the kind has a value. -/
theorem takeLong_value {name : String} {o : OptionName} (ho : OptionName.ofLong? name = some o)
    (p : Progress) (value : String) :
    p.takeLong name (some value) = if o = .kind then p.settle >>= fun p => p.setKind value
      else .error (.usage (.unexpectedValue value o)) := by
  cases o <;> simp [takeLong, ho]

/-! ## Side by side -/

/-- Where both steps succeed, what is related before is related behind them. -/
def Lockstep (R : Progress → Progress → Prop) (step : Progress → Except Stop Progress) : Prop :=
  ∀ ⦃p q p' q' : Progress⦄, R p q → step p = .ok p' → step q = .ok q' → R p' q'

variable {R : Progress → Progress → Prop}

/-- What the steps of a word keep, the separator and switches apart. -/
structure Kept (R : Progress → Progress → Prop) : Prop where
  setKind : ∀ value, Lockstep R fun p => p.settle >>= fun p => p.setKind value
  accept : ∀ o : OptionName, (∀ s, o ≠ .switch s) →
    Lockstep R fun p => p.settle >>= fun p => p.accept o
  takeInput : ∀ word, Lockstep R fun p => p.takeInput word
  takePlain : ∀ word, Lockstep R fun p => p.takePlain word

theorem Kept.takeShort (hR : Kept R) (cs : List Char) : Lockstep R fun p => p.takeShort cs := by
  -- On the letters: each is an option that settles what was held back before.
  induction cs with
  | nil =>
    intro p q p' q' h hp hq
    cases hp
    cases hq
    exact h
  | cons c rest ih =>
    intro p q p' q' h hp hq
    simp only [takeShort_cons] at hp hq
    cases ho : OptionName.ofShort? c with
    | none =>
      rw [ho] at hp
      cases hp
    | some o =>
      rw [ho] at hp hq
      dsimp only at hp hq
      split_ifs at hp hq with hvalue
      · exact hR.setKind _ h hp hq
      · rw [← bind_assoc, bind_eq_ok_iff] at hp hq
        obtain ⟨p₁, hp₁, hp⟩ := hp
        obtain ⟨q₁, hq₁, hq⟩ := hq
        have hswitch : ∀ s, o ≠ .switch s := by
          rintro s rfl
          exact ofShort?_ne_switch c s ho
        exact ih (hR.accept o hswitch h hp₁ hq₁) hp hq

theorem Kept.takeLong (hR : Kept R)
    (hswitch : ∀ s, Lockstep R fun p => p.settle >>= fun p => p.accept (.switch s))
    (name : String) (value : Option String) : Lockstep R fun p => p.takeLong name value := by
  intro p q p' q' h hp hq
  dsimp only at hp hq
  cases ho : OptionName.ofLong? name with
  | none =>
    rw [takeLong_unknown ho] at hp
    cases hp
  | some o =>
    cases value with
    | none =>
      rw [takeLong_bare ho] at hp hq
      by_cases hs : ∃ s, o = .switch s
      · obtain ⟨s, rfl⟩ := hs
        exact hswitch s h hp hq
      · exact hR.accept o (fun s ho => hs ⟨s, ho⟩) h hp hq
    | some v =>
      rw [takeLong_value ho] at hp hq
      split_ifs at hp hq
      exact hR.setKind v h hp hq

theorem Kept.take (hR : Kept R)
    (hswitch : ∀ s, Lockstep R fun p => p.settle >>= fun p => p.accept (.switch s))
    (hmode : ∀ {p q}, R p q → p.onlyInputs = q.onlyInputs)
    (hend : ∀ {p q}, R p q → R { p with onlyInputs := true } { q with onlyInputs := true })
    (word : String) : Lockstep R fun p => p.take word := by
  intro p q p' q' h hp hq
  dsimp only at hp hq
  have hqmode := hmode h
  cases hpmode : p.onlyInputs with
  | true =>
    rw [take_of_onlyInputs hpmode] at hp
    rw [take_of_onlyInputs (hqmode.symm.trans hpmode)] at hq
    exact hR.takeInput word h hp hq
  | false =>
    rw [hpmode] at hqmode
    cases shape word with
    | separator hword =>
      rw [take_separator hpmode hword] at hp
      rw [take_separator hqmode.symm hword] at hq
      cases hp
      cases hq
      exact hend h
    | long hword =>
      rw [take_long hpmode hword] at hp
      rw [take_long hqmode.symm hword] at hq
      exact hR.takeLong hswitch _ _ h hp hq
    | short hc hword =>
      rw [take_short hpmode hc hword] at hp
      rw [take_short hqmode.symm hc hword] at hq
      exact hR.takeShort _ h hp hq
    | plain hword =>
      rw [take_plain hpmode hword] at hp
      rw [take_plain hqmode.symm hword] at hq
      exact hR.takePlain word h hp hq

theorem Lockstep.diagonal {step : Progress → Except Stop Progress} (h : Lockstep R step) :
    Lockstep (fun p q => p = q ∧ R p q) step := by
  rintro p _ p' q' ⟨rfl, hR⟩ hp hq
  cases hp.symm.trans hq
  exact ⟨rfl, h hR hp hp⟩

/-- What is kept of one reading is kept of two equal ones. -/
theorem Kept.diagonal (hR : Kept R) : Kept fun p q => p = q ∧ R p q where
  setKind value := (hR.setKind value).diagonal
  accept o ho := (hR.accept o ho).diagonal
  takeInput word := (hR.takeInput word).diagonal
  takePlain word := (hR.takePlain word).diagonal

/-- What every word keeps is kept by all of them. -/
theorem Lockstep.foldlM {step : Progress → String → Except Stop Progress} {words : List String}
    (hstep : ∀ word ∈ words, Lockstep R fun p => step p word) :
    Lockstep R fun p => words.foldlM step p := by
  induction words with
  | nil =>
    intro p q p' q' h hp hq
    cases hp
    cases hq
    exact h
  | cons word words ih =>
    intro p q p' q' h hp hq
    simp only [List.foldlM_cons, bind_eq_ok_iff] at hp hq
    obtain ⟨p₁, hp₁, hp⟩ := hp
    obtain ⟨q₁, hq₁, hq⟩ := hq
    obtain ⟨hword, hwords⟩ := List.forall_mem_cons.mp hstep
    exact ih hwords (hword h hp₁ hq₁) hp hq

end Progress
end Command
end AccessControl
