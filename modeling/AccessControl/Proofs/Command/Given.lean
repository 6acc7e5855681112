import AccessControl.Proofs.Command.Switches

/-!
# A switch given first

A switch in front of arguments that do not give it adds the switch to what they ask for. Apart from
that they are read as before, word by word and to the same end, be it a request or an error.
-/

namespace AccessControl
namespace Command
namespace Progress

variable {p : Progress} {s : Switch} {step next : Progress → Except Stop Progress}

/-! ## Steps -/

/-- The same progress behind a switch that was given before everything else. -/
def given (s : Switch) (p : Progress) : Progress := { p with switches := p.switches ++ [s] }

/-- For a step it makes no difference that the switch was given. -/
def Ignores (s : Switch) (step : Progress → Except Stop Progress) : Prop :=
  ∀ p, step (p.given s) = (step p).map (given s)

theorem apart_given (s : Switch) : Apart (given s) :=
  ⟨fun _ => rfl, fun _ => rfl, fun _ => rfl, fun _ _ => rfl, fun _ _ => rfl⟩

theorem Ignores.bind (hstep : Ignores s step) (hnext : Ignores s next) :
    Ignores s fun p => step p >>= next := by
  intro p
  dsimp only
  rw [hstep p]
  cases step p with
  | error stop => rfl
  | ok p₁ => exact hnext p₁

theorem ignores_settle : Ignores s settle := (apart_given s).settle

theorem ignores_setKind (value : String) : Ignores s fun p => p.setKind value :=
  fun p => (apart_given s).setKind p value

theorem ignores_accept {o : OptionName} (ho : o ≠ .switch s) : Ignores s fun p => p.accept o := by
  intro p
  cases o with
  | switch other =>
    have hne : other ≠ s := fun h => ho (congrArg OptionName.switch h)
    have hgiven : (p.given s).switches.contains other = p.switches.contains other := by
      simp [given, hne]
    simp only [accept, hgiven]
    split_ifs
    · rfl
    · rfl
  | _ => rfl

theorem ignores_takeInput (word : String) : Ignores s fun p => p.takeInput word := by
  have hheld : Ignores s fun p =>
      p.settle >>= fun p => .ok { p with held := some (.input word), sawInput := true } :=
    ignores_settle.bind fun _ => rfl
  intro p
  cases hsaw : p.sawInput with
  | true =>
    have hgiven : (p.given s).sawInput = true := hsaw
    simp [takeInput, hsaw, hgiven]
  | false =>
    have hgiven : (p.given s).sawInput = false := hsaw
    simp only [takeInput, hsaw, hgiven]
    exact hheld p

theorem ignores_takePlain (word : String) : Ignores s fun p => p.takePlain word := by
  intro p
  have hheld : (p.given s).held = p.held := rfl
  simp only [takePlain_eq, hheld]
  split_ifs
  · rfl
  · exact ignores_takeInput word p

theorem ignores_takeShort (cs : List Char) : Ignores s fun p => p.takeShort cs := by
  induction cs with
  | nil => exact fun _ => rfl
  | cons c rest ih =>
    intro p
    simp only [takeShort_cons]
    cases ho : OptionName.ofShort? c with
    | none => rfl
    | some o =>
      have hother : o ≠ .switch s := by
        rintro rfl
        exact ofShort?_ne_switch c s ho
      dsimp only
      split_ifs
      · exact ignores_settle.bind (ignores_setKind _) p
      · exact ignores_settle.bind ((ignores_accept hother).bind ih) p

/-- The name of another option, or one with a value. -/
theorem ignores_takeLong {name : String} {value : Option String}
    (h : (name, value) ≠ ((OptionName.switch s).long, none)) :
    Ignores s fun p => p.takeLong name value := by
  intro p
  cases ho : OptionName.ofLong? name with
  | none =>
    simp only [takeLong_unknown ho]
    rfl
  | some o =>
    cases value with
    | none =>
      have hother : o ≠ .switch s := by
        rintro rfl
        exact h (by rw [long_of_ofLong? ho])
      simp only [takeLong_bare ho]
      exact ignores_settle.bind (ignores_accept hother) p
    | some value =>
      simp only [takeLong_value ho]
      split_ifs
      · exact ignores_settle.bind (ignores_setKind value) p
      · rfl

/-! ## Words -/

theorem take_given {word : String} (h : p.onlyInputs = false → word ≠ s.word) :
    (p.given s).take word = (p.take word).map (given s) := by
  cases hmode : p.onlyInputs with
  | true =>
    have hgiven : (p.given s).onlyInputs = true := hmode
    rw [take_of_onlyInputs hmode, take_of_onlyInputs hgiven]
    exact ignores_takeInput word p
  | false =>
    have hgiven : (p.given s).onlyInputs = false := hmode
    cases shape word with
    | separator hword =>
      rw [take_separator hmode hword, take_separator hgiven hword]
      rfl
    | long hword =>
      rw [take_long hmode hword, take_long hgiven hword]
      exact ignores_takeLong (fun heq => h hmode ((eq_word_iff hword).mpr heq)) p
    | short hc hword =>
      rw [take_short hmode hc hword, take_short hgiven hc hword]
      exact ignores_takeShort _ p
    | plain hword =>
      rw [take_plain hmode hword, take_plain hgiven hword]
      exact ignores_takePlain word p

theorem word_ne_dashes (s : Switch) : s.word ≠ "--" := by
  cases s <;> decide

theorem foldlM_take_given {words : List String}
    (h : p.onlyInputs = false → s.word ∉ words.takeWhile (· ≠ "--")) :
    words.foldlM take (p.given s) = (words.foldlM take p).map (given s) := by
  induction words generalizing p with
  | nil => rfl
  | cons word words ih =>
    have hword : p.onlyInputs = false → word ≠ s.word := by
      rintro hmode rfl
      exact h hmode (by simp [word_ne_dashes])
    rw [List.foldlM_cons, List.foldlM_cons, take_given hword]
    cases htake : p.take word with
    | error stop => rfl
    | ok p₁ =>
      obtain ⟨hends, -⟩ := effect_of_take htake
      apply ih
      intro hmode hrest
      -- Options that have not ended behind the word had not ended before, and not with it.
      have hbefore : p.onlyInputs = false := by
        rw [← Bool.not_eq_true]
        intro hended
        cases hmode.symm.trans (hends.mpr (.inl hended))
      have hgoes : word ≠ "--" := by
        rintro rfl
        cases hmode.symm.trans (hends.mpr (.inr rfl))
      apply h hbefore
      rw [List.takeWhile_cons_of_pos (by simpa using hgoes)]
      exact List.mem_cons_of_mem _ hrest

end Progress

namespace Request

variable {s : Switch} {words : List String}

/-- The same request with one more switch. -/
def given (s : Switch) (r : Request) : Request := { r with switches := r.switches ++ [s] }

theorem has_given_iff {r : Request} {other : Switch} :
    (r.given s).has other = true ↔ r.has other = true ∨ other = s := by
  simp [has, given]

theorem finish_given (p : Progress) : (p.given s).finish = p.finish.map (given s) := by
  rw [Progress.finish, Progress.ignores_settle, Progress.finish]
  cases p.settle with
  | error stop => rfl
  | ok p₁ =>
    have hgiven : (p₁.given s).input = p₁.input := rfl
    rw [ok_map, ok_bind, ok_bind, hgiven]
    cases p₁.input with
    | none => rfl
    | some input => rfl

/-- A switch in front of arguments that do not give it is added to what they ask for, and if they
ask for nothing, that stays so. -/
theorem ofArguments_word_cons (h : s.word ∉ words.takeWhile (· ≠ "--")) :
    ofArguments (s.word :: words) = (ofArguments words).map (given s) := by
  have hfirst : Progress.take {} s.word = .ok (Progress.given s {}) := by
    rw [Progress.take_word rfl]
    cases s <;> rfl
  rw [ofArguments, List.foldlM_cons, hfirst, ok_bind, Progress.foldlM_take_given fun _ => h,
    ofArguments]
  cases words.foldlM Progress.take {} with
  | error stop => rfl
  | ok p => exact finish_given p

end Request
end Command
end AccessControl
