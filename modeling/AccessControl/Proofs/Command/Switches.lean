import AccessControl.Proofs.Command.Steps

/-!
# Switches

A switch is on exactly when its word is given before the options are ended. Beyond that the word
leaves no trace: input and kind are the same without it.
-/

namespace AccessControl
namespace Command

/-- The word that gives a switch. -/
def Switch.word (s : Switch) : String := "--" ++ (OptionName.switch s).long

namespace Progress

variable {p p' q q' : Progress} {word value : String} {s : Switch}

/-! ## Given or not -/

theorem kept_frame (switches : List Switch) (mode : Bool) :
    Kept fun p _ => p.switches = switches ∧ p.onlyInputs = mode where
  setKind value := by
    rintro p - p' - ⟨hswitches, hmode⟩ hp -
    obtain ⟨p₁, hsettle, hp⟩ := bind_eq_ok_iff.mp hp
    obtain ⟨-, hs, hm, -⟩ := frame_of_settle hsettle
    obtain ⟨-, kind, -, rfl⟩ := setKind_eq_ok_iff.mp hp
    exact ⟨hs.trans hswitches, hm.trans hmode⟩
  accept o ho := by
    rintro p - p' - ⟨hswitches, hmode⟩ hp -
    obtain ⟨p₁, hsettle, hp⟩ := bind_eq_ok_iff.mp hp
    obtain ⟨-, hs, hm, -⟩ := frame_of_settle hsettle
    cases accept_eq_ok_iff.mp hp with
    | kind => exact ⟨hs.trans hswitches, hm.trans hmode⟩
    | switch => exact absurd rfl (ho _)
    | verbose => exact ⟨hs.trans hswitches, hm.trans hmode⟩
  takeInput word := by
    rintro p - p' - ⟨hswitches, hmode⟩ hp -
    obtain ⟨-, p₁, hsettle, rfl⟩ := takeInput_eq_ok_iff.mp hp
    obtain ⟨-, hs, hm, -⟩ := frame_of_settle hsettle
    exact ⟨hs.trans hswitches, hm.trans hmode⟩
  takePlain word := by
    rintro p - p' - ⟨hswitches, hmode⟩ hp -
    dsimp only at hp
    rw [takePlain_eq] at hp
    split_ifs at hp
    · cases hp
      exact ⟨hswitches, hmode⟩
    · obtain ⟨-, p₁, hsettle, rfl⟩ := takeInput_eq_ok_iff.mp hp
      obtain ⟨-, hs, hm, -⟩ := frame_of_settle hsettle
      exact ⟨hs.trans hswitches, hm.trans hmode⟩

theorem toList_word (s : Switch) :
    s.word.toList = '-' :: '-' :: (OptionName.switch s).long.toList := by
  rw [Switch.word, String.toList_append]
  rfl

theorem exists_toList_word (s : Switch) : ∃ c cs, s.word.toList = '-' :: '-' :: c :: cs := by
  cases s <;> exact ⟨_, _, toList_word _⟩

theorem splitValue_of_none {cs : List Char} (h : (splitValue cs).2 = none) :
    (splitValue cs).1 = String.ofList cs := by
  unfold splitValue at h ⊢
  have hsplit : cs.takeWhile (· ≠ '=') ++ cs.dropWhile (· ≠ '=') = cs :=
    List.takeWhile_append_dropWhile
  cases hrest : cs.dropWhile (· ≠ '=') with
  | nil =>
    rw [hrest, List.append_nil] at hsplit
    simp only [hsplit]
  | cons c value =>
    simp only [hrest] at h
    cases h

theorem eq_word_iff {c : Char} {cs : List Char} (hword : word.toList = '-' :: '-' :: c :: cs) :
    word = s.word ↔ splitValue (c :: cs) = ((OptionName.switch s).long, none) := by
  constructor
  · rintro rfl
    rw [toList_word] at hword
    simp only [List.cons.injEq, true_and] at hword
    rw [← hword]
    cases s <;> rfl
  · intro h
    have hname : (OptionName.switch s).long = String.ofList (c :: cs) := by
      rw [← splitValue_of_none (congrArg Prod.snd h), h]
    rw [← String.toList_inj, hword, toList_word, hname, String.toList_ofList]

theorem word_ne_of_toList_ne (hword : ∀ c cs, word.toList ≠ '-' :: '-' :: c :: cs) :
    word ≠ s.word := by
  rintro rfl
  obtain ⟨c, cs, h⟩ := exists_toList_word s
  exact hword c cs h

theorem frame_of_lockstep {step : Progress → Except Stop Progress}
    (hstep : ∀ switches mode,
      Lockstep (fun p _ => p.switches = switches ∧ p.onlyInputs = mode) step)
    (h : step p = .ok p') : p'.switches = p.switches ∧ p'.onlyInputs = p.onlyInputs := by
  have hself : p.switches = p.switches ∧ p.onlyInputs = p.onlyInputs := ⟨rfl, rfl⟩
  exact hstep p.switches p.onlyInputs (q := p) hself h h

/-- A long option without a value is a switch, or leaves the switches alone. -/
theorem effect_of_takeLong {name : String} {value : Option String}
    (h : p.takeLong name value = .ok p') : p'.onlyInputs = p.onlyInputs ∧
      ∀ s, s ∈ p'.switches ↔
        s ∈ p.switches ∨ (name, value) = ((OptionName.switch s).long, none) := by
  cases ho : OptionName.ofLong? name with
  | none =>
    rw [takeLong_unknown ho] at h
    cases h
  | some o =>
    cases value with
    | some v =>
      rw [takeLong_value ho] at h
      split_ifs at h
      obtain ⟨hs, hm⟩ := frame_of_lockstep (fun _ _ => (kept_frame _ _).setKind v) h
      exact ⟨hm, by simp [hs]⟩
    | none =>
      have hname : ∀ s, name = (OptionName.switch s).long ↔ o = .switch s := by
        intro s
        constructor
        · rintro rfl
          rw [OptionName.ofLong?_long] at ho
          exact (Option.some.inj ho).symm
        · rintro rfl
          exact (long_of_ofLong? ho).symm
      simp only [Prod.mk.injEq, and_true, hname]
      rw [takeLong_bare ho] at h
      by_cases hswitch : ∃ s, o = .switch s
      · obtain ⟨s₀, rfl⟩ := hswitch
        obtain ⟨p₁, hsettle, h⟩ := bind_eq_ok_iff.mp h
        obtain ⟨-, hs, hm, -⟩ := frame_of_settle hsettle
        cases accept_eq_ok_iff.mp h
        refine ⟨hm, fun s => ?_⟩
        simp only [List.mem_cons, hs, OptionName.switch.injEq, eq_comm (a := s)]
        exact or_comm
      · have hno : ∀ s, o ≠ .switch s := fun s ho => hswitch ⟨s, ho⟩
        obtain ⟨hs, hm⟩ := frame_of_lockstep (fun _ _ => (kept_frame _ _).accept o hno) h
        exact ⟨hm, by simp [hs, hno]⟩

/-- A word ends the options or gives a switch, or does neither. -/
theorem effect_of_take (h : p.take word = .ok p') :
    (p'.onlyInputs = true ↔ p.onlyInputs = true ∨ word.toList = ['-', '-']) ∧
      ∀ s, s ∈ p'.switches ↔ s ∈ p.switches ∨ p.onlyInputs = false ∧ word = s.word := by
  cases hmode : p.onlyInputs with
  | true =>
    rw [take_of_onlyInputs hmode] at h
    obtain ⟨hs, hm⟩ := frame_of_lockstep (fun _ _ => (kept_frame _ _).takeInput word) h
    rw [hs, hm, hmode]
    simp
  | false =>
    cases shape word with
    | separator hword =>
      have hne : ∀ s : Switch, word ≠ s.word := fun s => word_ne_of_toList_ne (by simp [hword])
      rw [take_separator hmode hword] at h
      cases h
      simp [hword, hne]
    | short hc hword =>
      have hne : ∀ s : Switch, word ≠ s.word := fun s => word_ne_of_toList_ne (by simp [hword, hc])
      rw [take_short hmode hc hword] at h
      obtain ⟨hs, hm⟩ := frame_of_lockstep (fun _ _ => (kept_frame _ _).takeShort _) h
      rw [hs, hm, hmode, hword]
      simp [hne, hc]
    | plain hword =>
      have hne : ∀ s : Switch, word ≠ s.word :=
        fun s => word_ne_of_toList_ne fun c cs => hword _ _
      rw [take_plain hmode hword] at h
      obtain ⟨hs, hm⟩ := frame_of_lockstep (fun _ _ => (kept_frame _ _).takePlain _) h
      rw [hs, hm, hmode]
      simp [hne, hword]
    | @long c cs hword =>
      rw [take_long hmode hword] at h
      obtain ⟨hm, hs⟩ := effect_of_takeLong h
      refine ⟨by simp [hm, hmode, hword], fun s => ?_⟩
      simp only [eq_word_iff hword, true_and]
      exact hs s

/-- A switch is on when its word has come before the options were ended. -/
theorem switches_of_words {words : List String} (h : words.foldlM take p = .ok p')
    (s : Switch) : s ∈ p'.switches ↔ s ∈ p.switches ∨
      p.onlyInputs = false ∧ s.word ∈ words.takeWhile (· ≠ "--") := by
  -- On the words: what one of them does, and then the others from where it has led.
  induction words generalizing p with
  | nil =>
    cases h
    simp
  | cons word words ih =>
    rw [List.foldlM_cons] at h
    obtain ⟨p₁, hword, hwords⟩ := bind_eq_ok_iff.mp h
    obtain ⟨hmode, hswitches⟩ := effect_of_take hword
    have hdashes : word.toList = ['-', '-'] ↔ word = "--" := by
      rw [← String.toList_inj]
      rfl
    rw [hdashes] at hmode
    rw [ih hwords, hswitches, List.takeWhile_cons]
    by_cases hend : word = "--"
    · have hne : word ≠ s.word := word_ne_of_toList_ne (by simp [hend])
      simp [hmode.mpr (.inr hend), hend, hend ▸ hne]
    · have hkeeps : p₁.onlyInputs = p.onlyInputs := by
        rw [Bool.eq_iff_iff, hmode, or_iff_left hend]
      simp only [hkeeps, hend, ne_eq, not_false_eq_true, decide_true, if_true, List.mem_cons,
        eq_comm (a := word), or_assoc, and_or_left]

/-! ## Input and kind -/

/-- A change of fields that have no part in what is held back. -/
structure Apart (change : Progress → Progress) : Prop where
  kind_eq : ∀ p, (change p).kind = p.kind
  held_eq : ∀ p, (change p).held = p.held
  free : ∀ p, { change p with held := none } = change { p with held := none }
  kind : ∀ p kind, { change p with kind := some kind } = change { p with kind := some kind }
  input : ∀ p word, { change p with input := some word } = change { p with input := some word }

namespace Apart

variable {change : Progress → Progress}

theorem setKind (h : Apart change) (p : Progress) (value : String) :
    (change p).setKind value = (p.setKind value).map change := by
  unfold Progress.setKind
  rw [h.kind_eq]
  cases p.kind with
  | some kind => rfl
  | none =>
    cases StructureKind.ofName? value with
    | none => rfl
    | some kind => exact congrArg Except.ok (h.kind p kind)

theorem settle (h : Apart change) (p : Progress) :
    (change p).settle = p.settle.map change := by
  unfold Progress.settle
  rw [h.held_eq, h.free]
  cases p.held with
  | none => rfl
  | some held =>
    cases held with
    | kind value =>
      cases value with
      | none => rfl
      | some value => exact h.setKind _ value
    | input word =>
      dsimp only
      split_ifs
      · rfl
      · exact congrArg Except.ok (h.input _ word)

end Apart

/-- What input and kind depend on. -/
def core (p : Progress) : Progress := { p with switches := [], verbose := 0 }

def ended (p : Progress) : Progress := { p with onlyInputs := true }

theorem core_eq_iff : p.core = q.core ↔ p.input = q.input ∧ p.kind = q.kind ∧ p.held = q.held ∧
    p.sawInput = q.sawInput ∧ p.onlyInputs = q.onlyInputs := by
  simp [core]

theorem apart_core : Apart core :=
  ⟨fun _ => rfl, fun _ => rfl, fun _ => rfl, fun _ _ => rfl, fun _ _ => rfl⟩

theorem apart_ended : Apart ended :=
  ⟨fun _ => rfl, fun _ => rfl, fun _ => rfl, fun _ _ => rfl, fun _ _ => rfl⟩

/-- The same input and kind are settled or held back in both, or the second has settled what the
first still holds back. -/
inductive Abreast (p q : Progress) : Prop
  | same (h : p.core = q.core)
  | settled {p₁ : Progress} (hsettle : p.settle = .ok p₁) (h : p₁.core = q.core)

theorem core_eq_of_settle (h : p.core = q.core) (hp : p.settle = .ok p') (hq : q.settle = .ok q') :
    p'.core = q'.core := by
  have hcore : p.settle.map core = q.settle.map core := by
    rw [← apart_core.settle, ← apart_core.settle, h]
  rw [hp, hq] at hcore
  exact Except.ok.inj hcore

namespace Abreast

/-- Behind the next step that settles, nothing tells the two apart. -/
theorem core_eq (h : Abreast p q) (hp : p.settle = .ok p') (hq : q.settle = .ok q') :
    p'.core = q'.core := by
  cases h with
  | same h => exact core_eq_of_settle h hp hq
  | @settled p₁ hsettle h =>
    cases hsettle.symm.trans hp
    obtain ⟨hnone, -⟩ := frame_of_settle hsettle
    obtain ⟨-, -, hheld, -⟩ := core_eq_iff.mp h
    have hheld : q.held = none := hheld.symm.trans hnone
    cases (settle_eq_ok_iff.mpr (.free hheld)).symm.trans hq
    exact h

theorem onlyInputs_eq (h : Abreast p q) : p.onlyInputs = q.onlyInputs := by
  cases h with
  | same h =>
    obtain ⟨-, -, -, -, hmode⟩ := core_eq_iff.mp h
    exact hmode
  | settled hsettle h =>
    obtain ⟨-, -, hsame, -⟩ := frame_of_settle hsettle
    obtain ⟨-, -, -, -, hmode⟩ := core_eq_iff.mp h
    exact hsame.symm.trans hmode

theorem ended (h : Abreast p q) : Abreast p.ended q.ended := by
  cases h with
  | same h => exact same (congrArg Progress.ended h)
  | @settled p₁ hsettle h =>
    have hended : p.ended.settle = .ok p₁.ended := by
      rw [apart_ended.settle, hsettle, ok_map]
    exact settled hended (congrArg Progress.ended h)

theorem lockstep_accept (o : OptionName) :
    Lockstep Abreast fun p => p.settle >>= fun p => p.accept o := by
  intro p q p' q' h hp hq
  obtain ⟨p₁, hsettle, hp⟩ := bind_eq_ok_iff.mp hp
  obtain ⟨q₁, hsettle', hq⟩ := bind_eq_ok_iff.mp hq
  have hcore := h.core_eq hsettle hsettle'
  apply same
  cases accept_eq_ok_iff.mp hp <;> cases accept_eq_ok_iff.mp hq
  · exact congrArg (fun p => { p with held := some (.kind none) }) hcore
  · exact hcore
  · exact hcore

theorem lockstep_takeInput (word : String) : Lockstep Abreast fun p => p.takeInput word := by
  intro p q p' q' h hp hq
  obtain ⟨-, p₁, hsettle, rfl⟩ := takeInput_eq_ok_iff.mp hp
  obtain ⟨-, q₁, hsettle', rfl⟩ := takeInput_eq_ok_iff.mp hq
  have hcore := h.core_eq hsettle hsettle'
  exact same (congrArg (fun p => { p with held := some (.input word), sawInput := true }) hcore)

/-- An option that awaits its value is not settled, so it awaits it in both. -/
theorem lockstep_takePlain (word : String) : Lockstep Abreast fun p => p.takePlain word := by
  intro p q p' q' h hp hq
  dsimp only at hp hq
  rw [takePlain_eq] at hp hq
  cases h with
  | same hcore =>
    obtain ⟨-, -, hheld, -⟩ := core_eq_iff.mp hcore
    rw [hheld] at hp
    split_ifs at hp hq
    · cases hp
      cases hq
      exact same (congrArg (fun p => { p with held := some (.kind (some word)) }) hcore)
    · exact lockstep_takeInput word (same hcore) hp hq
  | @settled p₁ hsettle hcore =>
    obtain ⟨hnone, -⟩ := frame_of_settle hsettle
    obtain ⟨-, -, hheld, -⟩ := core_eq_iff.mp hcore
    have hfree : q.held = none := hheld.symm.trans hnone
    rw [if_neg (held_ne_of_settle hsettle)] at hp
    rw [hfree, if_neg nofun] at hq
    exact lockstep_takeInput word (settled hsettle hcore) hp hq

end Abreast

theorem kept_abreast : Kept Abreast where
  setKind value := by
    intro p q p' q' h hp hq
    obtain ⟨p₁, hsettle, hp⟩ := bind_eq_ok_iff.mp hp
    obtain ⟨q₁, hsettle', hq⟩ := bind_eq_ok_iff.mp hq
    have hcore : (p₁.setKind value).map core = (q₁.setKind value).map core := by
      rw [← apart_core.setKind, ← apart_core.setKind, h.core_eq hsettle hsettle']
    rw [hp, hq] at hcore
    exact .same (Except.ok.inj hcore)
  accept o _ := Abreast.lockstep_accept o
  takeInput := Abreast.lockstep_takeInput
  takePlain := Abreast.lockstep_takePlain

/-- As long as no input has been met, there is none. -/
def Untouched (p : Progress) : Prop :=
  p.sawInput = false → p.input = none ∧ ∀ word, p.held ≠ some (.input word)

theorem Untouched.settle (h : p.Untouched) (hp : p.settle = .ok p') : p'.Untouched := by
  obtain ⟨-, -, -, hsaw⟩ := frame_of_settle hp
  intro hnone
  obtain ⟨hinput, hheld⟩ := h (hsaw.symm.trans hnone)
  cases settle_eq_ok_iff.mp hp with
  | free => exact ⟨hinput, hheld⟩
  | kind => exact ⟨hinput, nofun⟩
  | input hword => exact absurd hword (hheld _)

theorem Untouched.accept (h : p.Untouched) {o : OptionName} (hp : p.accept o = .ok p') :
    p'.Untouched := by
  intro hnone
  cases accept_eq_ok_iff.mp hp with
  | kind => exact ⟨(h hnone).1, nofun⟩
  | switch => exact h hnone
  | verbose => exact h hnone

theorem kept_untouched : Kept fun p _ => p.Untouched where
  setKind value := by
    intro p _ p' _ h hp _
    obtain ⟨p₁, hsettle, hp⟩ := bind_eq_ok_iff.mp hp
    obtain ⟨-, kind, -, rfl⟩ := setKind_eq_ok_iff.mp hp
    have huntouched : p₁.Untouched := h.settle hsettle
    exact huntouched
  accept o _ := by
    intro p _ p' _ h hp _
    obtain ⟨p₁, hsettle, hp⟩ := bind_eq_ok_iff.mp hp
    exact (h.settle hsettle).accept hp
  takeInput word := by
    intro p _ p' _ h hp _
    obtain ⟨-, p₁, -, rfl⟩ := takeInput_eq_ok_iff.mp hp
    nofun
  takePlain word := by
    intro p _ p' _ h hp _
    dsimp only at hp
    rw [takePlain_eq] at hp
    split_ifs at hp
    · cases hp
      exact fun hnone => ⟨(h hnone).1, nofun⟩
    · obtain ⟨-, p₁, -, rfl⟩ := takeInput_eq_ok_iff.mp hp
      nofun

theorem untouched_of_words {words : List String} (h : words.foldlM take {} = .ok p) :
    p.Untouched := by
  have hswitch : ∀ s, Lockstep (fun p _ => p.Untouched) fun p : Progress =>
      p.settle >>= fun p => p.accept (.switch s) := by
    intro s p _ p' _ h hp _
    obtain ⟨p₁, hsettle, hp⟩ := bind_eq_ok_iff.mp hp
    exact (h.settle hsettle).accept hp
  have htake : ∀ word ∈ words, Lockstep (fun p q => p = q ∧ p.Untouched) fun p => p.take word := by
    intro word _
    refine kept_untouched.diagonal.take (fun s => (hswitch s).diagonal) ?_ ?_ word
    · intro p q h
      rw [h.1]
    · rintro p _ ⟨rfl, h⟩
      exact ⟨rfl, h⟩
  have hstart : Untouched {} := fun _ => ⟨rfl, nofun⟩
  obtain ⟨-, huntouched⟩ := Lockstep.foldlM htake (q := {}) ⟨rfl, hstart⟩ h h
  exact huntouched

theorem abreast_of_words {words : List String} (h : Abreast p q)
    (hp : words.foldlM take p = .ok p') (hq : words.foldlM take q = .ok q') : Abreast p' q' := by
  have htake : ∀ word ∈ words, Lockstep Abreast fun p => p.take word := by
    intro word _
    exact kept_abreast.take (fun s => Abreast.lockstep_accept (.switch s)) Abreast.onlyInputs_eq
      Abreast.ended word
  exact Lockstep.foldlM htake h hp hq

theorem finish_eq_ok_iff {r : Request} : p.finish = .ok r ↔
    ∃ p₁ input, p.settle = .ok p₁ ∧ p₁.input = some input ∧
      r = ⟨input, p₁.kind.getD .descriptor, p₁.switches, p₁.verbose⟩ := by
  rw [finish, bind_eq_ok_iff]
  refine exists_congr fun p₁ => ?_
  cases p₁.input with
  | none => simp
  | some input =>
    show _ ∧ Except.ok _ = .ok r ↔ _
    simp [eq_comm]

/-- An input that has been met stays the only one. -/
theorem nil_of_sawInput {words : List String} (h : words.foldlM take p = .ok p')
    (hmode : p.onlyInputs = true) (hsaw : p.sawInput = true) : words = [] := by
  cases words with
  | nil => rfl
  | cons word words =>
    obtain ⟨p₁, hword, -⟩ := bind_eq_ok_iff.mp h
    rw [take_of_onlyInputs hmode] at hword
    obtain ⟨hnone, -⟩ := takeInput_eq_ok_iff.mp hword
    cases hsaw.symm.trans hnone

theorem take_word (h : p.onlyInputs = false) (s : Switch) :
    p.take s.word = p.settle >>= fun p => p.accept (.switch s) := by
  obtain ⟨c, cs, hword⟩ := exists_toList_word s
  rw [take_long h hword, eq_word_iff hword |>.mp rfl, takeLong_bare (OptionName.ofLong?_long _)]

end Progress

namespace Request

variable {words front back : List String} {r r' : Request}

theorem has_iff (h : ofArguments words = .ok r) (s : Switch) :
    r.has s = true ↔ s.word ∈ words.takeWhile (· ≠ "--") := by
  obtain ⟨p, hwords, hfinish⟩ := bind_eq_ok_iff.mp h
  obtain ⟨p₁, input, hsettle, -, rfl⟩ := Progress.finish_eq_ok_iff.mp hfinish
  obtain ⟨-, hswitches, -⟩ := Progress.frame_of_settle hsettle
  have hgiven := Progress.switches_of_words hwords s
  simpa [has, hswitches] using hgiven

/-- A switch, wherever it is given, changes neither input nor kind. -/
theorem input_and_kind_eq (s : Switch) (h : ofArguments (front ++ back) = .ok r)
    (h' : ofArguments (front ++ s.word :: back) = .ok r') :
    r'.input = r.input ∧ r'.kind = r.kind := by
  obtain ⟨p, hwords, hfinish⟩ := bind_eq_ok_iff.mp h
  obtain ⟨q, hwords', hfinish'⟩ := bind_eq_ok_iff.mp h'
  rw [List.foldlM_append, bind_eq_ok_iff] at hwords hwords'
  obtain ⟨p₀, hfront, hback⟩ := hwords
  obtain ⟨q₀, hfront', hback'⟩ := hwords'
  cases hfront.symm.trans hfront'
  obtain ⟨q₁, htake, hback'⟩ := bind_eq_ok_iff.mp hback'
  obtain ⟨p₂, input, hsettle, hinput, rfl⟩ := Progress.finish_eq_ok_iff.mp hfinish
  obtain ⟨q₂, input', hsettle', hinput', rfl⟩ := Progress.finish_eq_ok_iff.mp hfinish'
  cases hmode : p₀.onlyInputs with
  | false =>
    rw [Progress.take_word hmode] at htake
    obtain ⟨p₁, hsettled, haccept⟩ := bind_eq_ok_iff.mp htake
    -- The word settles what was held back; apart from that only a switch is new.
    have habreast : Progress.Abreast p₀ q₁ := by
      cases Progress.accept_eq_ok_iff.mp haccept
      exact .settled hsettled rfl
    have hcore := (Progress.abreast_of_words habreast hback hback').core_eq hsettle hsettle'
    obtain ⟨hinputs, hkind, -⟩ := Progress.core_eq_iff.mp hcore
    refine ⟨?_, congrArg (Option.getD · .descriptor) hkind.symm⟩
    rw [hinput, hinput'] at hinputs
    exact (Option.some.inj hinputs).symm
  | true =>
    -- Behind the separator the word would be the input, and without it there would be none.
    rw [Progress.take_of_onlyInputs hmode] at htake
    obtain ⟨hnone, p₁, hsettled, rfl⟩ := Progress.takeInput_eq_ok_iff.mp htake
    obtain ⟨-, -, hmode₁, -⟩ := Progress.frame_of_settle hsettled
    obtain rfl := Progress.nil_of_sawInput hback' (hmode₁.trans hmode) rfl
    cases hback
    have huntouched := (Progress.untouched_of_words hfront).settle hsettle
    obtain ⟨-, -, -, hsaw⟩ := Progress.frame_of_settle hsettle
    cases hinput.symm.trans (huntouched (hsaw.trans hnone)).1

end Request
end Command
end AccessControl
