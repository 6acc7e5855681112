import AccessControl.Proofs.Command.Settings

/-!
# The grammar of arguments

Arguments come in phrases: an option, with its value where it has one, or the input. Behind them
options may be ended, to let any word be the input. Exactly those lines ask for a structure that
are made in this way, set everything once at most and have an input, and they ask for what they set.
-/

namespace AccessControl
namespace Command

/-! ## Lines -/

/-- A word that is an input wherever one may stand. -/
def IsOperand (word : String) : Prop := word = "-" ∨ word ≠ "" ∧ word.toList.head? ≠ some '-'

/-- Requests for more diagnostics in one word, with something behind them. -/
def cluster (count : Nat) (rest : String) : String :=
  String.ofList ('-' :: List.replicate count 'v') ++ rest

inductive SwitchWord : Switch → String → Prop
  | base64 : SwitchWord .base64 "--base64"
  | json : SwitchWord .json "--json"
  | strict : SwitchWord .strict "--strict"
  | checkAclSize : SwitchWord .checkAclSize "--check-acl-size"

inductive KindName : StructureKind → String → Prop
  | descriptor : KindName .descriptor "sd"
  | acl : KindName .acl "acl"
  | ace : KindName .ace "ace"

/-- Words that belong together as long as options have not been ended, and what they set. -/
inductive Phrase : List String → List Setting → Prop
  | switch {s : Switch} {word : String} (hword : SwitchWord s word) : Phrase [word] [.switch s]
  | verbose : Phrase ["--verbose"] []
  | letters (count : Nat) : Phrase [cluster (count + 1) ""] []
  | kind {kind : StructureKind} {name : String} (hname : KindName kind name) :
      Phrase ["--kind", name] [.kind kind]
  | kindAttached {kind : StructureKind} {name : String} (hname : KindName kind name) :
      Phrase ["--kind=" ++ name] [.kind kind]
  | letter (count : Nat) {kind : StructureKind} {name : String} (hname : KindName kind name) :
      Phrase [cluster count "k", name] [.kind kind]
  | letterAttached (count : Nat) {kind : StructureKind} {name : String}
      (hname : KindName kind name) : Phrase [cluster count ("k" ++ name)] [.kind kind]
  | letterEquals (count : Nat) {kind : StructureKind} {name : String}
      (hname : KindName kind name) : Phrase [cluster count ("k=" ++ name)] [.kind kind]
  | input {word : String} (hword : IsOperand word) : Phrase [word] [.input word]

/-- Phrases one behind the other, and then the end of options with at most one input behind it. -/
inductive Line : List String → List Setting → Prop
  | nil : Line [] []
  | phrase {front back : List String} {settings more : List Setting}
      (hphrase : Phrase front settings) (hback : Line back more) :
      Line (front ++ back) (settings ++ more)
  | ended : Line ["--"] []
  | last {word : String} (hword : word ≠ "") : Line ["--", word] [.input word]

/-- A line that sets everything once at most, and an input among it. -/
structure Means (words : List String) (given : List Setting) : Prop where
  line : Line words given
  once : (given.map Setting.slot).Nodup
  exists_input : ∃ word, .input word ∈ given

namespace IsOperand

variable {word : String}

theorem ne_empty (h : IsOperand word) : word ≠ "" := by
  rcases h with rfl | ⟨hword, -⟩
  · decide
  · exact hword

/-- It is no option. -/
theorem plain (h : IsOperand word) (c : Char) (cs : List Char) : word.toList ≠ '-' :: c :: cs := by
  rcases h with rfl | ⟨-, hhead⟩
  · exact nofun
  · intro hword
    rw [hword] at hhead
    exact hhead rfl

theorem of_plain (hword : word ≠ "") (h : ∀ c cs, word.toList ≠ '-' :: c :: cs) :
    IsOperand word := by
  cases hlist : word.toList with
  | nil => exact absurd (String.toList_eq_nil_iff.mp hlist) hword
  | cons c cs =>
    by_cases hc : c = '-'
    · subst hc
      cases cs with
      | nil => exact .inl (String.toList_inj.mp hlist)
      | cons d cs => exact absurd hlist (h d cs)
    · exact .inr ⟨hword, by simpa [hlist] using hc⟩

end IsOperand

theorem switchWord_iff {s : Switch} {word : String} : SwitchWord s word ↔ word = s.word := by
  constructor
  · intro h
    cases h <;> decide
  · rintro rfl
    cases s
    · exact .base64
    · exact .json
    · exact .strict
    · exact .checkAclSize

theorem kindName_iff {kind : StructureKind} {name : String} :
    KindName kind name ↔ name = kind.name := by
  constructor
  · intro h
    cases h <;> rfl
  · rintro rfl
    cases kind
    · exact .descriptor
    · exact .acl
    · exact .ace

theorem kindName (kind : StructureKind) : KindName kind kind.name := kindName_iff.mpr rfl

theorem toList_cluster (count : Nat) (rest : String) :
    (cluster count rest).toList = '-' :: (List.replicate count 'v' ++ rest.toList) := by
  simp [cluster]

namespace Progress

variable {p p' q : Progress} {given settings : List Setting} {word : String} {words : List String}
  {r : Request}

/-! ## Phrases are taken -/

/-- A letter for more diagnostics settles what was held back and sets nothing. -/
theorem takeShort_replicate (h : p.Reflects given) (count : Nat) (rest : List Char) :
    ∃ p' : Progress, p'.Reflects given ∧
      p.takeShort (List.replicate count 'v' ++ rest) = p'.takeShort rest := by
  induction count generalizing p with
  | zero => exact ⟨p, h, rfl⟩
  | succ count ih =>
    obtain ⟨q, hsettle, hq⟩ := h
    obtain ⟨p', h', hrest⟩ := ih (hq.verbose (min maxVerbose (q.verbose + 1))).reflects
    have ho : OptionName.ofShort? 'v' = some .verbose := rfl
    refine ⟨p', h', ?_⟩
    rw [List.replicate_succ, List.cons_append, takeShort_cons, ho]
    dsimp only
    rw [hsettle, ok_bind, if_neg (by simp), accept_eq_ok_iff.mpr .verbose, ok_bind, hrest]

theorem take_cluster (h : p.onlyInputs = false) {count : Nat} {rest : String} {c : Char}
    {cs : List Char} (hletters : List.replicate count 'v' ++ rest.toList = c :: cs) (hc : c ≠ '-') :
    p.take (cluster count rest) = p.takeShort (List.replicate count 'v' ++ rest.toList) := by
  have hword : (cluster count rest).toList = '-' :: c :: cs := by rw [toList_cluster, hletters]
  rw [take_short h hc hword, hletters]

/-- The letter for the kind, with its value or without. -/
theorem take_kindLetter (h : p.Reflects given) (count : Nat) {rest : String} {value : List Char}
    (hrest : rest.toList = 'k' :: value) : ∃ q : Progress, q.Settled given ∧
      p.take (cluster count rest) =
        if value = [] then q.accept .kind else q.setKind (attached value) := by
  obtain ⟨p', ⟨q, hsettle, hq⟩, hletters⟩ := takeShort_replicate h count rest.toList
  have hfirst : ∃ c cs, List.replicate count 'v' ++ rest.toList = c :: cs ∧ c ≠ '-' := by
    rw [hrest]
    cases count with
    | zero => exact ⟨'k', value, rfl, by decide⟩
    | succ count => exact ⟨'v', _, rfl, by decide⟩
  obtain ⟨c, cs, hcs, hc⟩ := hfirst
  have ho : OptionName.ofShort? 'k' = some .kind := rfl
  refine ⟨q, hq, ?_⟩
  rw [take_cluster h.onlyInputs_eq hcs hc, hletters, hrest, takeShort_cons, ho]
  dsimp only
  rw [hsettle, ok_bind]
  by_cases hvalue : value = []
  · subst hvalue
    rfl
  · simp [hvalue]

theorem take_name (h : q.onlyInputs = false) (kind : StructureKind) :
    take { q with held := some (.kind none) } kind.name =
      .ok { q with held := some (.kind (some kind.name)) } := by
  have hplain : ∀ c cs, kind.name.toList ≠ '-' :: c :: cs := by
    cases kind <;> exact nofun
  have hmode : Progress.onlyInputs { q with held := some (.kind none) } = false := h
  rw [take_plain hmode hplain, takePlain_eq, if_pos rfl]

/-- A value with a word of its own is held back. -/
theorem take_two (h : q.Settled given) (hnew : .kind ∉ given.map Setting.slot)
    (htake : p.take word = q.accept .kind) (kind : StructureKind) :
    ∃ p', [word, kind.name].foldlM take p = .ok p' ∧ p'.Reflects (given ++ [.kind kind]) := by
  refine ⟨_, ?_, h.held_kind (h.kind_eq_none_iff.mpr hnew) kind⟩
  rw [List.foldlM_cons, htake, accept_eq_ok_iff.mpr .kind, ok_bind, List.foldlM_cons,
    take_name h.onlyInputs_eq, ok_bind]
  rfl

theorem foldlM_take_singleton (h : p.take word = .ok p') : [word].foldlM take p = .ok p' := by
  rw [List.foldlM_cons, h, ok_bind]
  rfl

/-- A value that is attached is settled at once. -/
theorem take_one (h : q.Settled given) (hnew : .kind ∉ given.map Setting.slot)
    {kind : StructureKind} (htake : p.take word = q.setKind kind.name) :
    ∃ p', [word].foldlM take p = .ok p' ∧ p'.Reflects (given ++ [.kind kind]) := by
  have hnone : q.kind = none := h.kind_eq_none_iff.mpr hnew
  have hset : q.setKind kind.name = .ok { q with kind := some kind } :=
    setKind_eq_ok_iff.mpr ⟨hnone, kind, StructureKind.ofName?_name kind, rfl⟩
  exact ⟨_, foldlM_take_singleton (htake.trans hset), (h.kind hnone kind).reflects⟩

/-- The words of a phrase settle what was held back and set what the phrase sets. -/
theorem Reflects.take_phrase (h : p.Reflects given) (hphrase : Phrase words settings)
    (hnew : ∀ setting ∈ settings, setting.slot ∉ given.map Setting.slot) :
    ∃ p', words.foldlM take p = .ok p' ∧ p'.Reflects (given ++ settings) := by
  have hmode := h.onlyInputs_eq
  obtain ⟨q, hsettle, hq⟩ := h
  cases hphrase with
  | @switch s _ hword =>
    obtain rfl := switchWord_iff.mp hword
    have hs : s ∉ q.switches := (hq.switch_not_mem_iff s).mpr (hnew _ List.mem_cons_self)
    refine ⟨_, foldlM_take_singleton ?_, (hq.switch s).reflects⟩
    rw [take_word hmode, hsettle, ok_bind]
    exact accept_eq_ok_iff.mpr (.switch hs)
  | verbose =>
    have hword : "--verbose".toList = '-' :: '-' :: 'v' :: ['e', 'r', 'b', 'o', 's', 'e'] := rfl
    rw [List.append_nil]
    refine ⟨_, foldlM_take_singleton ?_, (hq.verbose (min maxVerbose (q.verbose + 1))).reflects⟩
    rw [take_long hmode hword]
    have ho : OptionName.ofLong? "verbose" = some .verbose := rfl
    refine (takeLong_bare ho p).trans ?_
    rw [hsettle, ok_bind]
    exact accept_eq_ok_iff.mpr .verbose
  | letters count =>
    obtain ⟨p', h', hletters⟩ := takeShort_replicate ⟨q, hsettle, hq⟩ (count + 1) []
    rw [List.append_nil given]
    refine ⟨p', foldlM_take_singleton ?_, h'⟩
    exact (take_cluster hmode rfl (by decide)).trans hletters
  | @kind kind _ hname =>
    obtain rfl := kindName_iff.mp hname
    have hword : "--kind".toList = '-' :: '-' :: 'k' :: ['i', 'n', 'd'] := rfl
    refine take_two hq (hnew _ List.mem_cons_self) ?_ kind
    rw [take_long hmode hword]
    have ho : OptionName.ofLong? "kind" = some .kind := rfl
    refine (takeLong_bare ho p).trans ?_
    rw [hsettle, ok_bind]
  | @kindAttached kind _ hname =>
    obtain rfl := kindName_iff.mp hname
    have hword : ("--kind=" ++ kind.name).toList =
        '-' :: '-' :: 'k' :: (['i', 'n', 'd', '='] ++ kind.name.toList) := by
      cases kind <;> rfl
    have hsplit : splitValue ('k' :: (['i', 'n', 'd', '='] ++ kind.name.toList)) =
        ("kind", some kind.name) := by
      cases kind <;> rfl
    refine take_one hq (hnew _ List.mem_cons_self) ?_
    rw [take_long hmode hword, hsplit, takeLong_value rfl, if_pos rfl, hsettle, ok_bind]
  | @letter count kind _ hname =>
    obtain rfl := kindName_iff.mp hname
    have hrest : "k".toList = ['k'] := rfl
    obtain ⟨q', hq', htake⟩ := take_kindLetter ⟨q, hsettle, hq⟩ count hrest
    exact take_two hq' (hnew _ List.mem_cons_self) htake kind
  | @letterAttached count kind _ hname =>
    obtain rfl := kindName_iff.mp hname
    have hrest : ("k" ++ kind.name).toList = 'k' :: kind.name.toList := by cases kind <;> rfl
    obtain ⟨q', hq', htake⟩ := take_kindLetter ⟨q, hsettle, hq⟩ count hrest
    have hvalue : kind.name.toList ≠ [] ∧ attached kind.name.toList = kind.name := by
      cases kind <;> exact ⟨nofun, rfl⟩
    rw [if_neg hvalue.1, hvalue.2] at htake
    exact take_one hq' (hnew _ List.mem_cons_self) htake
  | @letterEquals count kind _ hname =>
    obtain rfl := kindName_iff.mp hname
    have hrest : ("k=" ++ kind.name).toList = 'k' :: '=' :: kind.name.toList := by
      cases kind <;> rfl
    obtain ⟨q', hq', htake⟩ := take_kindLetter ⟨q, hsettle, hq⟩ count hrest
    have hvalue : attached ('=' :: kind.name.toList) = kind.name := String.ofList_toList
    rw [if_neg nofun, hvalue] at htake
    exact take_one hq' (hnew _ List.mem_cons_self) htake
  | input hword =>
    have hnone : q.input = none := hq.input_eq_none_iff.mpr (hnew _ List.mem_cons_self)
    have hfirst : p.sawInput = false := by
      rw [hq.sawInput_of_settle hsettle, hnone]
      rfl
    refine ⟨_, foldlM_take_singleton ?_, hq.held_input hnone hword.ne_empty⟩
    rw [take_plain hmode hword.plain, takePlain_eq, if_neg (held_ne_of_settle hsettle)]
    exact takeInput_eq_ok_iff.mpr ⟨hfirst, q, hsettle, rfl⟩

/-! ## What is taken are phrases -/

/-- What letters that are taken are, and what they leave behind. -/
inductive Letters (given : List Setting) : List Char → Progress → Prop
  | verbose (count : Nat) {p : Progress} (h : p.Reflects given) :
      Letters given (List.replicate count 'v') p
  | bare (count : Nat) {q : Progress} (hq : q.Settled given) :
      Letters given (List.replicate count 'v' ++ ['k']) { q with held := some (.kind none) }
  | attached (count : Nat) {value : List Char} {kind : StructureKind} {p : Progress}
      (hvalue : Progress.attached value = kind.name) (hnew : .kind ∉ given.map Setting.slot)
      (h : p.Reflects (given ++ [.kind kind])) :
      Letters given (List.replicate count 'v' ++ 'k' :: value) p

theorem Letters.cons {cs : List Char} (h : Letters given cs p) : Letters given ('v' :: cs) p := by
  cases h with
  | verbose count h => exact .verbose (count + 1) h
  | bare count hq => exact .bare (count + 1) hq
  | attached count hvalue hnew h => exact .attached (count + 1) hvalue hnew h

theorem name_of_ofName? {text : String} {kind : StructureKind}
    (h : StructureKind.ofName? text = some kind) : text = kind.name := by
  have hname := List.find?_some h
  exact (of_decide_eq_true hname).symm

/-- The kind has not been set before. -/
theorem Settled.of_setKind (h : q.Settled given) {value : String}
    (hset : q.setKind value = .ok p') : ∃ kind : StructureKind, value = kind.name ∧
      .kind ∉ given.map Setting.slot ∧ p'.Reflects (given ++ [.kind kind]) := by
  obtain ⟨hnone, kind, hkind, rfl⟩ := setKind_eq_ok_iff.mp hset
  exact ⟨kind, name_of_ofName? hkind, h.kind_eq_none_iff.mp hnone, (h.kind hnone kind).reflects⟩

theorem letters_of_takeShort {cs : List Char} (h : p.Reflects given)
    (htake : p.takeShort cs = .ok p') : Letters given cs p' := by
  induction cs generalizing p with
  | nil =>
    cases htake
    exact .verbose 0 h
  | cons c rest ih =>
    obtain ⟨q, hsettle, hq⟩ := h
    rw [takeShort_cons] at htake
    cases ho : OptionName.ofShort? c with
    | none =>
      rw [ho] at htake
      cases htake
    | some o =>
      have hletter : o = .kind ∧ c = 'k' ∨ o = .verbose ∧ c = 'v' ∨ o = .help ∨ o = .version := by
        unfold OptionName.ofShort? at ho
        split_ifs at ho <;> cases ho <;> simp_all
      simp only [ho, hsettle, ok_bind] at htake
      rcases hletter with ⟨rfl, rfl⟩ | ⟨rfl, rfl⟩ | rfl | rfl
      · by_cases hrest : rest = []
        · subst hrest
          cases htake
          exact .bare 0 hq
        · rw [if_pos ⟨rfl, hrest⟩] at htake
          obtain ⟨kind, hvalue, hnew, h'⟩ := hq.of_setKind htake
          exact .attached 0 hvalue hnew h'
      · rw [if_neg (by simp), accept_eq_ok_iff.mpr .verbose, ok_bind] at htake
        exact (ih (hq.verbose _).reflects htake).cons
      · cases htake
      · cases htake

/-- What a word that is taken is, and what it leaves behind: a phrase, or the option for the kind
without its value. -/
inductive Reads (given : List Setting) (word : String) : Progress → Prop
  | phrase {settings : List Setting} {p : Progress} (hphrase : Phrase [word] settings)
      (honce : ((given ++ settings).map Setting.slot).Nodup)
      (h : p.Reflects (given ++ settings)) : Reads given word p
  | awaiting {q : Progress}
      (hphrase : ∀ kind : StructureKind, Phrase [word, kind.name] [.kind kind])
      (hq : q.Settled given) : Reads given word { q with held := some (.kind none) }

theorem Letters.reads (honce : (given.map Setting.slot).Nodup) {c : Char} {cs : List Char}
    (hword : word.toList = '-' :: c :: cs) (h : Letters given (c :: cs) p) :
    Reads given word p := by
  have hcluster : ∀ count rest, c :: cs = List.replicate count 'v' ++ rest.toList →
      word = cluster count rest := by
    intro count rest hletters
    rw [← String.toList_inj, hword, toList_cluster, hletters]
  generalize hletters : c :: cs = letters at h
  cases h with
  | verbose count h =>
    cases count with
    | zero => cases hletters
    | succ count =>
      rw [hcluster (count + 1) "" (by simpa using hletters)]
      rw [← List.append_nil given] at h honce
      exact .phrase (.letters count) honce h
  | bare count hq =>
    rw [hcluster count "k" hletters]
    exact .awaiting (fun kind => .letter count (kindName kind)) hq
  | @attached count value kind _ hvalue hnew h =>
    have honce' := Setting.once_concat honce (.kind kind) hnew
    by_cases hequals : ∃ rest, value = '=' :: rest
    · obtain ⟨rest, rfl⟩ := hequals
      have hname : kind.name = String.ofList rest := hvalue.symm
      rw [hcluster count ("k=" ++ kind.name) (by simpa [hname] using hletters)]
      exact .phrase (.letterEquals count (kindName kind)) honce' h
    · have hname : kind.name = String.ofList value := by
        rw [← hvalue]
        unfold Progress.attached
        split
        · next rest => exact absurd ⟨rest, rfl⟩ hequals
        · rfl
      rw [hcluster count ("k" ++ kind.name) (by simpa [hname] using hletters)]
      exact .phrase (.letterAttached count (kindName kind)) honce' h

/-- The name of an option and its value, as the word has them. -/
theorem eq_append_of_splitValue {cs : List Char} {value : String}
    (h : (splitValue cs).2 = some value) :
    cs = (splitValue cs).1.toList ++ '=' :: value.toList := by
  unfold splitValue at h ⊢
  have hsplit : cs.takeWhile (· ≠ '=') ++ cs.dropWhile (· ≠ '=') = cs :=
    List.takeWhile_append_dropWhile
  cases hrest : cs.dropWhile (· ≠ '=') with
  | nil =>
    simp only [hrest] at h
    cases h
  | cons c rest =>
    have hc : c = '=' := by
      have hhead := List.head?_dropWhile_not (· ≠ '=') cs
      rw [hrest] at hhead
      simpa using hhead
    subst hc
    simp only [hrest, Option.some.injEq] at h ⊢
    rw [← h, String.toList_ofList, String.toList_ofList, ← hrest, hsplit]

theorem reads_of_takeLong (h : p.Reflects given) (honce : (given.map Setting.slot).Nodup)
    {c : Char} {cs : List Char} (hword : word.toList = '-' :: '-' :: c :: cs)
    (htake : p.takeLong (splitValue (c :: cs)).1 (splitValue (c :: cs)).2 = .ok p') :
    Reads given word p' := by
  obtain ⟨q, hsettle, hq⟩ := h
  cases ho : OptionName.ofLong? (splitValue (c :: cs)).1 with
  | none =>
    rw [takeLong_unknown ho] at htake
    cases htake
  | some o =>
    have hlong := long_of_ofLong? ho
    cases hvalue : (splitValue (c :: cs)).2 with
    | some value =>
      rw [hvalue, takeLong_value ho] at htake
      split_ifs at htake with hkind
      rw [hsettle, ok_bind] at htake
      obtain ⟨kind, rfl, hnew, h'⟩ := hq.of_setKind htake
      have hlist := eq_append_of_splitValue hvalue
      rw [← hlong, hkind] at hlist
      have hattached : word = "--kind=" ++ kind.name := by
        rw [← String.toList_inj, hword, hlist, String.toList_append]
        rfl
      rw [hattached]
      exact .phrase (.kindAttached (kindName kind)) (Setting.once_concat honce _ hnew) h'
    | none =>
      have hname : word = "--" ++ o.long := by
        have hlist : o.long.toList = c :: cs := by
          rw [hlong, splitValue_of_none hvalue, String.toList_ofList]
        rw [← String.toList_inj, hword, String.toList_append, hlist]
        rfl
      rw [hvalue, takeLong_bare ho, hsettle, ok_bind] at htake
      cases accept_eq_ok_iff.mp htake with
      | kind =>
        rw [hname]
        exact .awaiting (fun kind => .kind (kindName kind)) hq
      | @switch s hs =>
        have hnew := (hq.switch_not_mem_iff s).mp hs
        rw [hname]
        exact .phrase (.switch (switchWord_iff.mpr rfl)) (Setting.once_concat honce _ hnew)
          (hq.switch s).reflects
      | verbose =>
        rw [hname]
        rw [← List.append_nil given] at honce hq
        exact .phrase .verbose honce (hq.verbose _).reflects

/-- A word other than the end of options. That an input is not empty shows only when it is judged. -/
theorem reads_of_take (h : p.Reflects given) (honce : (given.map Setting.slot).Nodup)
    (htake : p.take word = .ok p') (hword : word ≠ "--")
    (hlater : p'.held ≠ some (.kind none) → ∃ q, p'.settle = .ok q) : Reads given word p' := by
  have hmode := h.onlyInputs_eq
  cases shape word with
  | separator hlist => exact absurd (String.toList_inj.mp hlist) hword
  | long hlist =>
    rw [take_long hmode hlist] at htake
    exact reads_of_takeLong h honce hlist htake
  | short hc hlist =>
    rw [take_short hmode hc hlist] at htake
    exact (letters_of_takeShort h htake).reads honce hlist
  | plain hplain =>
    obtain ⟨q, hsettle, hq⟩ := h
    rw [take_plain hmode hplain, takePlain_eq, if_neg (held_ne_of_settle hsettle)] at htake
    obtain ⟨hfirst, q', hsettle', rfl⟩ := takeInput_eq_ok_iff.mp htake
    cases hsettle.symm.trans hsettle'
    have hnone : q.input = none := hq.input_eq_none_of_settle hsettle hfirst
    have hne : word ≠ "" := by
      obtain ⟨q'', hjudged⟩ := hlater nofun
      cases settle_eq_ok_iff.mp hjudged with
      | free hheld => cases hheld
      | kind hheld => cases hheld
      | input hheld hne =>
        cases hheld
        exact hne
    exact .phrase (.input (.of_plain hne hplain))
      (Setting.once_concat honce _ (hq.input_eq_none_iff.mp hnone)) (hq.held_input hnone hne)

/-! ## Lines to their end -/

/-- From here the words lead to this request. -/
def Ends (p : Progress) (words : List String) (r : Request) : Prop :=
  words.foldlM take p >>= finish = .ok r

theorem ends_append {front back : List String} (h : front.foldlM take p = .ok p') :
    p.Ends (front ++ back) r ↔ p'.Ends back r := by
  rw [Ends, List.foldlM_append, h, ok_bind]
  rfl

theorem ends_cons : p.Ends (word :: words) r ↔ ∃ p', p.take word = .ok p' ∧ p'.Ends words r := by
  rw [Ends, List.foldlM_cons, bind_assoc, bind_eq_ok_iff]
  rfl

/-- A word settles what is held back, unless it ends the options or is an awaited value. -/
theorem settle_or_eq_of_take (h : p.take word = .ok p') : (∃ q, p.settle = .ok q) ∨
    p' = p.ended ∨
      p.held = some (.kind none) ∧ p' = { p with held := some (.kind (some word)) } := by
  have hinput : p.takeInput word = .ok p' → ∃ q, p.settle = .ok q := by
    intro h
    obtain ⟨-, q, hsettle, -⟩ := takeInput_eq_ok_iff.mp h
    exact ⟨q, hsettle⟩
  have hbind : ∀ next : Progress → Except Stop Progress, p.settle >>= next = .ok p' →
      ∃ q, p.settle = .ok q := by
    intro next h
    obtain ⟨q, hsettle, -⟩ := bind_eq_ok_iff.mp h
    exact ⟨q, hsettle⟩
  rcases Bool.eq_false_or_eq_true p.onlyInputs with hmode | hmode
  · rw [take_of_onlyInputs hmode] at h
    exact .inl (hinput h)
  · cases shape word with
    | separator hlist =>
      rw [take_separator hmode hlist] at h
      cases h
      exact .inr (.inl rfl)
    | @long c cs hlist =>
      rw [take_long hmode hlist] at h
      cases ho : OptionName.ofLong? (splitValue (c :: cs)).1 with
      | none =>
        rw [takeLong_unknown ho] at h
        cases h
      | some o =>
        cases hvalue : (splitValue (c :: cs)).2 with
        | none =>
          rw [hvalue, takeLong_bare ho] at h
          exact .inl (hbind _ h)
        | some value =>
          rw [hvalue, takeLong_value ho] at h
          split_ifs at h
          exact .inl (hbind _ h)
    | @short c cs hc hlist =>
      rw [take_short hmode hc hlist, takeShort_cons] at h
      cases ho : OptionName.ofShort? c with
      | none =>
        rw [ho] at h
        cases h
      | some o =>
        rw [ho] at h
        exact .inl (hbind _ h)
    | plain hplain =>
      rw [take_plain hmode hplain, takePlain_eq] at h
      split_ifs at h with hheld
      · cases h
        exact .inr (.inr ⟨hheld, rfl⟩)
      · exact .inl (hinput h)

/-- On the way to a request everything that is held back is judged, an option that awaits its value
apart. -/
theorem exists_settle_of_ends (h : p.Ends words r) (hheld : p.held ≠ some (.kind none)) :
    ∃ q, p.settle = .ok q := by
  induction words generalizing p with
  | nil =>
    obtain ⟨q, input, hsettle, -⟩ := finish_eq_ok_iff.mp h
    exact ⟨q, hsettle⟩
  | cons word words ih =>
    obtain ⟨p₁, htake, hends⟩ := ends_cons.mp h
    rcases settle_or_eq_of_take htake with hsettle | rfl | ⟨hawaits, -⟩
    · exact hsettle
    · obtain ⟨q, hsettle⟩ := ih hends hheld
      rw [apart_ended.settle] at hsettle
      obtain ⟨q₀, hsettle₀, -⟩ := exceptMap_eq_ok_iff.mp hsettle
      exact ⟨q₀, hsettle₀⟩
    · exact absurd hawaits hheld

/-- The words are a line, and with what was set before, the request is for what it sets. -/
def Explains (given : List Setting) (words : List String) (r : Request) : Prop :=
  ∃ more, Line words more ∧ ((given ++ more).map Setting.slot).Nodup ∧ Asks r (given ++ more)

theorem Explains.phrase (hphrase : Phrase words settings) {back : List String}
    (h : Explains (given ++ settings) back r) : Explains given (words ++ back) r := by
  obtain ⟨more, hline, honce, hasks⟩ := h
  rw [List.append_assoc] at honce hasks
  exact ⟨settings ++ more, .phrase hphrase hline, honce, hasks⟩

theorem explains_nil (h : p.Reflects given) (honce : (given.map Setting.slot).Nodup)
    (hends : p.Ends [] r) : Explains given [] r := by
  obtain ⟨q, hsettle, hq⟩ := h
  obtain ⟨q', input, hsettle', hinput, rfl⟩ := finish_eq_ok_iff.mp hends
  cases hsettle.symm.trans hsettle'
  rw [← List.append_nil given] at honce hq
  exact ⟨[], .nil, honce, hq.asks hinput⟩

theorem explains_of_ended (h : p.Reflects given) (honce : (given.map Setting.slot).Nodup)
    (hends : p.ended.Ends words r) : Explains given ("--" :: words) r := by
  obtain ⟨q, hsettle, hq⟩ := h
  have hended : p.ended.settle = .ok q.ended := by rw [apart_ended.settle, hsettle, ok_map]
  cases words with
  | nil =>
    obtain ⟨q', input, hsettle', hinput, rfl⟩ := finish_eq_ok_iff.mp hends
    cases hended.symm.trans hsettle'
    rw [← List.append_nil given] at honce hq
    exact ⟨[], .ended, honce, hq.asks hinput⟩
  | cons word words =>
    obtain ⟨p₁, htake, hends⟩ := ends_cons.mp hends
    rw [take_of_onlyInputs rfl] at htake
    obtain ⟨hfirst, q', hsettle', rfl⟩ := takeInput_eq_ok_iff.mp htake
    cases hended.symm.trans hsettle'
    obtain ⟨p₂, hwords, hfinish⟩ := bind_eq_ok_iff.mp hends
    obtain rfl := nil_of_sawInput hwords rfl rfl
    cases hwords
    obtain ⟨q'', input, hjudged, hinput, rfl⟩ := finish_eq_ok_iff.mp hfinish
    have hnone : q.input = none := hq.input_eq_none_of_settle hsettle hfirst
    cases settle_eq_ok_iff.mp hjudged with
    | free hheld => cases hheld
    | kind hheld => cases hheld
    | input hheld hne =>
      cases hheld
      cases hinput
      exact ⟨[.input word], .last hne,
        Setting.once_concat honce _ (hq.input_eq_none_iff.mp hnone), (hq.input hnone word).asks rfl⟩

/-- An option that awaits its value gets it from the next word. -/
theorem awaited_of_ends (h : q.Settled given)
    (hends : Ends { q with held := some (.kind none) } words r) :
    ∃ (kind : StructureKind) (rest : List String) (p : Progress), words = kind.name :: rest ∧
      .kind ∉ given.map Setting.slot ∧ p.Reflects (given ++ [.kind kind]) ∧ p.Ends rest r := by
  have hnever : ∀ {p q : Progress}, p.held = some (.kind none) → p.settle ≠ .ok q :=
    fun hheld hsettle => held_ne_of_settle hsettle hheld
  have hnil : ∀ {p : Progress}, p.held = some (.kind none) → ¬ p.Ends [] r := by
    intro p hheld hends
    obtain ⟨q', input, hsettle, -⟩ := finish_eq_ok_iff.mp hends
    exact hnever hheld hsettle
  cases words with
  | nil => exact absurd hends (hnil rfl)
  | cons word words =>
    obtain ⟨p₁, htake, hends⟩ := ends_cons.mp hends
    rcases settle_or_eq_of_take htake with ⟨q', hsettle⟩ | rfl | ⟨-, rfl⟩
    · exact absurd hsettle (hnever rfl)
    · -- Behind the end of options no value can come any more.
      cases words with
      | nil => exact absurd hends (hnil rfl)
      | cons word words =>
        obtain ⟨p₂, htake, -⟩ := ends_cons.mp hends
        rw [take_of_onlyInputs rfl] at htake
        obtain ⟨-, q', hsettle, -⟩ := takeInput_eq_ok_iff.mp htake
        exact absurd hsettle (hnever rfl)
    · obtain ⟨q', hsettle⟩ := exists_settle_of_ends hends nofun
      cases settle_eq_ok_iff.mp hsettle with
      | free hheld => cases hheld
      | input hheld => cases hheld
      | kind hheld hnone hvalue =>
        cases hheld
        obtain rfl := name_of_ofName? hvalue
        exact ⟨_, words, _, rfl, h.kind_eq_none_iff.mp hnone, h.held_kind hnone _, hends⟩

/-- Words that lead to a request are a line that asks for it. -/
theorem explains_of_ends (h : p.Reflects given) (honce : (given.map Setting.slot).Nodup)
    (hends : p.Ends words r) : Explains given words r := by
  -- On the number of words, since the option for the kind takes two.
  induction hlength : words.length using Nat.strongRecOn generalizing p given words with
  | ind n ih =>
    cases words with
    | nil => exact explains_nil h honce hends
    | cons word words =>
      obtain ⟨p₁, htake, hrest⟩ := ends_cons.mp hends
      by_cases hword : word = "--"
      · subst hword
        rw [take_separator h.onlyInputs_eq rfl] at htake
        cases htake
        exact explains_of_ended h honce hrest
      · rw [List.length_cons] at hlength
        cases reads_of_take h honce htake hword (exists_settle_of_ends hrest) with
        | phrase hphrase honce' h' =>
          exact .phrase hphrase (ih words.length (by omega) h' honce' hrest rfl)
        | awaiting hphrase hq =>
          obtain ⟨kind, rest, p', rfl, hnew, h', hends'⟩ := awaited_of_ends hq hrest
          rw [List.length_cons] at hlength
          have honce' := Setting.once_concat honce (.kind kind) hnew
          exact .phrase (hphrase kind) (ih rest.length (by omega) h' honce' hends' rfl)

theorem ends_nil_of_settle (hsettle : p.settle = .ok q) (hinput : q.input = some word) :
    p.Ends [] ⟨word, q.kind.getD .descriptor, q.switches, q.verbose⟩ :=
  finish_eq_ok_iff.mpr ⟨q, word, hsettle, hinput, rfl⟩

theorem take_dashes (h : p.onlyInputs = false) : p.take "--" = .ok p.ended := take_separator h rfl

/-- A line that sets nothing a second time leads to a request for what it sets. -/
theorem Reflects.take_line {more : List Setting} (h : p.Reflects given) (hline : Line words more)
    (honce : ((given ++ more).map Setting.slot).Nodup)
    (hinput : ∃ word, .input word ∈ given ++ more) :
    ∃ r, p.Ends words r ∧ Asks r (given ++ more) := by
  induction hline generalizing p given with
  | nil =>
    obtain ⟨q, hsettle, hq⟩ := h
    rw [List.append_nil] at hinput ⊢
    obtain ⟨word, hmem⟩ := hinput
    have hword : q.input = some word := (hq.input_iff word).mpr hmem
    exact ⟨_, ends_nil_of_settle hsettle hword, hq.asks hword⟩
  | @phrase front back settings more hphrase _ ih =>
    have hnew : ∀ setting ∈ settings, setting.slot ∉ given.map Setting.slot := by
      intro setting hsetting hgiven
      rw [List.map_append, List.map_append] at honce
      exact honce.disjoint hgiven (List.mem_append_left _ (List.mem_map_of_mem hsetting))
    obtain ⟨p', hfront, h'⟩ := h.take_phrase hphrase hnew
    rw [← List.append_assoc] at honce hinput ⊢
    obtain ⟨r, hends, hasks⟩ := ih h' honce hinput
    exact ⟨r, (ends_append hfront).mpr hends, hasks⟩
  | ended =>
    have hmode := h.onlyInputs_eq
    obtain ⟨q, hsettle, hq⟩ := h
    rw [List.append_nil] at hinput ⊢
    obtain ⟨word, hmem⟩ := hinput
    have hword : q.input = some word := (hq.input_iff word).mpr hmem
    have hended : p.ended.settle = .ok q.ended := by rw [apart_ended.settle, hsettle, ok_map]
    exact ⟨_, ends_cons.mpr ⟨_, take_dashes hmode, ends_nil_of_settle hended hword⟩, hq.asks hword⟩
  | @last word hword =>
    have hmode := h.onlyInputs_eq
    obtain ⟨q, hsettle, hq⟩ := h
    have hnew : Slot.input ∉ given.map Setting.slot := by
      intro hgiven
      rw [List.map_append] at honce
      exact honce.disjoint hgiven List.mem_cons_self
    have hnone : q.input = none := hq.input_eq_none_iff.mpr hnew
    have hfirst : p.sawInput = false := by
      rw [hq.sawInput_of_settle hsettle, hnone]
      rfl
    have hended : p.ended.settle = .ok q.ended := by rw [apart_ended.settle, hsettle, ok_map]
    have htake : p.ended.take word =
        .ok { q.ended with held := some (.input word), sawInput := true } :=
      (take_of_onlyInputs rfl word).trans (takeInput_eq_ok_iff.mpr ⟨hfirst, _, hended, rfl⟩)
    refine ⟨_, ends_cons.mpr ⟨_, take_dashes hmode, ends_cons.mpr ⟨_, htake,
      ends_nil_of_settle (settle_eq_ok_iff.mpr (.input rfl hword)) rfl⟩⟩, ?_⟩
    exact (hq.input hnone word).asks rfl

theorem reflects_nothing : Reflects {} [] := by
  have hsettled : Settled {} [] := by
    refine ⟨rfl, rfl, rfl, ?_, ?_, ?_⟩ <;> simp
  exact hsettled.reflects

end Progress

/-! ## Requests -/

variable {words : List String} {given : List Setting} {r : Request}

theorem Means.exists_request (h : Means words given) :
    ∃ r, Request.ofArguments words = .ok r ∧ Asks r given :=
  Progress.reflects_nothing.take_line h.line h.once h.exists_input

theorem Means.asks (h : Means words given) (hwords : Request.ofArguments words = .ok r) :
    Asks r given := by
  obtain ⟨r', hwords', hasks⟩ := h.exists_request
  cases hwords.symm.trans hwords'
  exact hasks

theorem exists_means (h : Request.ofArguments words = .ok r) : ∃ given, Means words given := by
  obtain ⟨given, hline, honce, hasks⟩ :=
    Progress.explains_of_ends Progress.reflects_nothing List.nodup_nil h
  exact ⟨given, hline, honce, r.input, hasks.input_mem⟩

end Command
end AccessControl
