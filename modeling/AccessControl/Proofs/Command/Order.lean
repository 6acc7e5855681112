import AccessControl.Proofs.Command.Encoded

/-!
# Arguments in any order

Arguments that set the same things ask for the same, whatever their order, the way the kind is
written and the number of times that more diagnostics are asked for. So a run with them is known
from what they set.
-/

namespace AccessControl
namespace Command

/-! ## Groups -/

def Setting.kind? : Setting → Option StructureKind
  | kind k => some k
  | switch _ | input _ => none

/-- How the kind is written: with two dashes or one, and its value in a word of its own or not. -/
inductive Spelling
  | long
  | longAttached
  | short
  | shortAttached
deriving DecidableEq

def Spelling.words (kind : StructureKind) : Spelling → List String
  | long => ["--kind", kind.name]
  | longAttached => ["--kind=" ++ kind.name]
  | short => ["-k", kind.name]
  | shortAttached => ["-k" ++ kind.name]

/-- Words that belong together. -/
inductive Group
  | switch (s : Switch)
  | kind (spelling : Spelling) (kind : StructureKind)
  | verbose
  | input (word : String)
deriving DecidableEq

namespace Group

def words : Group → List String
  | switch s => [s.word]
  | kind spelling k => spelling.words k
  | verbose => ["-v"]
  | input word => [word]

def settings : Group → List Setting
  | switch s => [.switch s]
  | kind _ k => [.kind k]
  | verbose => []
  | input word => [.input word]

end Group

/-- Everything is set once at most, and the input to this word. -/
structure Orderly (groups : List Group) (word : String) : Prop where
  once : ((groups.flatMap Group.settings).map Setting.slot).Nodup
  input_mem : .input word ∈ groups.flatMap Group.settings
  operand : IsOperand word

/-! ## Requests -/

variable {groups : List Group} {word : String}

theorem Orderly.input_eq (h : Orderly groups word) {other : String}
    (hother : .input other ∈ groups.flatMap Group.settings) : other = word :=
  Setting.input.inj (List.inj_on_of_nodup_map h.once hother h.input_mem rfl)

theorem Orderly.perm {groups' : List Group} (h : Orderly groups word)
    (hperm : (groups'.flatMap Group.settings).Perm (groups.flatMap Group.settings)) :
    Orderly groups' word where
  once := (hperm.map Setting.slot).nodup_iff.mpr h.once
  input_mem := hperm.mem_iff.mpr h.input_mem
  operand := h.operand

theorem Group.phrase (group : Group)
    (h : ∀ word, .input word ∈ group.settings → IsOperand word) :
    Phrase group.words group.settings := by
  cases group with
  | switch s => exact .switch (switchWord_iff.mpr rfl)
  | verbose => exact .letters 0
  | input word => exact .input (h word List.mem_cons_self)
  | kind spelling kind =>
    cases spelling with
    | long => exact .kind (kindName kind)
    | longAttached => exact .kindAttached (kindName kind)
    | short => exact .letter 0 (kindName kind)
    | shortAttached =>
      have hword : "-k" ++ kind.name = cluster 0 ("k" ++ kind.name) := by cases kind <;> rfl
      rw [Group.words, Spelling.words, hword]
      exact .letterAttached 0 (kindName kind)

theorem line_of_groups (h : ∀ word, .input word ∈ groups.flatMap Group.settings → IsOperand word) :
    Line (groups.flatMap Group.words) (groups.flatMap Group.settings) := by
  induction groups with
  | nil => exact .nil
  | cons group groups ih =>
    simp only [List.flatMap_cons, List.mem_append] at h ⊢
    exact .phrase (group.phrase fun word hword => h word (.inl hword))
      (ih fun word hword => h word (.inr hword))

/-- Orderly arguments follow the grammar, and so ask for what they set. -/
theorem Orderly.means (h : Orderly groups word) :
    Means (groups.flatMap Group.words) (groups.flatMap Group.settings) where
  line := by
    apply line_of_groups
    intro other hother
    rw [h.input_eq hother]
    exact h.operand
  once := h.once
  exists_input := ⟨word, h.input_mem⟩

theorem Asks.perm {r : Request} {given given' : List Setting} (h : Asks r given')
    (hperm : given'.Perm given) : Asks r given := by
  obtain ⟨hinput, ⟨kind, hkind, hmem⟩, hhas⟩ := h
  exact ⟨hperm.mem_iff.mp hinput, ⟨kind, hkind, fun k => (hmem k).trans hperm.mem_iff⟩,
    fun s => (hhas s).trans hperm.mem_iff⟩

/-- The kind that is set, or else the usual one. -/
def kindOf (given : List Setting) : StructureKind :=
  (given.findSome? Setting.kind?).getD .descriptor

theorem kindOf_eq {given : List Setting} {kind : Option StructureKind}
    (h : ∀ k, kind = some k ↔ .kind k ∈ given) : kindOf given = kind.getD .descriptor := by
  have hkind : ∀ setting k, Setting.kind? setting = some k ↔ setting = .kind k := by
    intro setting k
    cases setting <;> simp [Setting.kind?]
  rw [kindOf]
  congr 1
  cases hfound : given.findSome? Setting.kind? with
  | some k =>
    obtain ⟨setting, hmem, hsetting⟩ := List.exists_of_findSome?_eq_some hfound
    rw [(hkind setting k).mp hsetting] at hmem
    exact ((h k).mpr hmem).symm
  | none =>
    symm
    rw [Option.eq_none_iff_forall_ne_some]
    intro k hk
    cases List.findSome?_eq_none_iff.mp hfound _ ((h k).mp hk)

/-! ## Runs -/

/-- What is written: the JSON and a line break behind it, or the lines. -/
def shownAs (asJson : Bool) (lines : List String) (json : Json) : List Piece :=
  if asJson then [⟨Json.pretty 0 json, .render⟩, ⟨"\n", .write⟩]
  else [⟨textOfLines lines, .write⟩]

/-- The bytes decoded as the kind says, and what is written of that. -/
def reportOn (kind : StructureKind) (options : DecodeOptions) (asJson : Bool)
    (bytes : List UInt8) : Except Failure (List Piece) :=
  match kind with
  | .descriptor =>
    match Descriptor.decode options bytes with
    | .ok d => .ok (shownAs asJson d.lines d.toJson)
    | .error e => .error (.decode e)
  | .acl =>
    match Acl.decode options bytes with
    | .ok l => .ok (shownAs asJson (l.lines "acl") l.toJson)
    | .error e => .error (.decode e)
  | .ace =>
    match Ace.decode options bytes with
    | .ok e => .ok (shownAs asJson [e.line 0] e.toJson)
    | .error e => .error (.decode e)

theorem reportOn_eq (kind : StructureKind) (options : DecodeOptions) (asJson : Bool)
    (bytes : List UInt8) : reportOn kind options asJson bytes =
      ((Structure.decode kind options bytes).mapError .decode).map (report asJson) := by
  cases kind with
  | descriptor =>
    rw [reportOn, Structure.decode]
    cases Descriptor.decode options bytes <;> rfl
  | acl =>
    rw [reportOn, Structure.decode]
    cases Acl.decode options bytes <;> rfl
  | ace =>
    rw [reportOn, Structure.decode]
    cases Ace.decode options bytes <;> rfl

/-- What comes of reading the input, decoding the bytes that it has or encodes, and reporting what
they hold. -/
def outcomeOf (around : Surroundings) (input : String) (kind : StructureKind)
    (base64 json : Bool) (options : DecodeOptions) : Outcome :=
  let raw : Except Failure (List UInt8) :=
    if input = "-" then around.stdin.readToEnd.mapError (.read input)
    else (around.file input).mapError fun e => .read input e.message
  let bytes := if base64 then
      raw >>= fun text => (Base64.decode (compact text)).mapError .base64
    else raw
  match bytes >>= reportOn kind options json with
  | .error failure => .ofFailure [] failure
  | .ok pieces =>
    match deliver around.stdout pieces with
    | (written, .ok ()) => ⟨.success, written, ""⟩
    | (written, .error failure) => .ofFailure written failure

theorem execute_eq_outcomeOf (around : Surroundings) (r : Request) :
    execute around r =
      outcomeOf around r.input r.kind (r.has .base64) (r.has .json) r.options := by
  have hbytes : ∀ raw : Except Failure (List UInt8), (raw >>= payload r) =
      if r.has .base64 then raw >>= fun text => (Base64.decode (compact text)).mapError .base64
      else raw := by
    intro raw
    unfold payload
    split_ifs
    · rfl
    · exact bind_pure raw
  have hreport : (readInput around r.input >>= payload r) >>=
      reportOn r.kind r.options (r.has .json) = (obtain around r).map (report (r.has .json)) := by
    rw [obtain_eq_bind, ← bind_assoc]
    cases readInput around r.input >>= payload r with
    | error failure => rfl
    | ok bytes => exact reportOn_eq _ _ _ bytes
  rw [hbytes] at hreport
  unfold outcomeOf
  dsimp only
  rw [show (if r.input = "-" then around.stdin.readToEnd.mapError (.read r.input)
    else (around.file r.input).mapError fun e => .read r.input e.message) =
      readInput around r.input from rfl, hreport, execute]
  cases obtain around r <;> rfl

theorem run_of_perm {groups' : List Group} (h : Orderly groups word)
    (hperm : (groups'.flatMap Group.settings).Perm (groups.flatMap Group.settings))
    (around : Surroundings) (name : String) :
    let given := groups.flatMap Group.settings
    run around (name :: groups'.flatMap Group.words) =
      outcomeOf around word (kindOf given) (decide (.switch .base64 ∈ given))
        (decide (.switch .json ∈ given))
        { sizePolicy := if .switch .strict ∈ given then .strict else .trust
          checkAclSize := decide (.switch .checkAclSize ∈ given) } := by
  intro given
  obtain ⟨r, hwords, hasks⟩ := (h.perm hperm).means.exists_request
  obtain ⟨hinput, ⟨kind, hkind, hmem⟩, hhas⟩ := hasks.perm hperm
  have hswitch : ∀ s, r.has s = decide (.switch s ∈ given) := by
    intro s
    rw [Bool.eq_iff_iff, hhas, decide_eq_true_iff]
  rw [run_of_arguments hwords, execute_eq_outcomeOf, h.input_eq hinput, hkind, ← kindOf_eq hmem,
    Request.options, hswitch, hswitch, hswitch, hswitch]
  simp only [decide_eq_true_eq, given]

/-- The outcome of a run with orderly arguments is that of reading the input, taking it for base64,
decoding it under the options and as the kind and writing it as JSON or not, just as these things
are set. So it is the same for all arguments that set the same things: in any order, with any
spelling of the kind, with any number of requests for more diagnostics and under any name of the
program. -/
theorem run_of_groups (h : Orderly groups word) (around : Surroundings) (name : String) :
    let given := groups.flatMap Group.settings
    let outcome := run around (name :: groups.flatMap Group.words)
    outcome = outcomeOf around word (kindOf given) (decide (.switch .base64 ∈ given))
        (decide (.switch .json ∈ given))
        { sizePolicy := if .switch .strict ∈ given then .strict else .trust
          checkAclSize := decide (.switch .checkAclSize ∈ given) } ∧
      ∀ (groups' : List Group) (name' : String), (groups'.flatMap Group.settings).Perm given →
        run around (name' :: groups'.flatMap Group.words) = outcome := by
  intro given outcome
  have houtcome := run_of_perm h (.refl given) around name
  refine ⟨houtcome, fun groups' name' hperm => ?_⟩
  exact (run_of_perm h hperm around name').trans houtcome.symm

theorem run_of_groups_withoutEntries :
    let around := onStdin [2, 0, 8, 0, 0, 0, 0, 0] 100
    run around ["adsec", "-v", "-kacl", "-", "--json", "-v"] =
        outcomeOf around "-" .acl false true {} ∧
      run around ["adsec", "--json", "-", "--kind", "acl"] =
        run around ["adsec", "-v", "-kacl", "-", "--json", "-v"] := by
  intro around
  let groups : List Group :=
    [.verbose, .kind .shortAttached .acl, .input "-", .switch .json, .verbose]
  let others : List Group := [.switch .json, .input "-", .kind .long .acl]
  have hgroups : groups.flatMap Group.words = ["-v", "-kacl", "-", "--json", "-v"] := by decide
  have hothers : others.flatMap Group.words = ["--json", "-", "--kind", "acl"] := by decide
  have horderly : Orderly groups "-" := ⟨by decide, by decide, .inl rfl⟩
  have hperm : (others.flatMap Group.settings).Perm (groups.flatMap Group.settings) := by decide
  obtain ⟨houtcome, hsame⟩ := run_of_groups horderly around "adsec"
  have hother := hsame others "adsec" hperm
  rw [hgroups] at houtcome hother
  rw [hothers] at hother
  exact ⟨houtcome, hother⟩

end Command
end AccessControl
