import AccessControl.Command.Run
import AccessControl.Proofs.Base64
import AccessControl.Proofs.Command.Grammar

/-!
# Outcomes of a run

Arguments that ask for a structure lead to one of four ends: the input is not read to its end, it
is no base64 although it should be, the bytes hold no such structure, or the structure is written
out. When the output takes everything, the ends have their own exit codes, and only the last one
writes anything there.
-/

namespace AccessControl
namespace Command

variable {around : Surroundings} {r r' : Request} {path : String} {raw bytes : List UInt8}

/-! ## What the ends are -/

/-- The path is read to its end, and this is what it holds. -/
inductive Supplies (around : Surroundings) : String → List UInt8 → Prop
  | stdin (hends : around.stdin.failure = none) : Supplies around "-" around.stdin.bytes
  | file {path : String} {bytes : List UInt8} (hpath : path ≠ "-")
      (hfile : around.file path = .ok bytes) : Supplies around path bytes

/-- The path is not read to its end, whatever was read before, for this reason. -/
inductive Withholds (around : Surroundings) : String → String → Prop
  | stdin {reason : String} (hfails : around.stdin.failure = some reason) :
      Withholds around "-" reason
  | file {path : String} {e : FileError} (hpath : path ≠ "-")
      (hfile : around.file path = .error e) : Withholds around path e.message

/-- What an input has between its blanks. -/
def compact (raw : List UInt8) : List UInt8 := raw.filter fun b => !isAsciiBlank b

/-- The input holds these bytes, either as they are or, apart from blanks, in base64. -/
def Carries (r : Request) (raw bytes : List UInt8) : Prop :=
  if r.has .base64 then compact raw = Base64.encode bytes else raw = bytes

/-- The bytes hold a structure of the kind, which these lines or this JSON show. -/
inductive Shows (options : DecodeOptions) (bytes : List UInt8) :
    StructureKind → List String → Json → Prop
  | descriptor {d : Descriptor} (h : Descriptor.decode options bytes = .ok d) :
      Shows options bytes .descriptor d.lines d.toJson
  | acl {l : Acl} (h : Acl.decode options bytes = .ok l) :
      Shows options bytes .acl (l.lines "acl") l.toJson
  | ace {e : Ace} (h : Ace.decode options bytes = .ok e) :
      Shows options bytes .ace [e.line 0] e.toJson

/-- The bytes hold no structure of the kind, for this reason. -/
inductive Rejects (options : DecodeOptions) (bytes : List UInt8) :
    StructureKind → DecodeError → Prop
  | descriptor {e : DecodeError} (h : Descriptor.decode options bytes = .error e) :
      Rejects options bytes .descriptor e
  | acl {e : DecodeError} (h : Acl.decode options bytes = .error e) :
      Rejects options bytes .acl e
  | ace {e : DecodeError} (h : Ace.decode options bytes = .error e) :
      Rejects options bytes .ace e

/-- The whole of the report. -/
def rendering (r : Request) (lines : List String) (json : Json) : List UInt8 :=
  if r.has .json then Text.utf8 (Json.pretty 0 json ++ "\n")
  else Text.utf8 (textOfLines lines)

/-- What is written about a failure. -/
def diagnostic (message : String) : String := "adsec: " ++ message ++ "\n"

/-- The ends of a run, by what has been read. -/
inductive Concludes (around : Surroundings) (r : Request) : Outcome → Prop
  | unread {reason : String} (hwithheld : Withholds around r.input reason) :
      Concludes around r
        ⟨.inputOutput, [], diagnostic ("failed to read " ++ r.input ++ ": " ++ reason)⟩
  | garbled {raw : List UInt8} {flaw : Base64.Flaw} (hraw : Supplies around r.input raw)
      (hgiven : r.has .base64 = true) (hflaw : Base64.decode (compact raw) = .error flaw) :
      Concludes around r
        ⟨.decoding, [], diagnostic ("invalid base64 input: " ++ flaw.message)⟩
  | rejected {raw bytes : List UInt8} {e : DecodeError} (hraw : Supplies around r.input raw)
      (hcarries : Carries r raw bytes) (hrejects : Rejects r.options bytes r.kind e) :
      Concludes around r ⟨.decoding, [], diagnostic e.message⟩
  | decoded {raw bytes : List UInt8} {lines : List String} {json : Json}
      (hraw : Supplies around r.input raw) (hcarries : Carries r raw bytes)
      (hshows : Shows r.options bytes r.kind lines json) :
      Concludes around r ⟨.success, rendering r lines json, ""⟩

/-! ## Input -/

theorem readInput_eq_ok_iff : readInput around path = .ok raw ↔ Supplies around path raw := by
  unfold readInput
  split_ifs with hpath
  · obtain rfl : path = "-" := hpath
    rw [mapError_eq_ok_iff, Stream.readToEnd]
    constructor
    · intro h
      split at h
      · next hends =>
        cases h
        exact .stdin hends
      · cases h
    · intro h
      cases h with
      | stdin hends => rw [hends]
      | file hpath => exact absurd rfl hpath
  · rw [mapError_eq_ok_iff]
    constructor
    · exact .file hpath
    · intro h
      cases h with
      | stdin => exact absurd rfl hpath
      | file _ hfile => exact hfile

theorem withholds_of_readInput {failure : Failure} (h : readInput around path = .error failure) :
    ∃ reason, Withholds around path reason ∧ failure = .read path reason := by
  unfold readInput at h
  split_ifs at h with hpath
  · obtain rfl : path = "-" := hpath
    obtain ⟨reason, hreason, rfl⟩ := mapError_eq_error_iff.mp h
    unfold Stream.readToEnd at hreason
    split at hreason
    · cases hreason
    · next hfails =>
      cases hreason
      exact ⟨_, .stdin hfails, rfl⟩
  · obtain ⟨e, hfile, rfl⟩ := mapError_eq_error_iff.mp h
    exact ⟨_, .file hpath hfile, rfl⟩

theorem Supplies.unique {raw' : List UInt8} (h : Supplies around path raw)
    (h' : Supplies around path raw') : raw = raw' :=
  Except.ok.inj ((readInput_eq_ok_iff.mpr h).symm.trans (readInput_eq_ok_iff.mpr h'))

theorem Withholds.not_supplies {reason : String} (h : Withholds around path reason) :
    ¬ Supplies around path raw := by
  intro hraw
  cases h with
  | stdin hfails =>
    cases hraw with
    | stdin hends => cases hends.symm.trans hfails
    | file hpath => exact hpath rfl
  | file hpath hfile =>
    cases hraw with
    | stdin => exact hpath rfl
    | file _ hbytes => cases hbytes.symm.trans hfile

/-- The bytes that the structure is decoded from. -/
def payload (r : Request) (raw : List UInt8) : Except Failure (List UInt8) :=
  if r.has .base64 then unwrap raw else .ok raw

theorem payload_eq_ok_iff : payload r raw = .ok bytes ↔ Carries r raw bytes := by
  unfold payload Carries
  split_ifs
  · rw [unwrap, mapError_eq_ok_iff, Base64.decode_eq_ok_iff]
    rfl
  · rw [Except.ok.injEq]

theorem garbled_of_payload {failure : Failure} (h : payload r raw = .error failure) :
    r.has .base64 = true ∧
      ∃ flaw, Base64.decode (compact raw) = .error flaw ∧ failure = .base64 flaw := by
  unfold payload at h
  split_ifs at h with hgiven
  obtain ⟨flaw, hflaw, rfl⟩ := mapError_eq_error_iff.mp h
  exact ⟨hgiven, flaw, hflaw, rfl⟩

theorem Carries.unique {bytes' : List UInt8} (h : Carries r raw bytes)
    (h' : Carries r raw bytes') : bytes = bytes' :=
  Except.ok.inj ((payload_eq_ok_iff.mpr h).symm.trans (payload_eq_ok_iff.mpr h'))

theorem obtain_eq_bind (around : Surroundings) (r : Request) :
    obtain around r = readInput around r.input >>= fun raw => payload r raw >>= fun bytes =>
      (Structure.decode r.kind r.options bytes).mapError .decode := by
  refine bind_congr fun raw => ?_
  unfold payload
  split_ifs <;> rfl

theorem options_congr (hstrict : r'.has .strict = r.has .strict)
    (hsize : r'.has .checkAclSize = r.has .checkAclSize) : r'.options = r.options := by
  rw [Request.options, Request.options, hstrict, hsize]

theorem shows_of_decode {kind : StructureKind} {options : DecodeOptions} {s : Structure}
    (h : Structure.decode kind options bytes = .ok s) :
    Shows options bytes kind s.lines s.toJson := by
  cases kind with
  | descriptor =>
    obtain ⟨d, hdecode, rfl⟩ := exceptMap_eq_ok_iff.mp h
    exact .descriptor hdecode
  | acl =>
    obtain ⟨l, hdecode, rfl⟩ := exceptMap_eq_ok_iff.mp h
    exact .acl hdecode
  | ace =>
    obtain ⟨e, hdecode, rfl⟩ := exceptMap_eq_ok_iff.mp h
    exact .ace hdecode

theorem rejects_of_decode {kind : StructureKind} {options : DecodeOptions} {e : DecodeError}
    (h : Structure.decode kind options bytes = .error e) : Rejects options bytes kind e := by
  cases kind with
  | descriptor => exact .descriptor (exceptMap_eq_error_iff.mp h)
  | acl => exact .acl (exceptMap_eq_error_iff.mp h)
  | ace => exact .ace (exceptMap_eq_error_iff.mp h)

/-- What is shown is not rejected. -/
theorem Shows.not_rejects {kind : StructureKind} {options : DecodeOptions} {lines : List String}
    {json : Json} {e : DecodeError} (h : Shows options bytes kind lines json) :
    ¬ Rejects options bytes kind e := by
  intro hrejects
  cases h with
  | descriptor h =>
    cases hrejects with
    | descriptor h' => cases h.symm.trans h'
  | acl h =>
    cases hrejects with
    | acl h' => cases h.symm.trans h'
  | ace h =>
    cases hrejects with
    | ace h' => cases h.symm.trans h'

/-! ## Output -/

/-- What takes everything takes all pieces, one behind the other. -/
theorem deliver_unlimited (pieces : List Piece) :
    deliver .unlimited pieces = (pieces.flatMap fun piece => Text.utf8 piece.text, .ok ()) := by
  induction pieces with
  | nil => rfl
  | cons piece pieces ih =>
    rw [deliver, Sink.write]
    dsimp only
    rw [ih]
    rfl

theorem deliver_report (r : Request) (s : Structure) :
    deliver .unlimited (report (r.has .json) s) = (rendering r s.lines s.toJson, .ok ()) := by
  rw [deliver_unlimited, report, rendering]
  split_ifs
  · simp
  · simp

/-! ## Ends -/

theorem execute_of_obtain {s : Structure} (hsink : around.stdout = .unlimited)
    (h : obtain around r = .ok s) :
    execute around r = ⟨.success, rendering r s.lines s.toJson, ""⟩ := by
  rw [execute, h, hsink]
  dsimp only
  rw [deliver_report]

theorem execute_of_obtain_error {failure : Failure} (h : obtain around r = .error failure) :
    execute around r = .ofFailure [] failure := by
  rw [execute, h]

theorem execute_concludes (r : Request) (hsink : around.stdout = .unlimited) :
    Concludes around r (execute around r) := by
  cases hobtain : obtain around r with
  | ok s =>
    rw [execute_of_obtain hsink hobtain]
    rw [obtain_eq_bind, bind_eq_ok_iff] at hobtain
    obtain ⟨raw, hraw, hobtain⟩ := hobtain
    obtain ⟨bytes, hbytes, hdecode⟩ := bind_eq_ok_iff.mp hobtain
    exact .decoded (readInput_eq_ok_iff.mp hraw) (payload_eq_ok_iff.mp hbytes)
      (shows_of_decode (mapError_eq_ok_iff.mp hdecode))
  | error failure =>
    rw [execute_of_obtain_error hobtain]
    rw [obtain_eq_bind, bind_eq_error_iff] at hobtain
    rcases hobtain with hunread | ⟨raw, hraw, hobtain⟩
    · obtain ⟨reason, hwithheld, rfl⟩ := withholds_of_readInput hunread
      exact .unread hwithheld
    · have hsupplies := readInput_eq_ok_iff.mp hraw
      rcases bind_eq_error_iff.mp hobtain with hgarbled | ⟨bytes, hbytes, hobtain⟩
      · obtain ⟨hgiven, flaw, hflaw, rfl⟩ := garbled_of_payload hgarbled
        exact .garbled hsupplies hgiven hflaw
      · obtain ⟨e, hfails, rfl⟩ := mapError_eq_error_iff.mp hobtain
        exact .rejected hsupplies (payload_eq_ok_iff.mp hbytes) (rejects_of_decode hfails)

/-! ## Exit codes -/

/-- The input cannot be read to its end. -/
def Unread (around : Surroundings) (r : Request) : Prop := ∀ raw, ¬ Supplies around r.input raw

/-- The input is read, but is no base64 although it should be, or holds no such structure. -/
def Refused (around : Surroundings) (r : Request) : Prop :=
  ∃ raw, Supplies around r.input raw ∧
    (r.has .base64 = true ∧ (∀ bytes, compact raw ≠ Base64.encode bytes) ∨
      ∃ bytes e, Carries r raw bytes ∧ Rejects r.options bytes r.kind e)

/-- The input is read, and holds such a structure. -/
def Decodes (around : Surroundings) (r : Request) : Prop :=
  ∃ raw bytes lines json, Supplies around r.input raw ∧ Carries r raw bytes ∧
    Shows r.options bytes r.kind lines json

theorem Refused.not_unread (h : Refused around r) : ¬ Unread around r := by
  obtain ⟨raw, hraw, -⟩ := h
  exact fun hunread => hunread raw hraw

theorem Decodes.not_unread (h : Decodes around r) : ¬ Unread around r := by
  obtain ⟨raw, -, -, -, hraw, -⟩ := h
  exact fun hunread => hunread raw hraw

theorem Decodes.not_refused (h : Decodes around r) : ¬ Refused around r := by
  obtain ⟨raw, bytes, lines, json, hraw, hcarries, hshows⟩ := h
  rintro ⟨raw', hraw', hrefused⟩
  cases hraw.unique hraw'
  rcases hrefused with ⟨hgiven, hgarbled⟩ | ⟨bytes', e, hcarries', hrejects⟩
  · rw [Carries, if_pos hgiven] at hcarries
    exact hgarbled bytes hcarries
  · cases hcarries.unique hcarries'
    exact hshows.not_rejects hrejects

namespace Concludes

variable {outcome : Outcome}

theorem code_cases (h : Concludes around r outcome) :
    outcome.code.value = 2 ∧ Unread around r ∨ outcome.code.value = 3 ∧ Refused around r ∨
      outcome.code.value = 0 ∧ Decodes around r := by
  cases h with
  | unread hwithheld => exact .inl ⟨rfl, fun _ => hwithheld.not_supplies⟩
  | garbled hraw hgiven hflaw =>
    refine .inr (.inl ⟨rfl, _, hraw, .inl ⟨hgiven, ?_⟩⟩)
    intro bytes hbytes
    cases hflaw.symm.trans (Base64.decode_eq_ok_iff.mpr hbytes)
  | rejected hraw hcarries hrejects =>
    exact .inr (.inl ⟨rfl, _, hraw, .inr ⟨_, _, hcarries, hrejects⟩⟩)
  | decoded hraw hcarries hshows =>
    exact .inr (.inr ⟨rfl, _, _, _, _, hraw, hcarries, hshows⟩)

/-- The ends exclude each other, so each is told by its code. -/
theorem code_iff (h : Concludes around r outcome) :
    (outcome.code.value = 2 ↔ Unread around r) ∧ (outcome.code.value = 3 ↔ Refused around r) ∧
      (outcome.code.value = 0 ↔ Decodes around r) := by
  rcases h.code_cases with ⟨hcode, hunread⟩ | ⟨hcode, hrefused⟩ | ⟨hcode, hdecodes⟩
  · have hrefused : ¬ Refused around r := fun h => h.not_unread hunread
    have hdecodes : ¬ Decodes around r := fun h => h.not_unread hunread
    simp [hcode, hunread, hrefused, hdecodes]
  · have hunread : ¬ Unread around r := hrefused.not_unread
    have hdecodes : ¬ Decodes around r := fun h => h.not_refused hrefused
    simp [hcode, hunread, hrefused, hdecodes]
  · have hunread : ¬ Unread around r := hdecodes.not_unread
    have hrefused : ¬ Refused around r := hdecodes.not_refused
    simp [hcode, hunread, hrefused, hdecodes]

end Concludes

/-! ## JSON -/

/-- What is obtained does not depend on how it is going to be written. -/
theorem obtain_congr (hinput : r'.input = r.input) (hkind : r'.kind = r.kind)
    (hhas : ∀ s : Switch, s ≠ .json → r'.has s = r.has s) : obtain around r' = obtain around r := by
  have hoptions : r'.options = r.options :=
    options_congr (hhas .strict nofun) (hhas .checkAclSize nofun)
  have hpayload : payload r' = payload r := by
    funext raw
    rw [payload, payload, hhas .base64 nofun]
  rw [obtain_eq_bind, obtain_eq_bind, hinput, hkind, hoptions, hpayload]

theorem execute_agree (hsink : around.stdout = .unlimited)
    (h : obtain around r' = obtain around r) :
    (execute around r').code = (execute around r).code ∧
      (execute around r').stderr = (execute around r).stderr := by
  cases hobtain : obtain around r with
  | ok s =>
    rw [execute_of_obtain hsink hobtain, execute_of_obtain hsink (h.trans hobtain)]
    exact ⟨rfl, rfl⟩
  | error failure =>
    rw [execute_of_obtain_error hobtain, execute_of_obtain_error (h.trans hobtain)]
    exact ⟨rfl, rfl⟩

/-- Another word does not decide what comes before the separator. -/
theorem mem_takeWhile_insert {word other : String} {front back : List String}
    (hne : word ≠ other) (hother : other ≠ "--") :
    word ∈ (front ++ other :: back).takeWhile (· ≠ "--") ↔
      word ∈ (front ++ back).takeWhile (· ≠ "--") := by
  induction front with
  | nil => simp [hother, hne]
  | cons first front ih =>
    simp only [List.cons_append, List.takeWhile_cons]
    split_ifs
    · rw [List.mem_cons, List.mem_cons, ih]
    · rfl

/-- The word for JSON, wherever it is added, changes neither the exit code nor the diagnostics. -/
theorem execute_with_json {front back : List String}
    (h : Request.ofArguments (front ++ back) = .ok r)
    (h' : Request.ofArguments (front ++ "--json" :: back) = .ok r')
    (hsink : around.stdout = .unlimited) :
    (execute around r').code = (execute around r).code ∧
      (execute around r').stderr = (execute around r).stderr := by
  have hjson : Switch.word .json = "--json" := by decide
  rw [← hjson] at h'
  obtain ⟨hinput, hkind⟩ := Request.input_and_kind_eq .json h h'
  apply execute_agree hsink
  apply obtain_congr hinput hkind
  intro s hs
  have hne : s.word ≠ Switch.word .json := by
    cases s with
    | json => exact absurd rfl hs
    | _ => decide
  have hother : Switch.word .json ≠ "--" := by decide
  rw [Bool.eq_iff_iff, Request.has_iff h', Request.has_iff h]
  exact mem_takeWhile_insert hne hother

/-- A run whose arguments ask for a structure, with an output that takes everything. The arguments
follow the grammar, and however they are read by it, they ask for the input, the kind and the
switches that they set. The exit code is 2 when the input cannot be read to its end, else 3 when it
should be base64 and is not or holds no structure of the kind under the options, and else 0. Only in
the last case anything is written, the whole report and no diagnostics; else there is a diagnostic
only. Asking for JSON changes nothing but the report. -/
theorem outcome_of_run {words : List String} (hsink : around.stdout = .unlimited)
    (hwords : Request.ofArguments words.tail = .ok r) :
    let given := fun s : Switch => s.word ∈ words.tail.takeWhile (· ≠ "--")
    let outcome := run around words
    (∃ settings, Means words.tail settings) ∧
      (∀ settings, Means words.tail settings → Asks r settings) ∧
      (∀ s, r.has s = true ↔ given s) ∧
      (r.options.sizePolicy = .strict ↔ given .strict) ∧
      (r.options.checkAclSize = true ↔ given .checkAclSize) ∧
      (outcome.code.value = 2 ↔ Unread around r) ∧
      (outcome.code.value = 3 ↔ Refused around r) ∧
      (outcome.code.value = 0 ↔ Decodes around r) ∧
      Concludes around r outcome ∧
      ∀ name front back r', words = name :: (front ++ back) →
        Request.ofArguments (front ++ "--json" :: back) = .ok r' →
        (run around (name :: (front ++ "--json" :: back))).code = outcome.code ∧
          (run around (name :: (front ++ "--json" :: back))).stderr = outcome.stderr := by
  intro given outcome
  have hrun : ∀ words r, Request.ofArguments words.tail = .ok r →
      run around words = execute around r := by
    intro words r hwords
    rw [run, hwords]
  have hgiven : ∀ s, r.has s = true ↔ given s := Request.has_iff hwords
  have hconcludes : Concludes around r outcome := by
    rw [show outcome = execute around r from hrun words r hwords]
    exact execute_concludes r hsink
  obtain ⟨htwo, hthree, hzero⟩ := hconcludes.code_iff
  refine ⟨exists_means hwords, fun _ hmeans => hmeans.asks hwords, hgiven, ?_,
    hgiven .checkAclSize, htwo, hthree, hzero, hconcludes, ?_⟩
  · rw [← hgiven .strict, Request.options]
    split_ifs with hstrict
    · simp [hstrict]
    · simp [hstrict]
  · rintro name front back r' rfl hjson
    rw [show outcome = execute around r from hrun _ r hwords,
      hrun (name :: (front ++ "--json" :: back)) r' hjson]
    exact execute_with_json hwords hjson hsink

/-- A list without entries on the standard input, behind which the reader may fail. -/
def withoutEntries (failure : Option String) : Surroundings where
  stdin := { bytes := [2, 0, 8, 0, 0, 0, 0, 0], failure }

theorem outcome_of_run_withoutEntries :
    Asks ⟨"-", .acl, [.strict], 1⟩ [.switch .strict, .kind .acl, .input "-"] ∧
      (run (withoutEntries none) ["adsec", "--strict", "-vkacl", "-"]).code.value = 0 ∧
      (run (withoutEntries none) ["adsec", "--strict", "--json", "-vkacl", "-"]).stderr = "" ∧
      (run (withoutEntries (some "broken"))
        ["adsec", "--strict", "-vkacl", "-"]).code.value = 2 := by
  have hwords : Request.ofArguments (List.tail ["adsec", "--strict", "-vkacl", "-"]) =
      .ok ⟨"-", .acl, [.strict], 1⟩ := rfl
  have hjson : Request.ofArguments (["--strict"] ++ "--json" :: ["-vkacl", "-"]) =
      .ok ⟨"-", .acl, [.json, .strict], 1⟩ := rfl
  have hsink : ∀ failure, (withoutEntries failure).stdout = .unlimited := fun _ => rfl
  obtain ⟨-, hasks, -, -, -, -, -, hzero, -, hadded⟩ := outcome_of_run (hsink none) hwords
  obtain ⟨-, -, -, -, -, htwo, -⟩ := outcome_of_run (hsink (some "broken")) hwords
  have hline : Line ["--strict", "-vkacl", "-"] [.switch .strict, .kind .acl, .input "-"] :=
    .phrase (.switch .strict) (.phrase (.letterAttached 1 .acl) (.phrase (.input (.inl rfl)) .nil))
  have hmeans : Means ["--strict", "-vkacl", "-"] [.switch .strict, .kind .acl, .input "-"] :=
    ⟨hline, by decide, "-", by decide⟩
  have hcarries : Carries ⟨"-", .acl, [.strict], 1⟩ (withoutEntries none).stdin.bytes
      [2, 0, 8, 0, 0, 0, 0, 0] := by
    simp [Carries, Request.has, withoutEntries]
  have hshows : Shows ⟨.strict, false⟩ [2, 0, 8, 0, 0, 0, 0, 0] .acl
      (Acl.lines "acl" ⟨.standard, 0, 8, 0, []⟩) (Acl.toJson ⟨.standard, 0, 8, 0, []⟩) := .acl rfl
  have hunread : Unread (withoutEntries (some "broken")) ⟨"-", .acl, [.strict], 1⟩ :=
    fun raw => (Withholds.stdin rfl).not_supplies
  refine ⟨hasks _ hmeans, hzero.mpr ⟨_, _, _, _, .stdin rfl, hcarries, hshows⟩, ?_,
    htwo.mpr hunread⟩
  exact (hadded "adsec" ["--strict"] ["-vkacl", "-"] _ rfl hjson).2

end Command
end AccessControl
