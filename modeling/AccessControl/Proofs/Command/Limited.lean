import AccessControl.Proofs.Command.Encoded
import AccessControl.Proofs.Report.Writes

/-!
# Output that fails

A report is written in many small writes, and an output may take only a portion of each. When its
room ends, the write at hand fails and nothing more is written, so what has been taken is a prefix
of the report, however it was cut into writes and the writes into portions.
-/

namespace AccessControl
namespace Command

variable {around : Surroundings} {r : Request}

/-! ## Portions -/

namespace Sink

variable {sink after : Sink} {bytes : List UInt8} {room : Nat}

/-- The sink takes all of this at once and is then another one. -/
inductive Accepts : Sink → List UInt8 → Sink → Prop
  | unlimited (portion : List UInt8) : Accepts .unlimited portion .unlimited
  | limited {room : Nat} {portion : List UInt8} (reason : String)
      (hroom : portion.length ≤ room) :
      Accepts (.limited room reason) portion (.limited (room - portion.length) reason)

/-- Bytes are written in portions, of at least one byte each, until none are left or the sink has
no room for another one. The result is what was taken, the sink behind it and its failure. -/
inductive Takes : Sink → List UInt8 → List UInt8 × Sink × Option String → Prop
  | done (sink : Sink) : Takes sink [] ([], sink, none)
  | full {bytes : List UInt8} (reason : String) (hbytes : bytes ≠ []) :
      Takes (.limited 0 reason) bytes ([], .limited 0 reason, some reason)
  | portion {sink after : Sink} {portion bytes taken : List UInt8} {ending : Sink × Option String}
      (hportion : portion ≠ []) (haccepts : sink.Accepts portion after)
      (hrest : Takes after bytes (taken, ending)) :
      Takes sink (portion ++ bytes) (portion ++ taken, ending)

@[simp] theorem write_nil (sink : Sink) : sink.write [] = ([], sink, none) := by
  cases sink <;> rfl

theorem write_of_le (reason : String) (h : bytes.length ≤ room) :
    (limited room reason).write bytes = (bytes, limited (room - bytes.length) reason, none) :=
  if_pos h

theorem write_of_lt (reason : String) (h : room < bytes.length) :
    (limited room reason).write bytes = (bytes.take room, limited 0 reason, some reason) :=
  if_neg (Nat.not_le.mpr h)

theorem Accepts.write_eq (h : sink.Accepts bytes after) :
    sink.write bytes = (bytes, after, none) := by
  cases h with
  | unlimited => rfl
  | limited reason hroom => exact write_of_le reason hroom

/-- What is written in two parts: the second one only if the first was taken to its end. -/
theorem write_append (sink : Sink) (front back : List UInt8) :
    sink.write (front ++ back) =
      match sink.write front with
      | (taken, after, some reason) => (taken, after, some reason)
      | (taken, after, none) => (taken ++ (after.write back).1, (after.write back).2) := by
  cases sink with
  | unlimited => rfl
  | limited room reason =>
    have hlength : (front ++ back).length = front.length + back.length := List.length_append
    rcases Nat.lt_or_ge room front.length with hfront | hfront
    · rw [write_of_lt reason hfront, write_of_lt reason (by omega),
        List.take_append_of_le_length (by omega)]
    rw [write_of_le reason hfront]
    dsimp only
    rcases Nat.lt_or_ge (room - front.length) back.length with hback | hback
    · rw [write_of_lt reason hback, write_of_lt reason (by omega), List.take_append,
        List.take_of_length_le hfront]
    · rw [write_of_le reason hback, write_of_le reason (by omega), hlength, Nat.sub_add_eq]

theorem takes_write (sink : Sink) (bytes : List UInt8) : sink.Takes bytes (sink.write bytes) := by
  by_cases hbytes : bytes = []
  · rw [hbytes, write_nil]
    exact .done sink
  have hwhole : ∀ after, sink.Accepts bytes after → sink.Takes bytes (bytes, after, none) := by
    intro after haccepts
    have h := Takes.portion hbytes haccepts (.done after)
    rwa [List.append_nil] at h
  cases sink with
  | unlimited => exact hwhole .unlimited (.unlimited bytes)
  | limited room reason =>
    rcases Nat.lt_or_ge room bytes.length with hroom | hroom
    · rw [write_of_lt reason hroom]
      by_cases hzero : room = 0
      · subst hzero
        exact .full reason hbytes
      -- the portion that fills the room, and a write behind it that fails
      have hrest : bytes.drop room ≠ [] := by
        rw [ne_eq, List.drop_eq_nil_iff]
        omega
      have hportion : bytes.take room ≠ [] := by
        rw [ne_eq, List.take_eq_nil_iff, not_or]
        exact ⟨hzero, hbytes⟩
      have hlength : (bytes.take room).length = room := List.length_take_of_le (by omega)
      have haccepts : (limited room reason).Accepts (bytes.take room) (.limited 0 reason) := by
        have h := Accepts.limited reason (Nat.le_of_eq hlength)
        rwa [hlength, Nat.sub_self] at h
      have h := Takes.portion hportion haccepts (.full reason hrest)
      rwa [List.take_append_drop, List.append_nil] at h
    · rw [write_of_le reason hroom]
      exact hwhole _ (.limited reason hroom)

/-- Whatever the portions, the sink takes what it would take of the whole. -/
theorem takes_iff {result : List UInt8 × Sink × Option String} :
    sink.Takes bytes result ↔ result = sink.write bytes := by
  constructor
  · intro h
    induction h with
    | done sink => rw [write_nil]
    | full reason hbytes =>
      rw [write_of_lt reason (List.length_pos_iff.mpr hbytes), List.take_zero]
    | portion _ haccepts _ ih =>
      rw [write_append, haccepts.write_eq]
      dsimp only
      rw [← ih]
  · rintro rfl
    exact takes_write sink bytes

end Sink

/-! ## Pieces -/

/-- Pieces are written one after the other, each in portions, up to the first that fails. -/
inductive Delivers : Sink → List Piece → List UInt8 × Except Failure Unit → Prop
  | done (sink : Sink) : Delivers sink [] ([], .ok ())
  | stop {sink after : Sink} {piece : Piece} {taken : List UInt8} {reason : String}
      (pieces : List Piece)
      (htakes : sink.Takes (Text.utf8 piece.text) (taken, after, some reason)) :
      Delivers sink (piece :: pieces) (taken, .error (piece.blame reason))
  | next {sink after : Sink} {piece : Piece} {pieces : List Piece} {taken more : List UInt8}
      {result : Except Failure Unit}
      (htakes : sink.Takes (Text.utf8 piece.text) (taken, after, none))
      (hrest : Delivers after pieces (more, result)) :
      Delivers sink (piece :: pieces) (taken ++ more, result)

theorem delivers_deliver (sink : Sink) (pieces : List Piece) :
    Delivers sink pieces (deliver sink pieces) := by
  induction pieces generalizing sink with
  | nil => exact .done sink
  | cons piece pieces ih =>
    have htakes := Sink.takes_write sink (Text.utf8 piece.text)
    rw [deliver]
    generalize sink.write (Text.utf8 piece.text) = result at htakes ⊢
    obtain ⟨taken, after, _ | reason⟩ := result
    · exact .next htakes (ih after)
    · exact .stop pieces htakes

theorem delivers_iff {sink : Sink} {pieces : List Piece}
    {result : List UInt8 × Except Failure Unit} :
    Delivers sink pieces result ↔ result = deliver sink pieces := by
  constructor
  · intro h
    induction h with
    | done sink => rfl
    | stop pieces htakes => rw [deliver, ← Sink.takes_iff.mp htakes]
    | next htakes _ ih =>
      rw [deliver, ← Sink.takes_iff.mp htakes]
      dsimp only
      rw [← ih]
  · rintro rfl
    exact delivers_deliver sink pieces

/-- Pieces with the same blame may as well be one. -/
theorem deliver_join (sink : Sink) (texts : List String) (blame : String → Failure)
    (rest : List Piece) :
    deliver sink (texts.map (⟨·, blame⟩) ++ rest) =
      deliver sink (⟨String.join texts, blame⟩ :: rest) := by
  induction texts generalizing sink with
  | nil =>
    have hempty : Text.utf8 "" = [] := rfl
    simp [deliver, hempty]
  | cons text texts ih =>
    rw [List.map_cons, List.cons_append, deliver, deliver, String.join_cons, Text.utf8_append,
      Sink.write_append]
    obtain ⟨taken, after, _ | reason⟩ := sink.write (Text.utf8 text)
    · dsimp only
      rw [ih after, deliver]
      obtain ⟨more, last, _ | reason⟩ := after.write (Text.utf8 (String.join texts))
      · simp
      · rfl
    · rfl

/-- The text of a structure, in the pieces in which it is written. -/
def Structure.textWrites : Structure → List String
  | descriptor d => d.writes
  | acl l => l.writes "acl"
  | ace e => e.lineWrites 0

theorem Structure.join_textWrites (s : Structure) :
    String.join s.textWrites = textOfLines s.lines := by
  cases s with
  | descriptor d => exact d.join_writes
  | acl l => exact l.join_writes "acl"
  | ace e =>
    rw [textWrites, lines, textOfLines_cons, e.join_lineWrites]
    rfl

/-- A report in the pieces in which it is written. -/
def reportWrites (json : Bool) (s : Structure) : List Piece :=
  if json then (s.toJson.writes 0).map (⟨·, .render⟩) ++ [⟨"\n", .write⟩]
  else s.textWrites.map (⟨·, .write⟩)

theorem deliver_reportWrites (sink : Sink) (json : Bool) (s : Structure) :
    deliver sink (reportWrites json s) = deliver sink (report json s) := by
  unfold reportWrites report
  split_ifs
  · rw [deliver_join, Json.join_writes]
  · have h := deliver_join sink s.textWrites .write []
    rwa [List.append_nil, s.join_textWrites] at h

/-! ## Runs -/

/-- A run that writes its report piece by piece and in portions, with the outcome it comes to. -/
inductive Streams (around : Surroundings) (r : Request) : Outcome → Prop
  | failed {failure : Failure} (hobtain : obtain around r = .error failure) :
      Streams around r (.ofFailure [] failure)
  | written {s : Structure} {written : List UInt8} (hobtain : obtain around r = .ok s)
      (hdelivers : Delivers around.stdout (reportWrites (r.has .json) s) (written, .ok ())) :
      Streams around r ⟨.success, written, ""⟩
  | broken {s : Structure} {written : List UInt8} {failure : Failure}
      (hobtain : obtain around r = .ok s)
      (hdelivers : Delivers around.stdout (reportWrites (r.has .json) s)
        (written, .error failure)) :
      Streams around r (.ofFailure written failure)

theorem streams_execute (around : Surroundings) (r : Request) :
    Streams around r (execute around r) := by
  rw [execute]
  cases hobtain : obtain around r with
  | error failure => exact .failed hobtain
  | ok s =>
    have hdelivers := delivers_deliver around.stdout (reportWrites (r.has .json) s)
    rw [deliver_reportWrites] at hdelivers
    dsimp only
    generalize deliver around.stdout (report (r.has .json) s) = result at hdelivers ⊢
    obtain ⟨written, failure | _⟩ := result
    · exact .broken hobtain hdelivers
    · exact .written hobtain hdelivers

theorem streams_iff {outcome : Outcome} :
    Streams around r outcome ↔ outcome = execute around r := by
  constructor
  · intro h
    cases h with
    | failed hobtain => rw [execute_of_obtain_error hobtain]
    | written hobtain hdelivers =>
      rw [delivers_iff, deliver_reportWrites] at hdelivers
      rw [execute, hobtain]
      dsimp only
      rw [← hdelivers]
    | broken hobtain hdelivers =>
      rw [delivers_iff, deliver_reportWrites] at hdelivers
      rw [execute, hobtain]
      dsimp only
      rw [← hdelivers]
  · rintro rfl
    exact streams_execute around r

theorem deliver_last (room : Nat) (reason text : String) (blame : String → Failure) :
    deliver (.limited room reason) [⟨text, blame⟩] =
      if (Text.utf8 text).length ≤ room then (Text.utf8 text, .ok ())
      else ((Text.utf8 text).take room, .error (blame reason)) := by
  rw [deliver]
  dsimp only
  split_ifs with hroom
  · rw [Sink.write_of_le reason hroom]
    simp [deliver]
  · rw [Sink.write_of_lt reason (Nat.not_le.mp hroom)]

/-- Why a report is not written to its end. The failure is one of JSON as long as more is lost than
the line break behind it. -/
def lossOf (r : Request) (s : Structure) (room : Nat) (reason : String) : Failure :=
  if r.has .json ∧ room + 1 < (rendering r s.lines s.toJson).length then .render reason else .write reason

theorem deliver_limited (r : Request) (s : Structure) (room : Nat) (reason : String) :
    deliver (.limited room reason) (report (r.has .json) s) =
      if (rendering r s.lines s.toJson).length ≤ room then (rendering r s.lines s.toJson, .ok ())
      else ((rendering r s.lines s.toJson).take room, .error (lossOf r s room reason)) := by
  unfold lossOf rendering report
  by_cases hjson : r.has .json = true
  · have hbreak : Text.utf8 "\n" = [0x0A] := rfl
    simp only [hjson, if_true, true_and, Text.utf8_append, List.length_append, hbreak,
      List.length_singleton]
    rw [deliver]
    dsimp only
    generalize Text.utf8 (Json.pretty 0 s.toJson) = json
    rcases Nat.lt_or_ge room json.length with hroom | hroom
    · rw [Sink.write_of_lt reason hroom, if_neg (by omega), if_pos (by omega),
        List.take_append_of_le_length (by omega)]
    · rw [Sink.write_of_le reason hroom]
      dsimp only
      rw [deliver_last, hbreak, List.length_singleton]
      by_cases hall : json.length + 1 ≤ room
      · rw [if_pos (by omega), if_pos hall]
      · rw [if_neg (by omega), if_neg hall, if_neg (by omega), List.take_append,
          List.take_of_length_le hroom]
  · simp only [hjson, Bool.false_eq_true, if_false, false_and]
    exact deliver_last room reason _ .write

theorem execute_of_obtain_limited {s : Structure} {room : Nat} {reason : String}
    (hsink : around.stdout = .limited room reason) (h : obtain around r = .ok s) :
    execute around r =
      if (rendering r s.lines s.toJson).length ≤ room then ⟨.success, rendering r s.lines s.toJson, ""⟩
      else .ofFailure ((rendering r s.lines s.toJson).take room) (lossOf r s room reason) := by
  rw [execute, h, hsink]
  dsimp only
  rw [deliver_limited]
  split_ifs
  · rfl
  · rfl

theorem ofFailure_eq (written : List UInt8) (failure : Failure) :
    Outcome.ofFailure written failure =
      ⟨failure.exitCode, written, diagnostic failure.message⟩ := rfl

theorem ofFailure_write (written : List UInt8) (reason : String) :
    Outcome.ofFailure written (.write reason) =
      ⟨.inputOutput, written, "adsec: failed to write output: " ++ reason ++ "\n"⟩ := by
  have hbegin : "adsec: failed to write output: " = "adsec: " ++ "failed to write output: " := rfl
  have hmessage : (Failure.write reason).message = "failed to write output: " ++ reason := rfl
  rw [ofFailure_eq, diagnostic, hmessage, hbegin, String.append_assoc, String.append_assoc,
    String.append_assoc]
  rfl

theorem ofFailure_render (written : List UInt8) (reason : String) :
    Outcome.ofFailure written (.render reason) =
      ⟨.inputOutput, written, "adsec: failed to render JSON: " ++ reason ++ "\n"⟩ := by
  have hbegin : "adsec: failed to render JSON: " = "adsec: " ++ "failed to render JSON: " := rfl
  have hmessage : (Failure.render reason).message = "failed to render JSON: " ++ reason := rfl
  rw [ofFailure_eq, diagnostic, hmessage, hbegin, String.append_assoc, String.append_assoc,
    String.append_assoc]
  rfl

theorem exitCode_value_ne_zero (failure : Failure) : failure.exitCode.value ≠ 0 := by
  cases failure <;> exact nofun

/-- The diagnostics about a report that is not written to its end. -/
theorem ofFailure_lossOf (written : List UInt8) (r : Request) (s : Structure) (room : Nat)
    (reason : String) :
    let outcome := Outcome.ofFailure written (lossOf r s room reason)
    outcome.code.value = 2 ∧ outcome.stdout = written ∧
      (r.has .json = false →
        outcome.stderr = "adsec: failed to write output: " ++ reason ++ "\n") ∧
      (r.has .json = true → room < (rendering r s.lines s.toJson).length - 1 →
        outcome.stderr = "adsec: failed to render JSON: " ++ reason ++ "\n") ∧
      (r.has .json = true → room = (rendering r s.lines s.toJson).length - 1 →
        outcome.stderr = "adsec: failed to write output: " ++ reason ++ "\n") := by
  intro outcome
  have hwrite : ¬ (r.has .json = true ∧ room + 1 < (rendering r s.lines s.toJson).length) →
      outcome.stderr = "adsec: failed to write output: " ++ reason ++ "\n" := by
    intro hloss
    simp only [outcome, lossOf, if_neg hloss, ofFailure_write]
  refine ⟨?_, rfl, ?_, ?_, ?_⟩
  · unfold outcome lossOf
    split_ifs
    · rfl
    · rfl
  · intro hjson
    exact hwrite (by simp [hjson])
  · intro hjson hmore
    have hloss : r.has .json = true ∧ room + 1 < (rendering r s.lines s.toJson).length := ⟨hjson, by omega⟩
    simp only [outcome, lossOf, if_pos hloss, ofFailure_render]
  · intro hjson hbreak
    exact hwrite (by rintro ⟨-, hmore⟩; omega)

/-- These surroundings with another output. -/
def Surroundings.writingTo (around : Surroundings) (sink : Sink) : Surroundings :=
  { around with stdout := sink }

/-- What is obtained does not depend on the output. -/
theorem obtain_writingTo (around : Surroundings) (sink : Sink) (r : Request) :
    obtain (around.writingTo sink) r = obtain around r := rfl

/-- A run whose arguments ask for a structure, with an output that has limited room, beside the run
with one that takes everything. When that one succeeds, the other one does as well if there is room
for the whole report; else it writes as much of the report as there is room for, and fails. It
blames the JSON unless nothing but the line break behind it is lost. When that one fails, they end
alike. However the report is cut into portions on its way out, the outcome is the same. -/
theorem run_with_room {words : List String} (hwords : Request.ofArguments words.tail = .ok r)
    (around : Surroundings) (room : Nat) (reason : String) :
    let whole := run (around.writingTo .unlimited) words
    let outcome := run (around.writingTo (.limited room reason)) words
    (∀ s : Switch, r.has s = true ↔ s.word ∈ words.tail.takeWhile (· ≠ "--")) ∧
      (whole.code.value = 0 → whole.stdout.length ≤ room →
        outcome.code.value = 0 ∧ outcome.stdout = whole.stdout ∧ outcome.stderr = "") ∧
      (whole.code.value = 0 → room < whole.stdout.length →
        outcome.code.value = 2 ∧ outcome.stdout = whole.stdout.take room ∧
          (r.has .json = false →
            outcome.stderr = "adsec: failed to write output: " ++ reason ++ "\n") ∧
          (r.has .json = true → room < whole.stdout.length - 1 →
            outcome.stderr = "adsec: failed to render JSON: " ++ reason ++ "\n") ∧
          (r.has .json = true → room = whole.stdout.length - 1 →
            outcome.stderr = "adsec: failed to write output: " ++ reason ++ "\n")) ∧
      (whole.code.value ≠ 0 → outcome = whole) ∧
      ∀ sink ending, Streams (around.writingTo sink) r ending ↔
        ending = run (around.writingTo sink) words := by
  intro whole outcome
  have hrun : ∀ sink, run (around.writingTo sink) words = execute (around.writingTo sink) r := by
    intro sink
    rw [run, hwords]
  have hstreams : ∀ sink ending, Streams (around.writingTo sink) r ending ↔
      ending = run (around.writingTo sink) words := by
    intro sink ending
    rw [hrun sink]
    exact streams_iff
  refine ⟨Request.has_iff hwords, ?_⟩
  cases hobtain : obtain around r with
  | error failure =>
    have hends : ∀ sink, run (around.writingTo sink) words = .ofFailure [] failure := by
      intro sink
      rw [hrun sink, execute_of_obtain_error ((obtain_writingTo around sink r).trans hobtain)]
    have hcode : whole.code.value ≠ 0 := by
      rw [show whole = .ofFailure [] failure from hends .unlimited]
      exact exitCode_value_ne_zero failure
    exact ⟨fun h => absurd h hcode, fun h => absurd h hcode,
      fun _ => (hends _).trans (hends _).symm, hstreams⟩
  | ok s =>
    have hwhole : whole = ⟨.success, rendering r s.lines s.toJson, ""⟩ :=
      (hrun .unlimited).trans (execute_of_obtain rfl hobtain)
    have houtcome : outcome = if (rendering r s.lines s.toJson).length ≤ room then ⟨.success, rendering r s.lines s.toJson, ""⟩
        else .ofFailure ((rendering r s.lines s.toJson).take room) (lossOf r s room reason) :=
      (hrun (.limited room reason)).trans (execute_of_obtain_limited rfl hobtain)
    rw [hwhole]
    refine ⟨?_, ?_, fun h => absurd rfl h, hstreams⟩
    · intro _ hroom
      rw [houtcome, if_pos hroom]
      exact ⟨rfl, rfl, rfl⟩
    · intro _ hroom
      rw [houtcome, if_neg (Nat.not_le.mpr hroom)]
      exact ofFailure_lossOf _ r s room reason

/-- Of the 86 bytes of JSON all but the line break fit, or one less; of text, the first ten. -/
theorem run_with_room_withoutEntries :
    (run (onStdin [2, 0, 8, 0, 0, 0, 0, 0] 85) ["adsec", "--json", "-kacl", "-"]).stderr =
        "adsec: failed to write output: full\n" ∧
      (run (onStdin [2, 0, 8, 0, 0, 0, 0, 0] 84) ["adsec", "--json", "-kacl", "-"]).stderr =
        "adsec: failed to render JSON: full\n" ∧
      (run (onStdin [2, 0, 8, 0, 0, 0, 0, 0] 10) ["adsec", "-kacl", "-"]).stdout =
        Text.utf8 "acl: ACL_R" := by
  have hjson : Request.ofArguments (List.tail ["adsec", "--json", "-kacl", "-"]) =
      .ok ⟨"-", .acl, [.json], 0⟩ := rfl
  have htext : Request.ofArguments (List.tail ["adsec", "-kacl", "-"]) =
      .ok ⟨"-", .acl, [], 0⟩ := rfl
  let around := onStdin [2, 0, 8, 0, 0, 0, 0, 0] 0
  have hlength : (run (around.writingTo .unlimited)
      ["adsec", "--json", "-kacl", "-"]).stdout.length = 86 := by decide +kernel
  have hlines : (run (around.writingTo .unlimited) ["adsec", "-kacl", "-"]).stdout =
      Text.utf8 "acl: ACL_REVISION size=8 entries=0\n" := by decide +kernel
  obtain ⟨-, -, hbreak, -⟩ := run_with_room hjson around 85 "full"
  obtain ⟨-, -, hrender, -⟩ := run_with_room hjson around 84 "full"
  obtain ⟨-, -, hwrite, -⟩ := run_with_room htext around 10 "full"
  refine ⟨?_, ?_, ?_⟩
  · exact (hbreak (by decide +kernel) (by omega)).2.2.2.2 rfl (by omega)
  · exact (hrender (by decide +kernel) (by omega)).2.2.2.1 rfl (by omega)
  · rw [hlines] at hwrite
    exact (hwrite (by decide +kernel) (by decide +kernel)).2.1

end Command
end AccessControl
