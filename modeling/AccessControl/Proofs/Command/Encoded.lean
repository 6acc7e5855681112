import AccessControl.Proofs.Command.Given
import AccessControl.Proofs.Command.Outcome

/-!
# Input in base64

Text in base64, with blanks put anywhere into it, stands for the bytes that it encodes: a run that
takes its input for base64 ends on the text as one that does not ends on the bytes. Other text is
refused, however much of it could be decoded.
-/

namespace AccessControl
namespace Command

variable {around around' : Surroundings} {r r' : Request} {bytes symbols text : List UInt8}

/-! ## Blanks -/

/-- Space, tab, line feed, form feed and carriage return. -/
def blanks : List UInt8 := [0x20, 0x09, 0x0A, 0x0C, 0x0D]

/-- The text has these symbols in this order, with blanks anywhere and in any number. -/
inductive Folds : List UInt8 → List UInt8 → Prop
  | nil : Folds [] []
  | symbol {symbols text : List UInt8} (b : UInt8) (h : Folds symbols text) :
      Folds (b :: symbols) (b :: text)
  | blank {symbols text : List UInt8} {b : UInt8} (hblank : b ∈ blanks) (h : Folds symbols text) :
      Folds symbols (b :: text)

theorem isAsciiBlank_iff {b : UInt8} : isAsciiBlank b = true ↔ b ∈ blanks := by
  simp [isAsciiBlank, blanks, or_assoc]

theorem folds_compact (text : List UInt8) : Folds (compact text) text := by
  induction text with
  | nil => exact .nil
  | cons b text ih =>
    by_cases hb : isAsciiBlank b = true
    · rw [compact, List.filter_cons_of_neg (by simpa using hb)]
      exact .blank (isAsciiBlank_iff.mp hb) ih
    · rw [compact, List.filter_cons_of_pos (by simpa using hb)]
      exact .symbol b ih

theorem Folds.compact_eq (h : Folds symbols text) : compact text = compact symbols := by
  induction h with
  | nil => rfl
  | symbol b _ ih =>
    unfold compact at ih ⊢
    rw [List.filter_cons, List.filter_cons, ih]
  | blank hblank _ ih =>
    have hb := isAsciiBlank_iff.mpr hblank
    rw [← ih, compact, List.filter_cons_of_neg (by simpa using hb), compact]

/-- There are no blanks in what is encoded. -/
theorem compact_encode (bytes : List UInt8) :
    compact (Base64.encode bytes) = Base64.encode bytes := by
  have hsymbols : ∀ v < 64, isAsciiBlank (Base64.symbol v) = false := by decide
  apply List.filter_eq_self.mpr
  intro c hc
  rcases Base64.pad_or_symbol_of_mem_encode bytes c hc with rfl | ⟨v, hv, rfl⟩
  · rfl
  · rw [hsymbols v hv]
    rfl

theorem folds_encode_iff :
    Folds (Base64.encode bytes) text ↔ compact text = Base64.encode bytes := by
  constructor
  · intro h
    rw [h.compact_eq, compact_encode]
  · intro h
    rw [← h]
    exact folds_compact text

/-! ## Runs -/

theorem run_of_arguments {words : List String} (h : Request.ofArguments words = .ok r)
    (name : String) : run around (name :: words) = execute around r := by
  rw [run, List.tail_cons, h]

theorem obtain_of_carries {raw : List UInt8} (hraw : Supplies around r.input raw)
    (hcarries : Carries r raw bytes) :
    obtain around r = (Structure.decode r.kind r.options bytes).mapError .decode := by
  rw [obtain_eq_bind, readInput_eq_ok_iff.mpr hraw, ok_bind, payload_eq_ok_iff.mpr hcarries,
    ok_bind]

theorem execute_of_garbled {raw : List UInt8} (hraw : Supplies around r.input raw)
    (hgiven : r.has .base64 = true) (hgarbled : ∀ bytes, compact raw ≠ Base64.encode bytes) :
    ∃ flaw : Base64.Flaw, execute around r =
      ⟨.decoding, [], diagnostic ("invalid base64 input: " ++ flaw.message)⟩ := by
  cases hdecode : Base64.decode (compact raw) with
  | ok bytes => exact absurd (Base64.decode_eq_ok_iff.mp hdecode) (hgarbled bytes)
  | error flaw =>
    have hpayload : payload r raw = .error (.base64 flaw) := by
      rw [payload, if_pos hgiven, unwrap]
      exact mapError_eq_error_iff.mpr ⟨flaw, hdecode, rfl⟩
    have hobtain : obtain around r = .error (.base64 flaw) := by
      rw [obtain_eq_bind, readInput_eq_ok_iff.mpr hraw, ok_bind, hpayload, error_bind]
    exact ⟨flaw, execute_of_obtain_error hobtain⟩

/-- The same request, except that the second takes its input for base64. Where the input is, and
how much is reported on the way, may differ. -/
structure EncodedTwin (r r' : Request) : Prop where
  plain : r.has .base64 = false
  given : r'.has .base64 = true
  kind_eq : r'.kind = r.kind
  has_eq : ∀ s, s ≠ .base64 → r'.has s = r.has s

theorem EncodedTwin.execute_eq (h : EncodedTwin r r') (hsink : around'.stdout = around.stdout)
    (hbytes : Supplies around r.input bytes) (htext : Supplies around' r'.input text)
    (hfolds : Folds (Base64.encode bytes) text) : execute around' r' = execute around r := by
  have hplain : Carries r bytes bytes := by
    rw [Carries, if_neg (by simp [h.plain])]
  have hencoded : Carries r' text bytes := by
    rw [Carries, if_pos h.given]
    exact folds_encode_iff.mp hfolds
  have hoptions : r'.options = r.options :=
    options_congr (h.has_eq .strict (by decide)) (h.has_eq .checkAclSize (by decide))
  have hobtain : obtain around' r' = obtain around r := by
    rw [obtain_of_carries htext hencoded, obtain_of_carries hbytes hplain, h.kind_eq, hoptions]
  rw [execute, execute, hobtain, hsink, h.has_eq .json (by decide)]

theorem exists_encodedTwin {words : List String} (h : Request.ofArguments words = .ok r)
    (hplain : r.has .base64 = false) :
    ∃ r', Request.ofArguments ("--base64" :: words) = .ok r' ∧ r'.input = r.input ∧
      EncodedTwin r r' := by
  have hword : Switch.word .base64 = "--base64" := by decide
  have habsent : Switch.word .base64 ∉ words.takeWhile (· ≠ "--") := by
    rw [← Request.has_iff h, hplain]
    decide
  refine ⟨r.given .base64, ?_, rfl, hplain, Request.has_given_iff.mpr (.inr rfl), rfl, ?_⟩
  · rw [← hword, Request.ofArguments_word_cons habsent, h]
    rfl
  · intro s hs
    rw [Bool.eq_iff_iff, Request.has_given_iff, or_iff_left hs]

/-- Whatever a line asks for that does not ask for base64, there is a line that also does, and two
such lines lead to the same outcome when the one has an input and the other a text made of its
encoding by blanks: the exit code, the output and the diagnostics are the same, whatever the output
takes. Text that no bytes are encoded as, but for blanks, is refused with nothing written. -/
theorem base64_input_as_raw :
    (∀ words r, Request.ofArguments words = .ok r → r.has .base64 = false →
      ∃ r', Request.ofArguments ("--base64" :: words) = .ok r' ∧ r'.input = r.input ∧
        EncodedTwin r r') ∧
      (∀ words words' r r' around around' name name' bytes text,
        Request.ofArguments words = .ok r → Request.ofArguments words' = .ok r' →
        EncodedTwin r r' → around'.stdout = around.stdout →
        Supplies around r.input bytes → Supplies around' r'.input text →
        Folds (Base64.encode bytes) text →
          run around' (name' :: words') = run around (name :: words)) ∧
      ∀ words r around name text, Request.ofArguments words = .ok r → r.has .base64 = true →
        Supplies around r.input text → (∀ bytes, ¬ Folds (Base64.encode bytes) text) →
          let outcome := run around (name :: words)
          outcome.code.value = 3 ∧ outcome.stdout = [] ∧
            ∃ detail, outcome.stderr = "adsec: invalid base64 input: " ++ detail := by
  refine ⟨fun words r => exists_encodedTwin, ?_, ?_⟩
  · intro words words' r r' around around' name name' bytes text hwords hwords' htwin hsink hbytes
      htext hfolds
    rw [run_of_arguments hwords, run_of_arguments hwords']
    exact htwin.execute_eq hsink hbytes htext hfolds
  · intro words r around name text hwords hgiven htext hother outcome
    have hgarbled : ∀ bytes, compact text ≠ Base64.encode bytes :=
      fun bytes h => hother bytes (folds_encode_iff.mpr h)
    obtain ⟨flaw, hexecute⟩ := execute_of_garbled htext hgiven hgarbled
    rw [show outcome = execute around r from run_of_arguments hwords name, hexecute]
    have hbegin : "adsec: invalid base64 input: " = "adsec: " ++ "invalid base64 input: " := rfl
    refine ⟨rfl, rfl, flaw.message ++ "\n", ?_⟩
    simp only [diagnostic, hbegin, String.append_assoc]

/-- Surroundings with this on the standard input, and room for so much output. -/
def onStdin (bytes : List UInt8) (room : Nat) : Surroundings where
  stdin := { bytes }
  stdout := .limited room "full"

/-- The encoding of a list without entries, folded between its symbols and before its padding. -/
def foldedText : List UInt8 :=
  [0x41, 0x67, 0x0D, 0x0A, 0x20, 0x41, 0x49, 0x41, 0x41, 0x41, 0x41, 0x41, 0x41, 0x41, 0x09, 0x3D,
    0x0C]

theorem base64_input_as_raw_foldedText :
    run (onStdin foldedText 9) ["adsec", "-kacl", "--base64", "-"] =
        run (onStdin [2, 0, 8, 0, 0, 0, 0, 0] 9) ["adsec", "-kacl", "-"] ∧
      (run (onStdin [0x41, 0x67] 9) ["adsec", "--base64", "-"]).code.value = 3 := by
  obtain ⟨-, hsame, hrefused⟩ := base64_input_as_raw
  constructor
  · have htwin : EncodedTwin ⟨"-", .acl, [], 0⟩ ⟨"-", .acl, [.base64], 0⟩ := by
      refine ⟨rfl, rfl, rfl, ?_⟩
      intro s hs
      cases s with
      | base64 => exact absurd rfl hs
      | _ => rfl
    have hfolds : Folds (Base64.encode [2, 0, 8, 0, 0, 0, 0, 0]) foldedText :=
      folds_encode_iff.mpr (by decide)
    exact hsame ["-kacl", "-"] ["-kacl", "--base64", "-"] _ _ _ _ _ _ _ _ rfl rfl htwin rfl
      (.stdin rfl) (.stdin rfl) hfolds
  · have hother : ∀ bytes, ¬ Folds (Base64.encode bytes) [0x41, 0x67] := by
      intro bytes h
      cases Base64.decode_eq_ok_iff.mpr (folds_encode_iff.mp h)
    exact (hrefused ["--base64", "-"] ⟨"-", .descriptor, [.base64], 0⟩ _ _ _ rfl rfl (.stdin rfl)
      hother).1

end Command
end AccessControl
