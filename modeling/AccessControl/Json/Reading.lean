import AccessControl.Json.Number
import AccessControl.Outcome

/-!
# Reading JSON

The pieces from which readers of known shapes are put together. A reader goes through
the bytes of a text once and stops at the first thing wrong, so what lies behind does not
matter. A text can end too early, break the grammar, or be well-formed but other than
wanted.
-/

namespace AccessControl
namespace Json

inductive ReadError
  | endOfText
  | malformed
  | unexpected
deriving DecidableEq

/-! ## White space and words -/

def isBlank (b : UInt8) : Bool := b == 0x20 || b == 0x0A || b == 0x09 || b == 0x0D

def skipBlank (bytes : List UInt8) : List UInt8 := bytes.dropWhile isBlank

theorem length_skipBlank_le (bytes : List UInt8) : (skipBlank bytes).length ≤ bytes.length :=
  (List.dropWhile_suffix isBlank).length_le

/-- The rest after the letters of a word. -/
def readWord : (letters : List UInt8) → List UInt8 → Except ReadError (List UInt8)
  | [], bytes => .ok bytes
  | _ :: _, [] => .error .endOfText
  | letter :: letters, b :: rest => if b = letter then readWord letters rest else .error .malformed

/-- The letters that follow the first one of `null`, `true` and `false`. -/
def lettersAfter? (b : UInt8) : Option (List UInt8) :=
  if b = 0x6E then some [0x75, 0x6C, 0x6C]
  else if b = 0x74 then some [0x72, 0x75, 0x65]
  else if b = 0x66 then some [0x61, 0x6C, 0x73, 0x65]
  else none

/-- One punctuation mark, perhaps after white space. -/
def readMark (mark : UInt8) (bytes : List UInt8) : Except ReadError (List UInt8) :=
  match skipBlank bytes with
  | [] => .error .endOfText
  | b :: rest => if b = mark then .ok rest else .error .malformed

theorem length_readMark_lt {mark : UInt8} {bytes rest : List UInt8}
    (h : readMark mark bytes = .ok rest) : rest.length < bytes.length := by
  have hle := length_skipBlank_le bytes
  unfold readMark at h
  split at h
  · cases h
  · rename_i b more hskip
    rw [hskip, List.length_cons] at hle
    split at h <;> cases h
    omega

theorem length_readWord_le {letters bytes rest : List UInt8}
    (h : readWord letters bytes = .ok rest) : rest.length ≤ bytes.length := by
  fun_induction readWord letters bytes <;> simp_all
  omega

/-! ## Strings -/

def hexValue? (b : UInt8) : Option Nat :=
  if 0x30 ≤ b ∧ b ≤ 0x39 then some (b.toNat - 0x30)
  else if 0x61 ≤ b ∧ b ≤ 0x66 then some (b.toNat - 0x61 + 10)
  else if 0x41 ≤ b ∧ b ≤ 0x46 then some (b.toNat - 0x41 + 10)
  else none

/-- A number of four hexadecimal digits. -/
def unit? (a b c d : UInt8) : Option Nat := do
  let a ← hexValue? a
  let b ← hexValue? b
  let c ← hexValue? c
  let d ← hexValue? d
  return ((a * 16 + b) * 16 + c) * 16 + d

def isLeading (u : Nat) : Bool := 0xD800 ≤ u && u < 0xDC00

def isTrailing (u : Nat) : Bool := 0xDC00 ≤ u && u < 0xE000

/-- What a backslash and one letter stand for. -/
def escaped? (b : UInt8) : Option UInt8 :=
  if b = 0x22 ∨ b = 0x5C ∨ b = 0x2F then some b
  else if b = 0x62 then some 0x08
  else if b = 0x66 then some 0x0C
  else if b = 0x6E then some 0x0A
  else if b = 0x72 then some 0x0D
  else if b = 0x74 then some 0x09
  else none

def prepend (front : List UInt8) (read : List UInt8 × List UInt8) : List UInt8 × List UInt8 :=
  (front ++ read.1, read.2)

def utf8 (codePoint : Nat) : List UInt8 := String.utf8EncodeChar (Char.ofNat codePoint)

/-- The content of a string, from just after its opening quote, and the rest after its
closing one. Code units of a pair have to come together. -/
def readString : List UInt8 → Except ReadError (List UInt8 × List UInt8)
  | [] => .error .endOfText
  | b :: rest =>
    if b = 0x22 then .ok ([], rest)
    else if b < 0x20 then .error .malformed
    else if b ≠ 0x5C then prepend [b] <$> readString rest
    else
      match rest with
      | [] => .error .endOfText
      | letter :: rest =>
        if letter ≠ 0x75 then
          match escaped? letter with
          | some content => prepend [content] <$> readString rest
          | none => .error .malformed
        else
          match rest with
          | h₁ :: h₂ :: h₃ :: h₄ :: rest =>
            match unit? h₁ h₂ h₃ h₄ with
            | none => .error .malformed
            | some u =>
              if isTrailing u then .error .malformed
              else if !isLeading u then prepend (utf8 u) <$> readString rest
              else
                match rest with
                | [] => .error .endOfText
                | [slash] => .error (if slash = 0x5C then .endOfText else .malformed)
                | slash :: letter :: rest =>
                  if slash ≠ 0x5C ∨ letter ≠ 0x75 then .error .malformed
                  else
                    match rest with
                    | h₁ :: h₂ :: h₃ :: h₄ :: rest =>
                      match unit? h₁ h₂ h₃ h₄ with
                      | none => .error .malformed
                      | some v =>
                        if isTrailing v then
                          prepend (utf8 (0x10000 + (u - 0xD800) * 0x400 + (v - 0xDC00))) <$>
                            readString rest
                        else .error .malformed
                    | _ => .error .endOfText
          | _ => .error .endOfText

theorem prepend_eq_ok_iff {front content rest : List UInt8}
    {x : Except ReadError (List UInt8 × List UInt8)} :
    prepend front <$> x = .ok (content, rest) ↔
      ∃ s, x = .ok (s, rest) ∧ front ++ s = content := by
  simp only [map_eq_ok_iff, prepend, Prod.exists, Prod.mk.injEq]
  constructor
  · rintro ⟨s, r, h, hs, rfl⟩
    exact ⟨s, h, hs⟩
  · rintro ⟨s, h, hs⟩
    exact ⟨s, rest, h, hs, rfl⟩

theorem length_readString_lt {bytes content rest : List UInt8}
    (h : readString bytes = .ok (content, rest)) : rest.length < bytes.length := by
  fun_induction readString bytes generalizing content <;> simp_all [prepend_eq_ok_iff]
  all_goals grind

/-! ## Values of another kind -/

/-- What is wrong where a number stands and something else is wanted: the number itself,
if it is cut short, broken or out of range, and that it is there otherwise. -/
def numberFault (phase : NumberPhase) (m : Magnitude) : List UInt8 → ReadError
  | [] =>
    if !phase.isComplete then .endOfText else if m.isFinite then .unexpected else .malformed
  | b :: rest =>
    match phase.step b with
    | .continue next => numberFault next (m.push next b) rest
    | .stop => if m.isFinite then .unexpected else .malformed
    | .wrong => .malformed

/-- What is wrong where a value begins and one of another kind is wanted. -/
def mismatch : List UInt8 → ReadError
  | [] => .endOfText
  | b :: rest =>
    match lettersAfter? b, NumberPhase.first? b with
    | some letters, _ =>
      match readWord letters rest with
      | .ok _ => .unexpected
      | .error e => e
    | none, some phase => numberFault phase (Magnitude.push {} phase b) rest
    | none, none =>
      if b = 0x22 then
        match readString rest with
        | .ok _ => .unexpected
        | .error e => e
      else if b = 0x5B ∨ b = 0x7B then .unexpected
      else .malformed

/-! ## Values that nobody wants -/

inductive Bracket
  | square
  | curly
deriving DecidableEq

def Bracket.closing : Bracket → UInt8
  | .square => 0x5D
  | .curly => 0x7D

/-- What may come next while a value is passed over. A string is the name of a member or
a value. -/
inductive Awaited
  | value
  | first
  | name
  | colon
  | separator
  | string (isName : Bool)
  | escape (isName : Bool)
  | digits (count : Nat) (isName : Bool)
  | letters (rest : List UInt8)
  | number (phase : NumberPhase)

namespace Awaited

/-- What comes after a string. -/
def afterString (isName : Bool) : Awaited := if isName then .colon else .separator

/-- What comes after a comma in the innermost bracket. -/
def afterComma : List Bracket → Awaited
  | .curly :: _ => .name
  | _ => .value

/-- How a value begins, with the brackets that are then open. -/
def start (brackets : List Bracket) (b : UInt8) : Except ReadError (List Bracket × Awaited) :=
  match lettersAfter? b, NumberPhase.first? b with
  | some more, _ => .ok (brackets, .letters more)
  | none, some phase => .ok (brackets, .number phase)
  | none, none =>
    if b = 0x22 then .ok (brackets, .string false)
    else if b = 0x5B then .ok (.square :: brackets, .first)
    else if b = 0x7B then .ok (.curly :: brackets, .first)
    else .error .malformed

/-- A comma or the closing bracket after a value. -/
def close (brackets : List Bracket) (b : UInt8) : Except ReadError (List Bracket × Awaited) :=
  match brackets with
  | [] => .error .malformed
  | bracket :: outer =>
    if b = 0x2C then .ok (brackets, afterComma brackets)
    else if b = bracket.closing then .ok (outer, .separator)
    else .error .malformed

/-- The first item of a bracket, or its end. -/
def open? (brackets : List Bracket) (b : UInt8) : Except ReadError (List Bracket × Awaited) :=
  match brackets with
  | .square :: outer => if b = 0x5D then .ok (outer, .separator) else start brackets b
  | .curly :: outer =>
    if b = 0x7D then .ok (outer, .separator)
    else if b = 0x22 then .ok (brackets, .string true)
    else .error .malformed
  | [] => .error .malformed

/-- One byte further. -/
def step (awaited : Awaited) (brackets : List Bracket) (b : UInt8) :
    Except ReadError (List Bracket × Awaited) :=
  let stay := .ok (brackets, awaited)
  match awaited with
  | .value => if isBlank b then stay else start brackets b
  | .first => if isBlank b then stay else open? brackets b
  | .name =>
    if isBlank b then stay
    else if b = 0x22 then .ok (brackets, .string true)
    else .error .malformed
  | .colon =>
    if isBlank b then stay else if b = 0x3A then .ok (brackets, .value) else .error .malformed
  | .separator => if isBlank b then stay else close brackets b
  | .string isName =>
    if b = 0x22 then .ok (brackets, afterString isName)
    else if b = 0x5C then .ok (brackets, .escape isName)
    else if b < 0x20 then .error .malformed
    else stay
  | .escape isName =>
    if b = 0x75 then .ok (brackets, .digits 4 isName)
    else if (escaped? b).isSome then .ok (brackets, .string isName)
    else .error .malformed
  | .digits count isName =>
    if (hexValue? b).isNone then .error .malformed
    else if count ≤ 1 then .ok (brackets, .string isName)
    else .ok (brackets, .digits (count - 1) isName)
  | .letters rest =>
    match rest with
    | [letter] => if b = letter then .ok (brackets, .separator) else .error .malformed
    | letter :: more => if b = letter then .ok (brackets, .letters more) else .error .malformed
    | [] => close brackets b
  | .number phase =>
    match phase.step b with
    | .continue next => .ok (brackets, .number next)
    | .stop => if isBlank b then .ok (brackets, .separator) else close brackets b
    | .wrong => .error .malformed

end Awaited

/-- Passes over what is awaited. Outside of brackets the value ends where a separator
would be awaited, and a number where it cannot go on. Four digits have to be there before
any of them is judged. -/
def skip (brackets : List Bracket) (awaited : Awaited) :
    List UInt8 → Except ReadError (List UInt8)
  | [] =>
    match awaited, brackets with
    | .separator, [] => .ok []
    | .number phase, [] => if phase.isComplete then .ok [] else .error .malformed
    | .number phase, _ :: _ => if phase.isComplete then .error .endOfText else .error .malformed
    | _, _ => .error .endOfText
  | b :: rest =>
    match awaited, brackets with
    | .separator, [] => .ok (b :: rest)
    | .number phase, [] =>
      match phase.step b with
      | .continue next => skip [] (.number next) rest
      | .stop => .ok (b :: rest)
      | .wrong => .error .malformed
    | .digits 4 isName, brackets =>
      if rest.length < 3 then .error .endOfText
      else
        match Awaited.step (.digits 4 isName) brackets b with
        | .ok (brackets, awaited) => skip brackets awaited rest
        | .error e => .error e
    | awaited, brackets =>
      match awaited.step brackets b with
      | .ok (brackets, awaited) => skip brackets awaited rest
      | .error e => .error e

theorem length_skip_le {brackets : List Bracket} {awaited : Awaited} {bytes rest : List UInt8}
    (h : skip brackets awaited bytes = .ok rest) : rest.length ≤ bytes.length := by
  fun_induction skip brackets awaited bytes <;> simp_all <;> omega

def skipValue (bytes : List UInt8) : Except ReadError (List UInt8) := skip [] .value bytes

end Json
end AccessControl
