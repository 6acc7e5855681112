import AccessControl.Outcome
import AccessControl.Sid.Basic
import AccessControl.Text.Blank
import AccessControl.Text.Quoted

/-!
# Reading security identifiers

The text form with white space around it, either case of the leading letter, a decimal
or hexadecimal authority and at most fifteen sub-authorities. Parts are judged from left
to right, and the first that is missing or wrong decides the error.
-/

namespace AccessControl
namespace Sid

open ByteOrder (capacity)

/-- What is wrong with a text that names no security identifier. -/
inductive Flaw
  | missingPrefix
  | missingComponent
  | invalidNumber
  | tooManySubAuthorities
deriving DecidableEq

def Flaw.message : Flaw → String
  | .missingPrefix => "missing \"S-\" prefix"
  | .missingComponent => "revision and identifier authority are required"
  | .invalidNumber => "invalid numeric component"
  | .tooManySubAuthorities =>
    "more than " ++ Numeral.decimal maxSubAuthorities ++ " sub-authorities"

/-- The flaw, and the text as it was given. -/
structure ParseError where
  flaw : Flaw
  input : String
deriving DecidableEq

def ParseError.message (e : ParseError) : String :=
  "string " ++ Text.quoted e.input ++ " is not a valid SID: " ++ e.flaw.message

/-- Hexadecimal behind `0x` or `0X`, decimal otherwise; at most 48 bits either way. -/
def authority? : List Char → Option Nat
  | '0' :: 'x' :: digits => Numeral.unsignedBelow? 16 (capacity 6) digits
  | '0' :: 'X' :: digits => Numeral.unsignedBelow? 16 (capacity 6) digits
  | digits => Numeral.unsignedBelow? 10 (capacity 6) digits

/-- The first part, which has to be there, and the parts after it. -/
def required (read? : List Char → Option Nat) :
    List (List Char) → Except Flaw (Nat × List (List Char))
  | [] | [] :: _ => .error .missingComponent
  | part :: parts =>
    match read? part with
    | some value => .ok (value, parts)
    | none => .error .invalidNumber

/-- Every part a 32-bit number, and no more parts than there is room for. -/
def subNumbers : (room : Nat) → List (List Char) → Except Flaw (List UInt32)
  | _, [] => .ok []
  | 0, _ :: _ => .error .tooManySubAuthorities
  | room + 1, part :: parts =>
    match Numeral.unsignedBelow? 10 (capacity 4) part with
    | none => .error .invalidNumber
    | some value => (UInt32.ofNat value :: ·) <$> subNumbers room parts

def ofComponents : List (List Char) → Except Flaw Sid
  | [] => .error .missingPrefix
  | letter :: parts =>
    if letter = ['S'] ∨ letter = ['s'] then do
      let (revision, parts) ← required (Numeral.unsignedBelow? 10 (capacity 1)) parts
      let (authority, parts) ← required authority? parts
      let subs ← subNumbers maxSubAuthorities parts
      return ofParts (UInt8.ofNat revision) authority subs
    else .error .missingPrefix

def parse (input : String) : Except ParseError Sid :=
  (ofComponents ((Text.trim input.toList).splitOn '-')).mapError fun flaw => ⟨flaw, input⟩

theorem length_le_of_subNumbers {room : Nat} {parts : List (List Char)} {subs : List UInt32}
    (h : subNumbers room parts = .ok subs) : subs.length ≤ room := by
  induction parts generalizing room subs with
  | nil =>
    cases room <;> cases h <;> exact Nat.zero_le _
  | cons part parts ih =>
    cases room with
    | zero => cases h
    | succ room =>
      simp only [subNumbers] at h
      split at h
      · cases h
      · obtain ⟨rest, hrest, rfl⟩ := map_eq_ok_iff.mp h
        exact Nat.succ_le_succ (ih hrest)

theorem length_subAuthorities_le_of_parse {input : String} {sid : Sid}
    (h : parse input = .ok sid) : sid.subAuthorities.length ≤ maxSubAuthorities := by
  have h := mapError_eq_ok_iff.mp h
  unfold ofComponents at h
  split at h
  · cases h
  · split at h
    · obtain ⟨⟨revision, parts⟩, -, h⟩ := bind_eq_ok_iff.mp h
      obtain ⟨⟨authority, parts⟩, -, h⟩ := bind_eq_ok_iff.mp h
      obtain ⟨subs, hsubs, h⟩ := bind_eq_ok_iff.mp h
      cases h
      exact length_le_of_subNumbers hsubs
    · cases h

/-- A text names an identifier when it parses to it. -/
def isNamedBy (sid : Sid) (input : String) : Bool :=
  match parse input with
  | .ok parsed => decide (parsed = sid)
  | .error _ => false

theorem isNamedBy_iff {sid : Sid} {input : String} :
    sid.isNamedBy input = true ↔ parse input = .ok sid := by
  unfold isNamedBy
  cases parse input <;> simp

end Sid
end AccessControl
