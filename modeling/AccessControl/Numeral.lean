/-!
# Numerals

Positional text of natural numbers in bases up to sixteen. Writing uses lower-case
letters and no leading zero; reading takes either case, leading zeros and, for
unsigned numbers, one plus sign in front.
-/

namespace AccessControl
namespace Numeral

/-- Letters count from ten, in either case. -/
def rank? (c : Char) : Option Nat :=
  if '0' ≤ c ∧ c ≤ '9' then some (c.toNat - '0'.toNat)
  else if 'a' ≤ c ∧ c ≤ 'z' then some (c.toNat - 'a'.toNat + 10)
  else if 'A' ≤ c ∧ c ≤ 'Z' then some (c.toNat - 'A'.toNat + 10)
  else none

def digitValue? (base : Nat) (c : Char) : Option Nat :=
  (rank? c).filter fun d => d < base

theorem digitValue?_lt {base : Nat} {c : Char} {d : Nat} (h : digitValue? base c = some d) :
    d < base := by
  simp only [digitValue?, Option.filter_eq_some_iff] at h
  simpa using h.2

theorem digitValue?_digitChar {base d : Nat} (hbase : base ≤ 16) (hd : d < base) :
    digitValue? base (Nat.digitChar d) = some d := by
  have hrank : ∀ d < 16, rank? (Nat.digitChar d) = some d := by decide
  simp [digitValue?, hrank d (Nat.lt_of_lt_of_le hd hbase), hd]

/-- Digits read on top of the value of the digits before them. -/
def accumulate? (base : Nat) : Nat → List Char → Option Nat
  | value, [] => some value
  | value, c :: cs =>
    (digitValue? base c).bind fun d => accumulate? base (value * base + d) cs

/-- At least one digit and nothing else. -/
def value? (base : Nat) : List Char → Option Nat
  | [] => none
  | cs => accumulate? base 0 cs

/-- One plus sign may stand in front of the digits. -/
def unsigned? (base : Nat) : List Char → Option Nat
  | '+' :: cs => value? base cs
  | cs => value? base cs

/-- Unsigned numbers below a limit, as the width of a field demands. -/
def unsignedBelow? (base limit : Nat) (cs : List Char) : Option Nat :=
  (unsigned? base cs).filter fun n => n < limit

theorem unsignedBelow?_eq_some_iff {base limit n : Nat} {cs : List Char} :
    unsignedBelow? base limit cs = some n ↔ unsigned? base cs = some n ∧ n < limit := by
  simp [unsignedBelow?, Option.filter_eq_some_iff]

/-- The digits of a number; zero has one digit. -/
def text (base n : Nat) : String := String.ofList (Nat.toDigits base n)

@[simp] theorem toList_text (base n : Nat) : (text base n).toList = Nat.toDigits base n := by
  simp [text]

def decimal (n : Nat) : String := text 10 n

def hex (n : Nat) : String := text 16 n

/-- The digits of a number, filled up with zeros on the left to a least width. -/
def padded (base width n : Nat) : String :=
  String.ofList ((Nat.toDigits base n).leftpad width '0')

/-- Hexadecimal digits behind the marker `0x`. -/
def marked (n : Nat) : String := "0x" ++ hex n

/-- Hexadecimal digits behind the marker `0x`, at least `width` of them. -/
def markedPadded (width n : Nat) : String := "0x" ++ padded 16 width n

end Numeral
end AccessControl
