/-!
# Numbers

The grammar of a number in a JSON text, byte by byte, and whether the number lies within
the range of 64-bit floating point. A significand of 64 bits and a power of ten are kept
of its digits, and both are rounded before they are multiplied.
-/

namespace AccessControl
namespace Json

/-- How much of a number has been read. -/
inductive NumberPhase
  | sign
  | zero
  | integer
  | point
  | fraction
  | exponent
  | exponentSign
  | power
deriving DecidableEq

namespace NumberPhase

/-- Phases in which the number may end. -/
def isComplete : NumberPhase → Bool
  | zero | integer | fraction | power => true
  | sign | point | exponent | exponentSign => false

/-- A byte continues the number, comes after it, or is wrong. -/
inductive Step
  | continue (phase : NumberPhase)
  | stop
  | wrong

def isDigit (b : UInt8) : Bool := 0x30 ≤ b && b ≤ 0x39

def isExponentMark (b : UInt8) : Bool := b == 0x65 || b == 0x45

def step (phase : NumberPhase) (b : UInt8) : Step :=
  match phase with
  | sign => if b = 0x30 then .continue zero else if isDigit b then .continue integer else .wrong
  | zero =>
    if isDigit b then .wrong
    else if b = 0x2E then .continue point
    else if isExponentMark b then .continue exponent
    else .stop
  | integer =>
    if isDigit b then .continue integer
    else if b = 0x2E then .continue point
    else if isExponentMark b then .continue exponent
    else .stop
  | point => if isDigit b then .continue fraction else .wrong
  | fraction =>
    if isDigit b then .continue fraction
    else if isExponentMark b then .continue exponent
    else .stop
  | exponent =>
    if b = 0x2B ∨ b = 0x2D then .continue exponentSign
    else if isDigit b then .continue power
    else .wrong
  | exponentSign => if isDigit b then .continue power else .wrong
  | power => if isDigit b then .continue power else .stop

/-- The phase after the first byte of a number. -/
def first? (b : UInt8) : Option NumberPhase :=
  if b = 0x2D then some sign
  else if b = 0x30 then some zero
  else if isDigit b then some integer
  else none

end NumberPhase

/-- A number as a significand and a power of ten. Digits that the significand has no room
for are dropped; those before the point still count as places. -/
structure Magnitude where
  significand : Nat := 0
  /-- Whether a digit has found no room, on this side of the point. -/
  isFull : Bool := false
  scale : Int := 0
  power : Nat := 0
  powerIsNegative : Bool := false

namespace Magnitude

/-- The significand with one more digit, if it has room for it. -/
def append? (m : Magnitude) (digit : Nat) : Option Nat :=
  let longer := m.significand * 10 + digit
  if !m.isFull && longer < 1 <<< 64 then some longer else none

/-- The number with one more byte, which leads to the given phase. -/
def push (m : Magnitude) (phase : NumberPhase) (b : UInt8) : Magnitude :=
  let digit := b.toNat - 0x30
  match phase with
  | .zero | .integer =>
    match m.append? digit with
    | some longer => { m with significand := longer }
    | none => { m with isFull := true, scale := m.scale + 1 }
  | .point => { m with isFull := false }
  | .fraction =>
    match m.append? digit with
    | some longer => { m with significand := longer, scale := m.scale - 1 }
    | none => { m with isFull := true }
  | .exponentSign => { m with powerIsNegative := b == 0x2D }
  | .power => { m with power := m.power * 10 + digit }
  | .sign | .exponent => m

def exponent (m : Magnitude) : Int :=
  m.scale + if m.powerIsNegative then - (m.power : Int) else m.power

end Magnitude

/-! ## Range -/

/-- The nearest number of 53 significant bits; of two that are equally near, the one with
an even significand. -/
def nearest (n : Nat) : Nat :=
  let unit := 1 <<< (n.log2 - 52)
  let below := n / unit
  let half := 2 * (n % unit)
  if unit < half ∨ unit = half ∧ below % 2 = 1 then (below + 1) * unit else below * unit

theorem nearest_eq_self {n : Nat} (h : n.log2 ≤ 52) : nearest n = n := by
  have hunit : n.log2 - 52 = 0 := by omega
  simp [nearest, hunit, Nat.mod_one]

/-- The least number that rounds past the largest finite one. -/
def overflow : Nat := 1 <<< 1024 - 1 <<< 970

/-- Whether the number rounds to a finite value. Larger powers of ten than the 308th are
not finite themselves; a negative power only makes the number smaller. -/
def Magnitude.isFinite (m : Magnitude) : Bool :=
  m.significand = 0 || m.exponent < 0 ||
    (m.exponent ≤ 308 &&
      nearest m.significand * nearest (Nat.pow 10 m.exponent.toNat) < overflow)

end Json
end AccessControl
