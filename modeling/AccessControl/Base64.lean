import AccessControl.Numeral

/-!
# Base64

The standard alphabet with padding that is required and canonical: four symbols for
three bytes, and unused bits of the last symbol clear. The first thing wrong with a text
decides the error, except that a stray byte at the very end of a text whose length is
one more than a multiple of four is noticed before anything else.
-/

namespace AccessControl
namespace Base64

/-- The sign that fills up the last four. -/
def pad : UInt8 := 0x3D

/-- The symbol of a number below 64. -/
def symbol (value : Nat) : UInt8 :=
  if value < 26 then UInt8.ofNat (value + 0x41)
  else if value < 52 then UInt8.ofNat (value - 26 + 0x61)
  else if value < 62 then UInt8.ofNat (value - 52 + 0x30)
  else if value = 62 then 0x2B
  else 0x2F

def value? (b : UInt8) : Option Nat :=
  if 0x41 ≤ b ∧ b ≤ 0x5A then some (b.toNat - 0x41)
  else if 0x61 ≤ b ∧ b ≤ 0x7A then some (b.toNat - 0x61 + 26)
  else if 0x30 ≤ b ∧ b ≤ 0x39 then some (b.toNat - 0x30 + 52)
  else if b = 0x2B then some 62
  else if b = 0x2F then some 63
  else none

theorem value?_symbol : ∀ v < 64, value? (symbol v) = some v := by
  decide

def encode : List UInt8 → List UInt8
  | [] => []
  | [a] => [symbol (a.toNat / 4), symbol (a.toNat % 4 * 16), pad, pad]
  | [a, b] =>
    [symbol (a.toNat / 4), symbol (a.toNat % 4 * 16 + b.toNat / 16),
      symbol (b.toNat % 16 * 4), pad]
  | a :: b :: c :: rest =>
    symbol (a.toNat / 4) :: symbol (a.toNat % 4 * 16 + b.toNat / 16) ::
      symbol (b.toNat % 16 * 4 + c.toNat / 64) :: symbol (c.toNat % 64) :: encode rest

inductive Flaw
  | invalidSymbol (byte : UInt8) (offset : Nat)
  | invalidLength (length : Nat)
  | invalidLastSymbol (byte : UInt8) (offset : Nat)
  | invalidPadding
deriving DecidableEq

open Numeral (decimal) in
def Flaw.message : Flaw → String
  | .invalidSymbol byte offset =>
    "Invalid symbol " ++ decimal byte.toNat ++ ", offset " ++ decimal offset ++ "."
  | .invalidLength length => "Invalid input length: " ++ decimal length
  | .invalidLastSymbol byte offset =>
    "Invalid last symbol " ++ decimal byte.toNat ++ ", offset " ++ decimal offset ++ "."
  | .invalidPadding => "Invalid padding"

/-- The number of a symbol, which stands at `offset`. -/
def valueAt (offset : Nat) (b : UInt8) : Except Flaw Nat :=
  match value? b with
  | some v => .ok v
  | none => .error (.invalidSymbol b offset)

/-- Three bytes from four symbols. -/
def triple (p q r s : Nat) : List UInt8 :=
  [UInt8.ofNat (p * 4 + q / 16), UInt8.ofNat (q * 16 + r / 4), UInt8.ofNat (r * 64 + s)]

/-- The symbols before the padding of the last four, and the amount of padding. Padding
comes after two symbols at the earliest, and nothing comes after it. -/
def lastSymbols (start : Nat) : (index : Nat) → List UInt8 → Except Flaw (List Nat × Nat)
  | _, [] => .ok ([], 0)
  | index, b :: rest =>
    if b = pad then
      if 2 ≤ index ∧ rest.all (· = pad) then .ok ([], rest.length + 1)
      else .error (.invalidSymbol pad (start + index))
    else do
      let v ← valueAt (start + index) b
      let (vs, padding) ← lastSymbols start (index + 1) rest
      return (v :: vs, padding)

/-- The bytes of at most four last symbols, of which the first stands at `start`. -/
def decodeLast (start : Nat) (symbols : List UInt8) : Except Flaw (List UInt8) := do
  let (values, padding) ← lastSymbols start 0 symbols
  match values with
  | [] => return []
  | [_] => .error (.invalidLength (start + 1))
  | [p, q] =>
    if padding ≠ 2 then .error .invalidPadding
    else if q % 16 ≠ 0 then .error (.invalidLastSymbol (symbol q) (start + 1))
    else return [UInt8.ofNat (p * 4 + q / 16)]
  | [p, q, r] =>
    if padding ≠ 1 then .error .invalidPadding
    else if r % 4 ≠ 0 then .error (.invalidLastSymbol (symbol r) (start + 2))
    else return [UInt8.ofNat (p * 4 + q / 16), UInt8.ofNat (q * 16 + r / 4)]
  | p :: q :: r :: s :: _ => return triple p q r s

/-- Groups of four symbols, of which the first stands at `start`; only the last group may
be short or padded. -/
def decodeFrom (start : Nat) : List UInt8 → Except Flaw (List UInt8)
  | a :: b :: c :: d :: e :: rest => do
    let p ← valueAt start a
    let q ← valueAt (start + 1) b
    let r ← valueAt (start + 2) c
    let s ← valueAt (start + 3) d
    let bytes ← decodeFrom (start + 4) (e :: rest)
    return triple p q r s ++ bytes
  | symbols => decodeLast start symbols

/-- A byte at the end that is neither symbol nor padding, and that makes the length one
more than a multiple of four. -/
def strayEnd? (text : List UInt8) : Option UInt8 :=
  if text.length % 4 = 1 then
    text.getLast?.filter fun b => b != pad && (value? b).isNone
  else none

def decode (text : List UInt8) : Except Flaw (List UInt8) :=
  match strayEnd? text with
  | some b => .error (.invalidSymbol b (text.length - 1))
  | none => decodeFrom 0 text

end Base64
end AccessControl
