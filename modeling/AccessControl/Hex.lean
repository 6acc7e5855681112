import AccessControl.Numeral

/-!
# Hexadecimal text of bytes

Two lower-case digits a byte, high half first. Reading takes either case and refuses
an odd number of digits.
-/

namespace AccessControl
namespace Hex

def pair (b : UInt8) : List Char :=
  [Nat.digitChar (b.toNat / 16), Nat.digitChar (b.toNat % 16)]

def encode (bytes : List UInt8) : List Char := bytes.flatMap pair

def text (bytes : List UInt8) : String := String.ofList (encode bytes)

def decode? : List Char → Option (List UInt8)
  | [] => some []
  | [_] => none
  | high :: low :: rest => do
    let h ← Numeral.digitValue? 16 high
    let l ← Numeral.digitValue? 16 low
    let bytes ← decode? rest
    return UInt8.ofNat (16 * h + l) :: bytes

theorem length_encode (bytes : List UInt8) : (encode bytes).length = 2 * bytes.length := by
  induction bytes with
  | nil => rfl
  | cons b bs ih => simp_all [encode, pair, Nat.mul_add]

/-- Bytes written in hexadecimal read back as themselves. -/
@[simp] theorem decode?_encode (bytes : List UInt8) : decode? (encode bytes) = some bytes := by
  induction bytes with
  | nil => rfl
  | cons b bs ih =>
    have hb : b.toNat < 256 := b.toNat_lt
    have hsum : 16 * (b.toNat / 16) + b.toNat % 16 = b.toNat := Nat.div_add_mod _ _
    have hcons : encode (b :: bs) =
        Nat.digitChar (b.toNat / 16) :: Nat.digitChar (b.toNat % 16) :: encode bs := rfl
    have hdigit : ∀ d < 16, Numeral.digitValue? 16 (Nat.digitChar d) = some d := fun _ =>
      Numeral.digitValue?_digitChar (Nat.le_refl 16)
    rw [hcons, decode?, hdigit _ (by omega), hdigit _ (by omega), ih]
    show some (UInt8.ofNat (16 * (b.toNat / 16) + b.toNat % 16) :: bs) = _
    rw [hsum, UInt8.ofNat_toNat]

end Hex
end AccessControl
