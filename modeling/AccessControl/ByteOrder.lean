/-!
# Byte order

Numbers as bytes, least significant byte first (little) or last (big). Writing in a
width and reading back gives the number whenever it fits the width, and reading
followed by writing gives back the bytes.
-/

namespace AccessControl
namespace ByteOrder

/-- The number of values that so many bytes can hold. -/
def capacity : (width : Nat) → Nat
  | 0 => 1
  | width + 1 => 256 * capacity width

def ofLittle : List UInt8 → Nat
  | [] => 0
  | b :: bs => b.toNat + 256 * ofLittle bs

/-- The low `width` bytes; higher ones are dropped. -/
def toLittle : (width : Nat) → Nat → List UInt8
  | 0, _ => []
  | width + 1, n => UInt8.ofNat n :: toLittle width (n / 256)

def ofBig (bytes : List UInt8) : Nat := ofLittle bytes.reverse

def toBig (width n : Nat) : List UInt8 := (toLittle width n).reverse

@[simp] theorem length_toLittle (width n : Nat) : (toLittle width n).length = width := by
  induction width generalizing n with
  | zero => rfl
  | succ width ih => simp [toLittle, ih]

@[simp] theorem length_toBig (width n : Nat) : (toBig width n).length = width := by
  simp [toBig]

theorem ofLittle_lt (bytes : List UInt8) : ofLittle bytes < capacity bytes.length := by
  induction bytes with
  | nil => simp [ofLittle, capacity]
  | cons b bs ih =>
    have hb : b.toNat < 256 := b.toNat_lt
    simp only [ofLittle, List.length_cons, capacity]
    omega

theorem ofBig_lt (bytes : List UInt8) : ofBig bytes < capacity bytes.length := by
  simpa [ofBig] using ofLittle_lt bytes.reverse

theorem ofLittle_toLittle {width n : Nat} (h : n < capacity width) :
    ofLittle (toLittle width n) = n := by
  induction width generalizing n with
  | zero =>
    simp only [capacity, Nat.lt_one_iff] at h
    simp [toLittle, ofLittle, h]
  | succ width ih =>
    have hn : n / 256 < capacity width := by
      simp only [capacity] at h
      omega
    simp only [toLittle, ofLittle, ih hn, UInt8.toNat_ofNat']
    omega

theorem ofBig_toBig {width n : Nat} (h : n < capacity width) : ofBig (toBig width n) = n := by
  simp [ofBig, toBig, ofLittle_toLittle h]

theorem toLittle_ofLittle (bytes : List UInt8) :
    toLittle bytes.length (ofLittle bytes) = bytes := by
  induction bytes with
  | nil => rfl
  | cons b bs ih =>
    have hb : b.toNat < 256 := b.toNat_lt
    have hdiv : (b.toNat + 256 * ofLittle bs) / 256 = ofLittle bs := by omega
    have hlow : UInt8.ofNat (b.toNat + 256 * ofLittle bs) = b := by
      apply UInt8.toNat_inj.mp
      simp only [UInt8.toNat_ofNat']
      omega
    simp only [List.length_cons, toLittle, ofLittle, hdiv, ih, hlow]

theorem toBig_ofBig (bytes : List UInt8) : toBig bytes.length (ofBig bytes) = bytes := by
  have h := toLittle_ofLittle bytes.reverse
  rw [List.length_reverse] at h
  simp [toBig, ofBig, h]

theorem ofLittle_eq_iff {bytes : List UInt8} {width n : Nat} (hb : bytes.length = width)
    (hn : n < capacity width) : ofLittle bytes = n ↔ bytes = toLittle width n := by
  subst hb
  constructor
  · rintro rfl
    exact (toLittle_ofLittle bytes).symm
  · intro h
    rw [h, ofLittle_toLittle hn]

theorem ofBig_eq_iff {bytes : List UInt8} {width n : Nat} (hb : bytes.length = width)
    (hn : n < capacity width) : ofBig bytes = n ↔ bytes = toBig width n := by
  rw [ofBig, ofLittle_eq_iff (by simpa using hb) hn, toBig, List.reverse_eq_iff]

/-! ## Words -/

theorem byte_eq_iff {bytes : List UInt8} {b : UInt8} (h : bytes.length = 1) :
    UInt8.ofNat (ofLittle bytes) = b ↔ bytes = [b] := by
  obtain ⟨a, rfl⟩ := List.length_eq_one_iff.mp h
  simp [ofLittle]

theorem toNat_word {bytes : List UInt8} (h : bytes.length = 2) :
    (UInt16.ofNat (ofLittle bytes)).toNat = ofLittle bytes :=
  UInt16.toNat_ofNat_of_lt' (by simpa [h, capacity] using ofLittle_lt bytes)

theorem word_eq_iff {bytes : List UInt8} {w : UInt16} (h : bytes.length = 2) :
    UInt16.ofNat (ofLittle bytes) = w ↔ bytes = toLittle 2 w.toNat := by
  have hw : w.toNat < capacity 2 := by simpa [capacity] using w.toNat_lt
  rw [← ofLittle_eq_iff h hw, ← UInt16.toNat_inj, toNat_word h]

theorem toNat_long {bytes : List UInt8} (h : bytes.length = 4) :
    (UInt32.ofNat (ofLittle bytes)).toNat = ofLittle bytes :=
  UInt32.toNat_ofNat_of_lt' (by simpa [h, capacity] using ofLittle_lt bytes)

theorem toNat_longBig {bytes : List UInt8} (h : bytes.length = 4) :
    (UInt32.ofNat (ofBig bytes)).toNat = ofBig bytes :=
  toNat_long (by simpa using h)

theorem long_eq_iff {bytes : List UInt8} {w : UInt32} (h : bytes.length = 4) :
    UInt32.ofNat (ofLittle bytes) = w ↔ bytes = toLittle 4 w.toNat := by
  have hw : w.toNat < capacity 4 := by simpa [capacity] using w.toNat_lt
  rw [← ofLittle_eq_iff h hw, ← UInt32.toNat_inj, toNat_long h]

theorem longBig_eq_iff {bytes : List UInt8} {w : UInt32} (h : bytes.length = 4) :
    UInt32.ofNat (ofBig bytes) = w ↔ bytes = toBig 4 w.toNat := by
  have hw : w.toNat < capacity 4 := by simpa [capacity] using w.toNat_lt
  rw [← ofBig_eq_iff h hw, ← UInt32.toNat_inj, toNat_longBig h]

end ByteOrder
end AccessControl
