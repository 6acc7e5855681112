import AccessControl.Numeral
import Mathlib.Data.List.Induction
import Mathlib.Tactic.SplitIfs

/-!
# Numerals read back

A number that was written in a base up to sixteen is read back as that number. Its text holds
digits and nothing else: no sign, no separator and no white space. The texts that are read as a
number are those of a small grammar, which also has other texts of the same number.
-/

namespace AccessControl
namespace Numeral

variable {base n : Nat}

/-- Later digits are read on top of the value of the earlier ones. -/
theorem accumulate?_append (value : Nat) (front rest : List Char) :
    accumulate? base value (front ++ rest) =
      (accumulate? base value front).bind fun v => accumulate? base v rest := by
  induction front generalizing value with
  | nil => rfl
  | cons c front ih =>
    rw [List.cons_append, accumulate?, accumulate?]
    cases digitValue? base c with
    | none => rfl
    | some d => exact ih (value * base + d)

theorem accumulate?_toDigits (hone : 1 < base) (hbase : base ≤ 16) (n : Nat) :
    accumulate? base 0 (Nat.toDigits base n) = some n := by
  -- On the number: all digits but the last are those of the quotient.
  induction n using Nat.strongRecOn with
  | ind n ih =>
    by_cases hn : n < base
    · rw [Nat.toDigits_of_lt_base hn]
      simp [accumulate?, digitValue?_digitChar hbase hn]
    · have hle : base ≤ n := Nat.not_lt.mp hn
      have hquotient : n / base < n := Nat.div_lt_self (by omega) hone
      have hlast : n % base < base := Nat.mod_lt n (by omega)
      rw [Nat.toDigits_of_base_le hone hle, accumulate?_append, ih _ hquotient]
      simp [accumulate?, digitValue?_digitChar hbase hlast, Nat.div_add_mod']

theorem exists_digit_of_mem_toDigits (hone : 1 < base) {c : Char}
    (h : c ∈ Nat.toDigits base n) : ∃ d < base, c = Nat.digitChar d := by
  induction n using Nat.strongRecOn with
  | ind n ih =>
    by_cases hn : n < base
    · rw [Nat.toDigits_of_lt_base hn, List.mem_singleton] at h
      exact ⟨n, hn, h⟩
    · have hle : base ≤ n := Nat.not_lt.mp hn
      rw [Nat.toDigits_of_base_le hone hle, List.mem_append, List.mem_singleton] at h
      rcases h with hfront | hlast
      · exact ih _ (Nat.div_lt_self (by omega) hone) hfront
      · exact ⟨n % base, Nat.mod_lt n (by omega), hlast⟩

theorem not_mem_toDigits (hone : 1 < base) {c : Char} (hc : ∀ d, Nat.digitChar d ≠ c) :
    c ∉ Nat.toDigits base n := by
  intro h
  obtain ⟨d, -, hd⟩ := exists_digit_of_mem_toDigits hone h
  exact hc d hd.symm

theorem value?_toDigits (hone : 1 < base) (hbase : base ≤ 16) (n : Nat) :
    value? base (Nat.toDigits base n) = some n := by
  have haccumulate := accumulate?_toDigits hone hbase n
  unfold value?
  split
  · next hnil => exact absurd hnil Nat.toDigits_ne_nil
  · exact haccumulate

/-- A number below the limit of its field is read back from its digits. -/
theorem unsignedBelow?_toDigits (hone : 1 < base) (hbase : base ≤ 16) {limit : Nat}
    (hlimit : n < limit) : unsignedBelow? base limit (Nat.toDigits base n) = some n := by
  rw [unsignedBelow?_eq_some_iff]
  refine ⟨?_, hlimit⟩
  have hplus : '+' ∉ Nat.toDigits base n :=
    not_mem_toDigits hone fun _ => Nat.digitChar_ne '+' rfl
  unfold unsigned?
  split
  · next hdigits => exact absurd (hdigits ▸ List.mem_cons_self) hplus
  · exact value?_toDigits hone hbase n

/-! ## Different numbers, different texts -/

theorem toDigits_injective (hone : 1 < base) (hbase : base ≤ 16) :
    Function.Injective (Nat.toDigits base) := by
  intro m n h
  have hm := value?_toDigits hone hbase m
  rw [h, value?_toDigits hone hbase n] at hm
  exact (Option.some.inj hm).symm

theorem isDigit_of_mem_toDigits {c : Char} (h : c ∈ Nat.toDigits 10 n) : c.isDigit = true := by
  have hdigits : ∀ d < 10, (Nat.digitChar d).isDigit = true := by decide
  obtain ⟨d, hd, rfl⟩ := exists_digit_of_mem_toDigits (by decide) h
  exact hdigits d hd

/-- Zeros in front do not change what the digits stand for. -/
theorem accumulate?_leftpad (width : Nat) (digits : List Char) (hbase : 0 < base) :
    accumulate? base 0 (digits.leftpad width '0') = accumulate? base 0 digits := by
  have hzeros : ∀ count, accumulate? base 0 (List.replicate count '0' ++ digits) =
      accumulate? base 0 digits := by
    intro count
    induction count with
    | zero => rfl
    | succ count ih =>
      have hzero : digitValue? base '0' = some 0 := by simp [digitValue?, rank?, hbase]
      simpa [List.replicate_succ, accumulate?, hzero] using ih
  exact hzeros _

theorem toList_padded (width n : Nat) :
    (padded base width n).toList = (Nat.toDigits base n).leftpad width '0' := by
  rw [padded, String.toList_ofList]

theorem exists_digit_of_mem_padded (hone : 1 < base) {width : Nat} {c : Char}
    (h : c ∈ (padded base width n).toList) : ∃ d < base, c = Nat.digitChar d := by
  rw [toList_padded, List.leftpad] at h
  rcases List.mem_append.mp h with hzero | hdigit
  · exact ⟨0, Nat.lt_of_succ_lt hone, List.eq_of_mem_replicate hzero⟩
  · exact exists_digit_of_mem_toDigits hone hdigit

theorem padded_injective (hone : 1 < base) (hbase : base ≤ 16) (width : Nat) :
    Function.Injective (padded base width) := by
  intro m n h
  have hdigits := congrArg (fun text => accumulate? base 0 text.toList) h
  simp only [toList_padded, accumulate?_leftpad _ _ (Nat.lt_of_succ_lt hone),
    accumulate?_toDigits hone hbase] at hdigits
  exact Option.some.inj hdigits

theorem marked_injective : Function.Injective marked := by
  intro m n h
  have hdigits : Function.Injective (Nat.toDigits 16) :=
    toDigits_injective (by decide) (by decide)
  apply hdigits
  simpa [marked, hex] using congrArg String.toList h

theorem markedPadded_injective (width : Nat) : Function.Injective (markedPadded width) := by
  intro m n h
  have hpadded : Function.Injective (padded 16 width) :=
    padded_injective (by decide) (by decide) width
  apply hpadded
  apply String.toList_inj.mp
  simpa [markedPadded] using congrArg String.toList h

theorem decimal_injective : Function.Injective decimal := by
  intro m n h
  have hdigits : Function.Injective (Nat.toDigits 10) :=
    toDigits_injective (by decide) (by decide)
  apply hdigits
  simpa [decimal] using congrArg String.toList h

/-! ## Texts of a number -/

/-- Digits are written with small letters or with capitals. -/
def Digit (base : Nat) (c : Char) (d : Nat) : Prop :=
  d < base ∧ (c = Nat.digitChar d ∨ c = (Nat.digitChar d).toUpper)

/-- Digits, at least one, and what they stand for. -/
inductive Digits (base : Nat) : List Char → Nat → Prop
  | single {c : Char} {d : Nat} (h : Digit base c d) : Digits base [c] d
  | snoc {cs : List Char} {n : Nat} {c : Char} {d : Nat} (h : Digits base cs n)
      (hlast : Digit base c d) : Digits base (cs ++ [c]) (n * base + d)

/-- One plus sign may stand in front of the digits; zeros in front of others are digits too. -/
inductive Number (base : Nat) : List Char → Nat → Prop
  | bare {cs : List Char} {n : Nat} (h : Digits base cs n) : Number base cs n
  | plus {cs : List Char} {n : Nat} (h : Digits base cs n) : Number base ('+' :: cs) n

theorem Digits.ne_nil {cs : List Char} (h : Digits base cs n) : cs ≠ [] := by
  cases h with
  | single => exact List.cons_ne_nil _ _
  | snoc => exact List.append_ne_nil_of_right_ne_nil _ (List.cons_ne_nil _ _)

theorem Number.ne_nil {cs : List Char} (h : Number base cs n) : cs ≠ [] := by
  cases h with
  | bare h => exact h.ne_nil
  | plus => exact List.cons_ne_nil _ _

theorem digitChar_of_rank? {c : Char} {d : Nat} (h : rank? c = some d) (hd : d < 16) :
    c = Nat.digitChar d ∨ c = (Nat.digitChar d).toUpper := by
  have hsmall : ∀ d < 16, (Nat.digitChar d).toNat = if d < 10 then d + 48 else d + 87 := by
    decide
  have hcapital : ∀ d < 16,
      (Nat.digitChar d).toUpper.toNat = if d < 10 then d + 48 else d + 55 := by
    decide
  have hle : ∀ a b : Char, a ≤ b ↔ a.toNat ≤ b.toNat := fun _ _ => Iff.rfl
  rw [← Char.toNat_inj, ← Char.toNat_inj, hsmall d hd, hcapital d hd]
  simp only [rank?, hle, Char.reduceToNat] at h
  split_ifs at h
  all_goals
    have h := Option.some.inj h
    split_ifs
    all_goals omega

theorem rank?_toUpper : ∀ d < 16, rank? (Nat.digitChar d).toUpper = some d := by decide

theorem digitValue?_eq_some_iff (hbase : base ≤ 16) {c : Char} {d : Nat} :
    digitValue? base c = some d ↔ Digit base c d := by
  constructor
  · intro h
    have hd := digitValue?_lt h
    simp only [digitValue?, Option.filter_eq_some_iff] at h
    exact ⟨hd, digitChar_of_rank? h.1 (Nat.lt_of_lt_of_le hd hbase)⟩
  · rintro ⟨hd, rfl | rfl⟩
    · exact digitValue?_digitChar hbase hd
    · simp [digitValue?, rank?_toUpper d (Nat.lt_of_lt_of_le hd hbase), hd]

theorem accumulate?_concat (value : Nat) (cs : List Char) (c : Char) :
    accumulate? base value (cs ++ [c]) =
      (accumulate? base value cs).bind fun v => (digitValue? base c).map (v * base + ·) := by
  simp only [accumulate?_append, accumulate?, Option.map_eq_bind]
  rfl

theorem value?_of_ne_nil {cs : List Char} (h : cs ≠ []) :
    value? base cs = accumulate? base 0 cs := by
  cases cs with
  | nil => exact absurd rfl h
  | cons c cs => rfl

theorem value?_eq_some_iff (hbase : base ≤ 16) {cs : List Char} :
    value? base cs = some n ↔ Digits base cs n := by
  constructor
  · intro h
    -- On the digits from the back: the number before the last one is read in its own right.
    induction cs using List.reverseRecOn generalizing n with
    | nil => cases h
    | append_singleton cs c ih =>
      rw [value?_of_ne_nil (List.concat_ne_nil c cs), accumulate?_concat] at h
      obtain ⟨v, hfront, h⟩ := Option.bind_eq_some_iff.mp h
      obtain ⟨d, hlast, rfl⟩ := Option.map_eq_some_iff.mp h
      have hdigit := (digitValue?_eq_some_iff hbase).mp hlast
      by_cases hnil : cs = []
      · subst hnil
        cases hfront
        simpa using Digits.single hdigit
      · rw [← value?_of_ne_nil hnil] at hfront
        exact .snoc (ih hfront) hdigit
  · intro h
    induction h with
    | single hdigit => simp [value?, accumulate?, (digitValue?_eq_some_iff hbase).mpr hdigit]
    | @snoc cs n c d hfront hdigit ih =>
      rw [value?_of_ne_nil hfront.ne_nil] at ih
      rw [value?_of_ne_nil (List.concat_ne_nil c cs), accumulate?_concat, ih,
        (digitValue?_eq_some_iff hbase).mpr hdigit]
      rfl

/-- What is read as a number is a number of the grammar, with the same value. -/
theorem unsigned?_eq_some_iff (hbase : base ≤ 16) {cs : List Char} :
    unsigned? base cs = some n ↔ Number base cs n := by
  constructor
  · intro h
    unfold unsigned? at h
    split at h
    · exact .plus ((value?_eq_some_iff hbase).mp h)
    · exact .bare ((value?_eq_some_iff hbase).mp h)
  · intro h
    cases h with
    | bare h =>
      have hvalue := (value?_eq_some_iff hbase).mpr h
      unfold unsigned?
      split
      · cases hvalue
      · exact hvalue
    | plus h => exact (value?_eq_some_iff hbase).mpr h

theorem unsignedBelow?_iff_number (hbase : base ≤ 16) {limit : Nat} {cs : List Char} :
    unsignedBelow? base limit cs = some n ↔ Number base cs n ∧ n < limit := by
  rw [unsignedBelow?_eq_some_iff, unsigned?_eq_some_iff hbase]

end Numeral
end AccessControl
