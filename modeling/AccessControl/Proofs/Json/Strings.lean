import AccessControl.Json.Basic
import AccessControl.Proofs.Numerals
import Mathlib.Tactic.SplitIfs

/-!
# Strings in JSON texts

A string ends at its first quote that is not escaped, and each of its characters is read back from
what is written for it. So the text of a string is found again whatever stands behind it.
-/

namespace AccessControl
namespace Json

/-- Reads one character, escaped or not. -/
def unescape? : List Char → Option (Char × List Char)
  | '\\' :: '\x22' :: rest => some ('\x22', rest)
  | '\\' :: '\\' :: rest => some ('\\', rest)
  | '\\' :: 'n' :: rest => some ('\n', rest)
  | '\\' :: 'r' :: rest => some ('\r', rest)
  | '\\' :: 't' :: rest => some ('\t', rest)
  | '\\' :: 'b' :: rest => some ('\x08', rest)
  | '\\' :: 'f' :: rest => some ('\x0c', rest)
  | '\\' :: 'u' :: h₃ :: h₂ :: h₁ :: h₀ :: rest =>
    (Numeral.accumulate? 16 0 [h₃, h₂, h₁, h₀]).map fun code => (Char.ofNat code, rest)
  | c :: rest => some (c, rest)
  | [] => none

/-- Control characters have codes of two digits. -/
theorem toList_padded_control : ∀ n < 32, (Numeral.padded 16 4 n).toList =
    ['0', '0', Nat.digitChar (n / 16), Nat.digitChar (n % 16)] := by decide

theorem accumulate?_control : ∀ n < 32,
    Numeral.accumulate? 16 0 ['0', '0', Nat.digitChar (n / 16), Nat.digitChar (n % 16)] =
      some n := by decide

theorem unescape?_escapedChar (c : Char) (rest : List Char) :
    unescape? ((escapedChar c).toList ++ rest) = some (c, rest) := by
  unfold escapedChar
  split_ifs with hquote hslash hline hreturn htab hback hfeed hcontrol
  · rw [hquote]
    rfl
  · rw [hslash]
    rfl
  · rw [hline]
    rfl
  · rw [hreturn]
    rfl
  · rw [htab]
    rfl
  · rw [hback]
    rfl
  · rw [hfeed]
    rfl
  · rw [String.toList_append, toList_padded_control _ hcontrol]
    simp [unescape?, accumulate?_control _ hcontrol]
  · have hplain : (String.singleton c).toList = [c] := by simp
    rw [hplain]
    unfold unescape?
    split <;> simp_all

theorem escapedChar_inj {c d : Char} {r s : List Char}
    (h : (escapedChar c).toList ++ r = (escapedChar d).toList ++ s) : c = d ∧ r = s := by
  have hread := unescape?_escapedChar c r
  rw [h, unescape?_escapedChar] at hread
  exact Prod.mk.inj (Option.some.inj hread.symm)

/-- No character is written so that it looks like the end of the string. -/
theorem escapedChar_append_ne_quote (c : Char) (r s : List Char) :
    (escapedChar c).toList ++ r ≠ '\x22' :: s := by
  intro h
  have hread := unescape?_escapedChar c r
  have hquote : unescape? ('\x22' :: s) = some ('\x22', s) := rfl
  rw [h, hquote] at hread
  -- So the character is the quote itself, but that is written with two characters.
  obtain ⟨rfl, rfl⟩ := Prod.mk.inj (Option.some.inj hread)
  have hlength := congrArg List.length h
  simp [escapedChar] at hlength

theorem body_inj {a b r s : List Char}
    (h : (a.flatMap fun c => (escapedChar c).toList) ++ '\x22' :: r =
      (b.flatMap fun c => (escapedChar c).toList) ++ '\x22' :: s) : a = b ∧ r = s := by
  -- On the characters; the string that ends first ends both, as its quote is no character.
  induction a generalizing b with
  | nil =>
    cases b with
    | nil => exact ⟨rfl, List.tail_eq_of_cons_eq h⟩
    | cons d b =>
      rw [List.flatMap_cons, List.append_assoc] at h
      exact absurd h.symm (escapedChar_append_ne_quote d _ _)
  | cons c a ih =>
    cases b with
    | nil =>
      rw [List.flatMap_cons, List.append_assoc] at h
      exact absurd h (escapedChar_append_ne_quote c _ _)
    | cons d b =>
      rw [List.flatMap_cons, List.flatMap_cons, List.append_assoc, List.append_assoc] at h
      obtain ⟨rfl, hrest⟩ := escapedChar_inj h
      obtain ⟨rfl, hbehind⟩ := ih hrest
      exact ⟨rfl, hbehind⟩

theorem toList_quoted (s : String) :
    (quoted s).toList =
      '\x22' :: ((s.toList.flatMap fun c => (escapedChar c).toList) ++ ['\x22']) := by
  simp [quoted, List.flatMap_map]

theorem quoted_inj {a b : String} {r s : List Char}
    (h : (quoted a).toList ++ r = (quoted b).toList ++ s) : a = b ∧ r = s := by
  rw [toList_quoted, toList_quoted, List.cons_append, List.cons_append, List.append_assoc,
    List.append_assoc] at h
  obtain ⟨hchars, hrest⟩ := body_inj (List.tail_eq_of_cons_eq h)
  exact ⟨String.toList_inj.mp hchars, hrest⟩

end Json
end AccessControl
