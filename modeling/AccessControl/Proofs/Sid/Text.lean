import AccessControl.LayoutError
import AccessControl.Proofs.Numerals
import AccessControl.Proofs.Text.Separation
import Mathlib.Tactic.SplitIfs

/-!
# The text form of security identifiers

The parts of a written identifier hold no dash, so the text falls apart into them again, and each
of them is read back as the number that it was written from. Only the number of sub-authorities
can stand in the way.
-/

namespace AccessControl

/-- A text without white space is left alone. -/
theorem Text.trim_of_forall_not_blank {cs : List Char} (h : ∀ c ∈ cs, isBlank c = false) :
    trim cs = cs := by
  apply trim_eq_self
  · intro c hc
    exact h c (List.mem_of_head? hc)
  · intro c hc
    exact h c (List.mem_of_getLast? hc)

theorem Numeral.isBlank_digitChar : ∀ d < 16, Text.isBlank (Nat.digitChar d) = false := by decide

namespace Sid

open Numeral (unsignedBelow?)
open ByteOrder (capacity)

/-! ## Parts -/

/-- A part of the text: neither dashes nor white space. -/
structure Plain (part : List Char) : Prop where
  no_dash : '-' ∉ part
  no_blank : ∀ c ∈ part, Text.isBlank c = false

theorem plain_toDigits {base : Nat} (hone : 1 < base) (hbase : base ≤ 16) (n : Nat) :
    Plain (Nat.toDigits base n) where
  no_dash := Numeral.not_mem_toDigits hone fun _ => Nat.digitChar_ne '-' rfl
  no_blank := by
    intro c hc
    obtain ⟨d, hd, rfl⟩ := Numeral.exists_digit_of_mem_toDigits hone hc
    exact Numeral.isBlank_digitChar d (Nat.lt_of_lt_of_le hd hbase)

/-- The characters of an authority. -/
def authorityDigits (authority : BitVec 48) : List Char :=
  if capacity 4 ≤ authority.toNat then '0' :: 'x' :: Nat.toDigits 16 authority.toNat
  else Nat.toDigits 10 authority.toNat

theorem toList_authorityText (authority : BitVec 48) :
    (authorityText authority).toList = authorityDigits authority := by
  unfold authorityText authorityDigits
  split
  · simp [Numeral.marked, Numeral.hex]
  · simp [Numeral.decimal]

theorem plain_authorityDigits (authority : BitVec 48) : Plain (authorityDigits authority) := by
  unfold authorityDigits
  split
  · have hdigits : Plain (Nat.toDigits 16 authority.toNat) :=
      plain_toDigits (by decide) (by decide) _
    constructor
    · simp [hdigits.no_dash]
    · simpa [Text.isBlank] using hdigits.no_blank
  · exact plain_toDigits (by decide) (by decide) _

theorem authorityDigits_ne_nil (authority : BitVec 48) : authorityDigits authority ≠ [] := by
  unfold authorityDigits
  split
  · exact List.cons_ne_nil _ _
  · exact Nat.toDigits_ne_nil

/-- The parts of the text, as they are read. -/
def parts (sid : Sid) : List (List Char) :=
  ['S'] :: Nat.toDigits 10 sid.revision.toNat :: authorityDigits sid.authority ::
    sid.subAuthorities.map fun sub => Nat.toDigits 10 sub.toNat

theorem plain_of_mem_parts {sid : Sid} {part : List Char} (h : part ∈ sid.parts) : Plain part := by
  have hten : ∀ n, Plain (Nat.toDigits 10 n) := plain_toDigits (by decide) (by decide)
  simp only [parts, List.mem_cons, List.mem_map] at h
  rcases h with rfl | rfl | rfl | ⟨sub, -, rfl⟩
  · exact ⟨by decide, List.forall_mem_singleton.mpr rfl⟩
  · exact hten _
  · exact plain_authorityDigits _
  · exact hten _

theorem toList_text (sid : Sid) : sid.text.toList = ['-'].intercalate sid.parts := by
  have hdash : "-".toList = ['-'] := rfl
  have hletter : "S".toList = ['S'] := rfl
  rw [text, String.toList_intercalate, hdash]
  simp [components, parts, toList_authorityText, Numeral.decimal, hletter, Function.comp_def]

theorem isBlank_of_mem_text (sid : Sid) : ∀ c ∈ sid.text.toList, Text.isBlank c = false := by
  rw [toList_text]
  apply Text.forall_mem_intercalate
  · exact List.forall_mem_singleton.mpr rfl
  · intro part hpart
    exact (plain_of_mem_parts hpart).no_blank

/-- The text has no white space around it, and falls apart at its dashes. -/
theorem splitOn_trim_text (sid : Sid) :
    (Text.trim sid.text.toList).splitOn '-' = sid.parts := by
  rw [Text.trim_of_forall_not_blank (isBlank_of_mem_text sid), toList_text]
  exact List.splitOn_intercalate '-' (fun part hpart => (plain_of_mem_parts hpart).no_dash)
    (List.cons_ne_nil _ _)

/-! ## Reading them back -/

theorem required_cons {read? : List Char → Option Nat} {part : List Char} {value : Nat}
    (hpart : part ≠ []) (hread : read? part = some value) (parts : List (List Char)) :
    required read? (part :: parts) = .ok (value, parts) := by
  cases part with
  | nil => exact absurd rfl hpart
  | cons c part => simp [required, hread]

theorem authority?_toDigits {n : Nat} (h : n < capacity 6) :
    authority? (Nat.toDigits 10 n) = some n := by
  have hlower : 'x' ∉ Nat.toDigits 10 n :=
    Numeral.not_mem_toDigits (by decide) fun _ => Nat.digitChar_ne 'x' rfl
  have hupper : 'X' ∉ Nat.toDigits 10 n :=
    Numeral.not_mem_toDigits (by decide) fun _ => Nat.digitChar_ne 'X' rfl
  unfold authority?
  split
  · next hdigits =>
    rw [hdigits] at hlower
    simp at hlower
  · next hdigits =>
    rw [hdigits] at hupper
    simp at hupper
  · exact Numeral.unsignedBelow?_toDigits (by decide) (by decide) h

/-- Either way of writing an authority is read. -/
theorem authority?_authorityDigits (authority : BitVec 48) :
    authority? (authorityDigits authority) = some authority.toNat := by
  have hlimit : authority.toNat < capacity 6 := authority.isLt
  unfold authorityDigits
  split
  · exact Numeral.unsignedBelow?_toDigits (by decide) (by decide) hlimit
  · exact authority?_toDigits hlimit

theorem subNumbers_toDigits (room : Nat) (subs : List UInt32) :
    subNumbers room (subs.map fun sub => Nat.toDigits 10 sub.toNat) =
      if subs.length ≤ room then .ok subs else .error .tooManySubAuthorities := by
  induction subs generalizing room with
  | nil => simp [subNumbers]
  | cons sub subs ih =>
    cases room with
    | zero => rfl
    | succ room =>
      have hsub : unsignedBelow? 10 (capacity 4) (Nat.toDigits 10 sub.toNat) = some sub.toNat :=
        Numeral.unsignedBelow?_toDigits (by decide) (by decide) sub.toNat_lt
      simp only [List.map_cons, subNumbers, hsub, ih, List.length_cons, Nat.add_le_add_iff_right,
        UInt32.ofNat_toNat]
      split
      · rfl
      · rfl

/-- An identifier is made of its own values again. -/
theorem ofParts_toNat (sid : Sid) :
    ofParts (UInt8.ofNat sid.revision.toNat) sid.authority.toNat sid.subAuthorities = sid := by
  rw [ofParts, UInt8.ofNat_toNat, BitVec.ofNat_toNat, BitVec.setWidth_eq]

theorem ofComponents_parts (sid : Sid) :
    ofComponents sid.parts =
      if sid.subAuthorities.length ≤ maxSubAuthorities then .ok sid
      else .error .tooManySubAuthorities := by
  have hrevision : unsignedBelow? 10 (capacity 1) (Nat.toDigits 10 sid.revision.toNat) =
      some sid.revision.toNat :=
    Numeral.unsignedBelow?_toDigits (by decide) (by decide) sid.revision.toNat_lt
  simp only [parts, ofComponents, true_or, if_true, ok_bind,
    required_cons Nat.toDigits_ne_nil hrevision,
    required_cons (authorityDigits_ne_nil _) (authority?_authorityDigits _), subNumbers_toDigits]
  split
  · exact congrArg Except.ok (ofParts_toNat sid)
  · rfl

/-- The text of an identifier names it, unless it has too many sub-authorities for a text. -/
theorem parse_text (sid : Sid) :
    parse sid.text =
      if sid.subAuthorities.length ≤ maxSubAuthorities then .ok sid
      else .error ⟨.tooManySubAuthorities, sid.text⟩ := by
  rw [parse, splitOn_trim_text, ofComponents_parts]
  split
  · rfl
  · rfl

/-- Different identifiers have different texts, however many sub-authorities they have. -/
theorem text_injective : Function.Injective text := by
  intro a b h
  have hparts : a.parts = b.parts := by rw [← splitOn_trim_text, h, splitOn_trim_text]
  have hdigits : Function.Injective (Nat.toDigits 10) :=
    Numeral.toDigits_injective (by decide) (by decide)
  simp only [parts, List.cons.injEq] at hparts
  obtain ⟨-, hrevision, hauthority, hsubs⟩ := hparts
  have hrevision : a.revision = b.revision := UInt8.toNat_inj.mp (hdigits hrevision)
  have hauthority : a.authority = b.authority := by
    apply BitVec.eq_of_toNat_eq
    apply Option.some.inj
    rw [← authority?_authorityDigits, hauthority, authority?_authorityDigits]
  have hsubs : a.subAuthorities = b.subAuthorities :=
    (List.map_inj_right fun _ _ h => UInt32.toNat_inj.mp (hdigits h)).mp hsubs
  cases a
  cases b
  simp_all

/-- Every text begins with the same letter. -/
theorem head?_text (sid : Sid) : sid.text.toList.head? = some 'S' := by
  rw [toList_text, parts, Text.intercalate_cons]
  rfl

theorem wireOfText_text {sid : Sid} (h : sid.subAuthorities.length ≤ maxSubAuthorities) :
    wireOfText sid.text = .ok sid.encode := by
  rw [wireOfText, parse_text, if_pos h]

theorem isNamedBy_text_iff (sid : Sid) :
    sid.isNamedBy sid.text = true ↔ sid.subAuthorities.length ≤ maxSubAuthorities := by
  rw [isNamedBy_iff, parse_text]
  split_ifs with h
  · exact ⟨fun _ => h, fun _ => rfl⟩
  · exact ⟨nofun, fun hfew => absurd hfew h⟩

/-- The text of an identifier is read back as the identifier, and leads to its wire form, when it
has at most fifteen sub-authorities; with more of them it is refused for their number. No two
identifiers share a text. -/
theorem text_reads_back (sid : Sid) :
    parse sid.text =
        (if sid.subAuthorities.length ≤ 15 then .ok sid
          else .error ⟨.tooManySubAuthorities, sid.text⟩) ∧
      (sid.isNamedBy sid.text = true ↔ sid.subAuthorities.length ≤ 15) ∧
      wireOfText sid.text =
        (if sid.subAuthorities.length ≤ 15 then .ok sid.encode
          else .error (.invalidSid ⟨.tooManySubAuthorities, sid.text⟩)) ∧
      ∀ other : Sid, other.text = sid.text ↔ other = sid := by
  refine ⟨parse_text sid, isNamedBy_text_iff sid, ?_, fun other => text_injective.eq_iff⟩
  split_ifs with h
  · exact wireOfText_text h
  · rw [wireOfText, parse_text, maxSubAuthorities, if_neg h]

end Sid
end AccessControl
