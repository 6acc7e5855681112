import AccessControl.Guid
import AccessControl.Proofs.Text.Separation

/-!
# The text form of object type identifiers

Sixteen bytes are thirty-two hexadecimal digits in five groups with dashes between them. The
groups are found again at the dashes, and the digits give back the bytes.
-/

namespace AccessControl

namespace Hex

theorem exists_digit_of_mem_encode {bytes : List UInt8} {c : Char} (h : c ∈ encode bytes) :
    ∃ d < 16, c = Nat.digitChar d := by
  obtain ⟨b, -, hc⟩ := List.mem_flatMap.mp h
  have hb : b.toNat < 256 := b.toNat_lt
  simp only [pair, List.mem_cons, List.not_mem_nil, or_false] at hc
  rcases hc with rfl | rfl
  · exact ⟨b.toNat / 16, by omega, rfl⟩
  · exact ⟨b.toNat % 16, by omega, rfl⟩

theorem text_injective : Function.Injective text := by
  intro a b h
  have hchars : encode a = encode b := String.ofList_injective h
  apply Option.some.inj
  rw [← decode?_encode, hchars, decode?_encode]

end Hex

namespace Guid

variable {cs : List Char}

theorem flatten_cut {widths : List Nat} (h : cs.length = widths.foldr (· + ·) 0) :
    (cut widths cs).flatten = cs := by
  induction widths generalizing cs with
  | nil => exact (List.eq_nil_of_length_eq_zero h).symm
  | cons width widths ih =>
    have hrest : (cs.drop width).length = widths.foldr (· + ·) 0 := by
      rw [List.length_drop, h, List.foldr_cons, Nat.add_sub_cancel_left]
    rw [cut, List.flatten_cons, ih hrest, List.take_append_drop]

theorem map_length_cut (h : cs.length = 32) :
    (cut groupWidths cs).map List.length = groupWidths := by
  simp [groupWidths, cut, h]

theorem mem_of_mem_cut {widths : List Nat} {group : List Char} (h : group ∈ cut widths cs) :
    ∀ c ∈ group, c ∈ cs := by
  induction widths generalizing cs with
  | nil => cases h
  | cons width widths ih =>
    rcases List.mem_cons.mp h with rfl | hrest
    · intro c hc
      exact List.mem_of_mem_take hc
    · intro c hc
      exact List.mem_of_mem_drop (ih hrest c hc)

theorem exists_digit_of_mem_group {guid : Guid} {group : List Char}
    (h : group ∈ cut groupWidths (Hex.encode guid.bytes)) :
    ∀ c ∈ group, ∃ d < 16, c = Nat.digitChar d := by
  intro c hc
  exact Hex.exists_digit_of_mem_encode (mem_of_mem_cut h c hc)

theorem dash_or_digit_of_mem_chars (guid : Guid) :
    ∀ c ∈ guid.chars, c = '-' ∨ ∃ d < 16, c = Nat.digitChar d := by
  apply Text.forall_mem_intercalate
  · exact List.forall_mem_singleton.mpr (.inl rfl)
  · intro group hgroup c hc
    exact .inr (exists_digit_of_mem_group hgroup c hc)

theorem withoutBraces_of_not_mem (h : '\x7b' ∉ cs) : withoutBraces cs = cs := by
  unfold withoutBraces
  split
  · exact absurd List.mem_cons_self h
  · rfl

/-- The text form is read back. -/
theorem ofChars?_chars (guid : Guid) : ofChars? guid.chars = some guid := by
  have hlength : (Hex.encode guid.bytes).length = 32 := by
    rw [Hex.length_encode, guid.length_bytes]
  have hbrace : '\x7b' ∉ guid.chars := by
    intro hmem
    rcases dash_or_digit_of_mem_chars guid _ hmem with hdash | ⟨d, -, hdigit⟩
    · exact absurd hdash (by decide)
    · exact Nat.digitChar_ne '\x7b' rfl hdigit.symm
  have hflatten : (cut groupWidths (Hex.encode guid.bytes)).flatten = Hex.encode guid.bytes :=
    flatten_cut hlength
  have hgroups : guid.chars.splitOn '-' = cut groupWidths (Hex.encode guid.bytes) := by
    apply List.splitOn_intercalate
    · intro group hgroup hdash
      obtain ⟨d, -, hdigit⟩ := exists_digit_of_mem_group hgroup _ hdash
      exact Nat.digitChar_ne '-' rfl hdigit.symm
    · exact List.cons_ne_nil _ _
  simp only [ofChars?, withoutBraces_of_not_mem hbrace, hgroups, map_length_cut hlength,
    hflatten, if_true, Hex.decode?_encode, Option.bind_some, guid.length_bytes, dif_pos]

theorem text_injective : Function.Injective text := by
  intro a b h
  have hchars : a.chars = b.chars := String.ofList_injective h
  apply Option.some.inj
  rw [← ofChars?_chars, hchars, ofChars?_chars]

end Guid
end AccessControl
