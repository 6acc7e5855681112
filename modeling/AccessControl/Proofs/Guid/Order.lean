import AccessControl.Proofs.Guid.Grammar

/-!
# The order of object type identifiers

Identifiers are compared byte by byte, and their texts character by character. Both comparisons
end alike: the digits of a byte stand with the higher half first and are characters in the order
of their values, and the dashes stand at the same places in every text. So identifiers and texts
are sorted alike, while the bytes on the wire have another order.
-/

namespace AccessControl

/-! ## Comparing lists -/

namespace Text

variable {α : Type} [LT α] {a b r s : List α}

/-- Of fronts of one length, the rest decides only if they are the same. -/
theorem append_lt_append_iff (h : a.length = b.length) :
    a ++ r < b ++ s ↔ a < b ∨ a = b ∧ r < s := by
  induction a generalizing b with
  | nil =>
    rw [List.eq_nil_of_length_eq_zero h.symm]
    simp
  | cons x a ih =>
    cases b with
    | nil => simp at h
    | cons y b =>
      have htail : a.length = b.length := by simpa using h
      rw [List.cons_append, List.cons_append, List.cons_lt_cons_iff, List.cons_lt_cons_iff,
        ih htail, List.cons.injEq, and_or_left, or_assoc, and_assoc]

/-- Elements may be renamed if that keeps their order. -/
theorem map_lt_map_iff {β : Type} [LT β] {f : α → β}
    (h : ∀ x ∈ a, ∀ y ∈ b, (f x < f y ↔ x < y) ∧ (f x = f y ↔ x = y)) :
    a.map f < b.map f ↔ a < b := by
  induction a generalizing b with
  | nil => cases b <;> simp
  | cons x a ih =>
    cases b with
    | nil => simp
    | cons y b =>
      obtain ⟨hlt, heq⟩ := h x List.mem_cons_self y List.mem_cons_self
      have htail := ih fun x hx y hy => h x (List.mem_cons_of_mem _ hx) y (List.mem_cons_of_mem _ hy)
      rw [List.map_cons, List.map_cons, List.cons_lt_cons_iff, List.cons_lt_cons_iff, hlt, heq,
        htail]

variable [Std.Irrefl fun x y : α => x < y] {separator : List α} {ps qs : List (List α)}

theorem flatMap_separated_lt_iff (h : ps.map List.length = qs.map List.length) :
    ps.flatMap (separator ++ ·) < qs.flatMap (separator ++ ·) ↔ ps.flatten < qs.flatten := by
  induction ps generalizing qs with
  | nil =>
    rw [List.map_eq_nil_iff.mp h.symm]
    rfl
  | cons p ps ih =>
    cases qs with
    | nil => simp at h
    | cons q qs =>
      rw [List.map_cons, List.map_cons, List.cons.injEq] at h
      rw [List.flatMap_cons, List.flatMap_cons, List.append_assoc, List.append_assoc,
        append_lt_append_iff rfl, append_lt_append_iff h.1, ih h.2, List.flatten_cons,
        List.flatten_cons, append_lt_append_iff h.1]
      simp [List.lt_irrefl]

/-- Parts of the same lengths, joined by a separator, are compared as without it. -/
theorem intercalate_lt_intercalate_iff (h : ps.map List.length = qs.map List.length) :
    separator.intercalate ps < separator.intercalate qs ↔ ps.flatten < qs.flatten := by
  cases ps with
  | nil =>
    rw [List.map_eq_nil_iff.mp h.symm]
    rfl
  | cons p ps =>
    cases qs with
    | nil => simp at h
    | cons q qs =>
      rw [List.map_cons, List.map_cons, List.cons.injEq] at h
      rw [intercalate_cons, intercalate_cons, append_lt_append_iff h.1,
        flatMap_separated_lt_iff h.2, List.flatten_cons, List.flatten_cons,
        append_lt_append_iff h.1]

end Text

/-! ## Comparing digits -/

namespace Hex

theorem digitChar_lt_iff {d e : Nat} (hd : d < 16) (he : e < 16) :
    Nat.digitChar d < Nat.digitChar e ↔ d < e := by
  have hall : ∀ d < 16, ∀ e < 16, (Nat.digitChar d < Nat.digitChar e ↔ d < e) := by decide
  exact hall d hd e he

theorem digitChar_inj {d e : Nat} (hd : d < 16) (he : e < 16) :
    Nat.digitChar d = Nat.digitChar e ↔ d = e := by
  have hall : ∀ d < 16, ∀ e < 16, (Nat.digitChar d = Nat.digitChar e ↔ d = e) := by decide
  exact hall d hd e he

/-- The first difference may be in either half of a byte. -/
theorem pair_append_lt_iff {x y : UInt8} {r s : List Char} :
    pair x ++ r < pair y ++ s ↔ x < y ∨ x = y ∧ r < s := by
  have hhalves : ∀ z : UInt8, z.toNat / 16 < 16 ∧ z.toNat % 16 < 16 := by
    intro z
    have hz : z.toNat < 256 := z.toNat_lt
    omega
  have hlt : x < y ↔ x.toNat / 16 < y.toNat / 16 ∨
      x.toNat / 16 = y.toNat / 16 ∧ x.toNat % 16 < y.toNat % 16 := by
    rw [UInt8.lt_iff_toNat_lt]
    omega
  have heq : x = y ↔ x.toNat / 16 = y.toNat / 16 ∧ x.toNat % 16 = y.toNat % 16 := by
    rw [← UInt8.toNat_inj]
    omega
  simp only [pair, List.cons_append, List.nil_append, List.cons_lt_cons_iff,
    digitChar_lt_iff (hhalves x).1 (hhalves y).1, digitChar_lt_iff (hhalves x).2 (hhalves y).2,
    digitChar_inj (hhalves x).1 (hhalves y).1, digitChar_inj (hhalves x).2 (hhalves y).2]
  rw [hlt, heq, and_or_left, or_assoc, and_assoc]

theorem encode_lt_encode_iff {a b : List UInt8} : encode a < encode b ↔ a < b := by
  induction a generalizing b with
  | nil => cases b <;> simp [encode, pair]
  | cons x a ih =>
    cases b with
    | nil => simp [encode, pair]
    | cons y b =>
      have hcons : ∀ (z : UInt8) (c : List UInt8), encode (z :: c) = pair z ++ encode c :=
        fun _ _ => rfl
      rw [hcons, hcons, pair_append_lt_iff, ih, List.cons_lt_cons_iff]

end Hex

/-! ## Comparing identifiers -/

namespace Guid

variable {g h : Guid}

theorem chars_lt_iff : g.chars < h.chars ↔ g < h := by
  have hlength : ∀ guid : Guid, (Hex.encode guid.bytes).length = 32 := by
    intro guid
    rw [Hex.length_encode, guid.length_bytes]
  have hwidths : (cut groupWidths (Hex.encode g.bytes)).map List.length =
      (cut groupWidths (Hex.encode h.bytes)).map List.length := by
    rw [map_length_cut (hlength g), map_length_cut (hlength h)]
  rw [chars, chars, Text.intercalate_lt_intercalate_iff hwidths, flatten_cut (hlength g),
    flatten_cut (hlength h), Hex.encode_lt_encode_iff]
  rfl

theorem text_lt_iff : g.text < h.text ↔ g < h := by
  change g.text.toList < h.text.toList ↔ g < h
  rw [text, text, String.toList_ofList, String.toList_ofList, chars_lt_iff]

theorem text_le_iff : g.text ≤ h.text ↔ g ≤ h := by
  rw [← String.not_lt, text_lt_iff]
  rfl

/-- All characters of a text are single bytes. -/
theorem utf8EncodeChar_of_mem_chars {guid : Guid} {c : Char} (hc : c ∈ guid.chars) :
    String.utf8EncodeChar c = [UInt8.ofNat c.toNat] ∧ c.toNat < 256 := by
  have hdigits : ∀ d < 16, String.utf8EncodeChar (Nat.digitChar d) =
      [UInt8.ofNat (Nat.digitChar d).toNat] ∧ (Nat.digitChar d).toNat < 256 := by decide
  rcases dash_or_digit_of_mem_chars guid c hc with rfl | ⟨d, hd, rfl⟩
  · decide
  · exact hdigits d hd

theorem utf8_text (guid : Guid) :
    Text.utf8 guid.text = guid.chars.map fun c => UInt8.ofNat c.toNat := by
  rw [Text.utf8, text, String.toList_ofList, List.map_eq_flatMap]
  exact List.flatMap_congr fun c hc => (utf8EncodeChar_of_mem_chars hc).1

theorem utf8_text_lt_iff : Text.utf8 g.text < Text.utf8 h.text ↔ g < h := by
  rw [utf8_text, utf8_text, ← chars_lt_iff]
  apply Text.map_lt_map_iff
  intro c hc d hd
  have hbyte : ∀ {guid : Guid} {c : Char}, c ∈ guid.chars →
      (UInt8.ofNat c.toNat).toNat = c.toNat := fun hc =>
    UInt8.toNat_ofNat_of_lt' (utf8EncodeChar_of_mem_chars hc).2
  rw [UInt8.lt_iff_toNat_lt, ← UInt8.toNat_inj, hbyte hc, hbyte hd, Char.toNat_inj]
  exact ⟨Iff.rfl, Iff.rfl⟩

/-- However identifiers and texts are sorted, the same texts come out. -/
theorem map_text_of_sorted {guids sorted : List Guid} {texts : List String}
    (hsorted : sorted.Perm guids) (hguids : sorted.Pairwise (· ≤ ·))
    (hperm : texts.Perm (guids.map text)) (htexts : texts.Pairwise (· ≤ ·)) :
    sorted.map text = texts := by
  have hmap : (sorted.map text).Pairwise (· ≤ ·) := by
    rw [List.pairwise_map]
    exact hguids.imp text_le_iff.mpr
  have hsame : (sorted.map text).Perm texts := (hsorted.map text).trans hperm.symm
  exact hsame.eq_of_pairwise (fun _ _ _ _ => String.le_antisymm) hmap htexts

/-- The order of identifiers is that of their texts, in characters and in bytes, and not that of
the wire; identifiers and their texts are sorted alike. -/
theorem order_of_texts :
    (∀ g h : Guid, (g < h ↔ g.text < h.text) ∧ (g = h ↔ g.text = h.text)) ∧
      (∀ g h : Guid, g < h ↔ Text.utf8 g.text < Text.utf8 h.text) ∧
      (∃ g h : Guid, g < h ∧ h.toWire < g.toWire) ∧
      (∀ guids : List Guid, (guids.mergeSort fun g h => decide (g ≤ h)).map text =
        (guids.map text).mergeSort fun s t => decide (s ≤ t)) ∧
      ∀ (guids sorted : List Guid) (texts : List String), sorted.Perm guids →
        sorted.Pairwise (· ≤ ·) → texts.Perm (guids.map text) → texts.Pairwise (· ≤ ·) →
          sorted.map text = texts := by
  refine ⟨?_, fun g h => utf8_text_lt_iff.symm, ?_, ?_, ?_⟩
  · intro g h
    exact ⟨text_lt_iff.symm, text_injective.eq_iff.symm⟩
  · -- In the first group the wire has the last byte in front.
    refine ⟨⟨[0, 0, 0, 1, 0, 0, 0, 0, 0, 0, 0, 0, 0, 0, 0, 0], rfl⟩,
      ⟨[0, 0, 1, 0, 0, 0, 0, 0, 0, 0, 0, 0, 0, 0, 0, 0], rfl⟩, ?_, ?_⟩ <;> decide
  · intro guids
    exact List.map_mergeSort fun g _ h _ => decide_eq_decide.mpr text_le_iff.symm
  · intro guids sorted texts
    exact map_text_of_sorted

/-- The class of computers differs from that of users in the last byte of its first group. -/
def computerClass : Guid :=
  ⟨[0xBF, 0x96, 0x7A, 0x86, 0x0D, 0xE6, 0x11, 0xD0, 0xA2, 0x85, 0x00, 0xAA, 0x00, 0x30, 0x49, 0xE2],
    rfl⟩

theorem order_of_texts_classes :
    computerClass.text < (ofWire userClass rfl).text ∧
      [computerClass, ofWire userClass rfl].map text =
        ["bf967a86-0de6-11d0-a285-00aa003049e2", "bf967aba-0de6-11d0-a285-00aa003049e2"] := by
  obtain ⟨horder, -, -, -, hsorted⟩ := order_of_texts
  have hlt : computerClass < ofWire userClass rfl := by decide
  refine ⟨(horder _ _).1.mp hlt, ?_⟩
  apply hsorted [ofWire userClass rfl, computerClass]
  · exact List.Perm.swap _ _ _
  · decide
  · exact List.Perm.swap _ _ _
  · decide

end Guid
end AccessControl
