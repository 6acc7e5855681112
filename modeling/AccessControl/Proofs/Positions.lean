import AccessControl.Proofs.Reading

/-!
# Reading at positions

A cursor inside an extent stands at a position of the bytes. A reader covers so many bytes
there when it succeeds exactly if the extent has them, moves past them and gives a value that
they describe. Readers that follow each other cover the bytes of both.
-/

namespace AccessControl

variable {α β : Type}

theorem getD_drop_take {bytes : List UInt8} {bound position i : Nat} (h : position + i < bound) :
    ((bytes.take bound).drop position).getD i 0 = bytes.getD (position + i) 0 := by
  simp only [List.getD_eq_getElem?_getD, List.getElem?_drop, List.getElem?_take_of_lt h]

theorem stretch_drop_take {bytes : List α} {bound position i n : Nat}
    (h : position + i + n ≤ bound) :
    stretch ((bytes.take bound).drop position) i n = stretch bytes (position + i) n := by
  rw [stretch, stretch, List.drop_drop, List.drop_take, List.take_take,
    Nat.min_eq_left (by omega)]

theorem stretch_take {xs : List α} {bound i n : Nat} (h : i + n ≤ bound) :
    stretch (xs.take bound) i n = stretch xs i n := by
  rw [stretch, stretch, List.drop_take, List.take_take, Nat.min_eq_left (by omega)]

theorem getD_stretch (bytes : List UInt8) (position : Nat) :
    (stretch bytes position 1).getD 0 0 = bytes.getD position 0 := by
  simp [stretch, List.getD_eq_getElem?_getD]

theorem drop_take_eq_stretch (bytes : List α) (bound position : Nat) :
    (bytes.take bound).drop position = stretch bytes position (bound - position) :=
  List.drop_take

namespace Cursor

/-- The cursor at a position of the bytes, inside the extent that ends at `bound`. -/
def within (bytes : List UInt8) (bound position : Nat) : Cursor :=
  ⟨position, (bytes.take bound).drop position⟩

theorem within_length_zero (bytes : List UInt8) :
    within bytes bytes.length 0 = ofBytes bytes := by
  rw [within, List.take_length, List.drop_zero, ofBytes]

structure Covers (read : Cursor → Except DecodeError (α × Cursor)) (bytes : List UInt8)
    (bound position width : Nat) (describes : α → Prop) : Prop where
  total : position + width ≤ bound →
    ∃ a, read (within bytes bound position) = .ok (a, within bytes bound (position + width))
  sound : position ≤ bound → ∀ {a : α} {d : Cursor},
    read (within bytes bound position) = .ok (a, d) →
      position + width ≤ bound ∧ describes a ∧ d = within bytes bound (position + width)

variable {bytes : List UInt8} {bound position width : Nat}

theorem le_length_within_iff (hbound : bound ≤ bytes.length) (hposition : position ≤ bound)
    {n : Nat} : n ≤ (within bytes bound position).remaining.length ↔ position + n ≤ bound := by
  simp only [within, List.length_drop, List.length_take]
  omega

theorem skip_within_eq_ok_iff (hbound : bound ≤ bytes.length) (hposition : position ≤ bound)
    {n : Nat} {field : Field} {d : Cursor} :
    (within bytes bound position).skip n field = .ok d ↔
      position + n ≤ bound ∧ d = within bytes bound (position + n) := by
  rw [skip_eq_ok_iff, le_length_within_iff hbound hposition, within, within, List.drop_drop]

theorem take_within_eq_ok_iff (hbound : bound ≤ bytes.length) (hposition : position ≤ bound)
    {n : Nat} {field : Field} {taken : List UInt8} {d : Cursor} :
    (within bytes bound position).take n field = .ok (taken, d) ↔
      position + n ≤ bound ∧ taken = stretch bytes position n ∧
        d = within bytes bound (position + n) := by
  rw [take_eq_ok_iff, le_length_within_iff hbound hposition]
  refine and_congr_right fun h => ?_
  have htake : (within bytes bound position).remaining.take n = stretch bytes position n := by
    rw [within, List.drop_take, List.take_take, Nat.min_eq_left (by omega), stretch]
  rw [htake, within, within, List.drop_drop]

namespace Covers

variable {read : Cursor → Except DecodeError (α × Cursor)} {describes : α → Prop}

theorem described (h : Covers read bytes bound position width describes)
    (hfits : position + width ≤ bound) :
    ∃ a, describes a ∧
      read (within bytes bound position) = .ok (a, within bytes bound (position + width)) := by
  obtain ⟨a, ha⟩ := h.total hfits
  obtain ⟨-, hd, -⟩ := h.sound (by omega) ha
  exact ⟨a, hd, ha⟩

/-- The second reader may depend on the first value, but not the number of bytes it covers. -/
theorem bind {next : α × Cursor → Except DecodeError (β × Cursor)} {width' : Nat}
    {result : β → Prop} (h : Covers read bytes bound position width describes)
    (hnext : ∀ a, describes a →
      Covers (fun c => next (a, c)) bytes bound (position + width) width' result) :
    Covers (fun c => read c >>= next) bytes bound position (width + width') result where
  total := by
    intro hfits
    obtain ⟨a, ha, hread⟩ := h.described (by omega)
    obtain ⟨b, hb⟩ := (hnext a ha).total (by omega)
    exact ⟨b, by simp only [hread, ok_bind, hb, Nat.add_assoc]⟩
  sound := by
    intro hposition b d hread
    obtain ⟨⟨a, c⟩, ha, hb⟩ := bind_eq_ok_iff.mp hread
    obtain ⟨hfits, hdescribes, rfl⟩ := h.sound hposition ha
    obtain ⟨hfits', hresult, rfl⟩ := (hnext a hdescribes).sound hfits hb
    rw [Nat.add_assoc] at hfits' ⊢
    exact ⟨hfits', hresult, rfl⟩

theorem pure {a : α} (h : describes a) :
    Covers (fun c => .ok (a, c)) bytes bound position 0 describes where
  total := fun _ => ⟨a, rfl⟩
  sound := by
    rintro hposition _ _ ⟨⟩
    exact ⟨hposition, h, rfl⟩

/-- The second step reads nothing. -/
theorem bind_ok {next : α × Cursor → Except DecodeError (β × Cursor)} {result : β → Prop}
    (h : Covers read bytes bound position width describes)
    (hnext : ∀ a, describes a → ∃ b, result b ∧ ∀ c, next (a, c) = .ok (b, c)) :
    Covers (fun c => read c >>= next) bytes bound position width result := by
  rw [← Nat.add_zero width]
  refine h.bind fun a ha => ?_
  obtain ⟨b, hb, hnext⟩ := hnext a ha
  simp only [hnext]
  exact pure hb

end Covers

/-- A field of fixed width is described by the bytes that it covers. -/
theorem covers_take (hbound : bound ≤ bytes.length) (n : Nat) (field : Field)
    (ofBytes : List UInt8 → α) (describes : List UInt8 → α → Prop)
    (hdescribes : ∀ taken, taken.length = n → describes taken (ofBytes taken)) :
    Covers (fun c => (c.take n field).map fun (bytes, c) => (ofBytes bytes, c)) bytes bound
      position n (describes (stretch bytes position n)) where
  total := by
    intro hfits
    have ht : (within bytes bound position).take n field =
        .ok (stretch bytes position n, within bytes bound (position + n)) :=
      (take_within_eq_ok_iff hbound (by omega)).mpr ⟨hfits, rfl, rfl⟩
    exact ⟨ofBytes (stretch bytes position n), by rw [ht]; rfl⟩
  sound := by
    intro hposition a d h
    obtain ⟨⟨taken, e⟩, ht, h⟩ := exceptMap_eq_ok_iff.mp h
    obtain ⟨rfl, rfl⟩ := Prod.mk.inj h
    obtain ⟨hfits, rfl, hd⟩ := (take_within_eq_ok_iff hbound hposition).mp ht
    exact ⟨hfits, hdescribes _ (length_stretch (by omega)), hd⟩

theorem byte_covers (hbound : bound ≤ bytes.length) (field : Field) :
    Covers (fun c => c.byte field) bytes bound position 1 fun b => b = bytes.getD position 0 := by
  rw [← getD_stretch]
  refine covers_take hbound 1 field (fun taken => UInt8.ofNat (ByteOrder.ofLittle taken))
    (fun taken b => b = taken.getD 0 0) ?_
  intro taken htaken
  obtain ⟨b, rfl⟩ := List.length_eq_one_iff.mp htaken
  exact (ByteOrder.byte_eq_iff htaken).mpr rfl

theorem wordLittle_covers (hbound : bound ≤ bytes.length) (field : Field) :
    Covers (fun c => c.wordLittle field) bytes bound position 2
      fun w => w.toNat = ByteOrder.ofLittle (stretch bytes position 2) :=
  covers_take hbound 2 field (fun taken => UInt16.ofNat (ByteOrder.ofLittle taken))
    (fun taken w => w.toNat = ByteOrder.ofLittle taken) fun _ => ByteOrder.toNat_word

theorem longLittle_covers (hbound : bound ≤ bytes.length) (field : Field) :
    Covers (fun c => c.longLittle field) bytes bound position 4
      fun w => w.toNat = ByteOrder.ofLittle (stretch bytes position 4) :=
  covers_take hbound 4 field (fun taken => UInt32.ofNat (ByteOrder.ofLittle taken))
    (fun taken w => w.toNat = ByteOrder.ofLittle taken) fun _ => ByteOrder.toNat_long

theorem longBig_covers (hbound : bound ≤ bytes.length) (field : Field) :
    Covers (fun c => c.longBig field) bytes bound position 4
      fun w => w.toNat = ByteOrder.ofBig (stretch bytes position 4) :=
  covers_take hbound 4 field (fun taken => UInt32.ofNat (ByteOrder.ofBig taken))
    (fun taken w => w.toNat = ByteOrder.ofBig taken) fun _ => ByteOrder.toNat_longBig

theorem guid_covers (hbound : bound ≤ bytes.length) (field : Field) :
    Covers (fun c => c.guid field) bytes bound position 16
      fun guid => guid.toWire = stretch bytes position 16 where
  total := by
    intro hfits
    have hlength : (stretch bytes position 16).length = 16 := length_stretch (by omega)
    refine ⟨Guid.ofWire (stretch bytes position 16) hlength, ?_⟩
    rw [guid_eq_ok_iff, Guid.encodedLength, take_within_eq_ok_iff hbound (by omega),
      Guid.toWire_ofWire]
    exact ⟨hfits, rfl, rfl⟩
  sound := by
    intro hposition guid d h
    exact (take_within_eq_ok_iff hbound hposition).mp (guid_eq_ok_iff.mp h)

end Cursor
end AccessControl
