import AccessControl.Cursor
import AccessControl.Outcome

/-!
# Reading what was written

A reader and a way of writing belong together when the reader succeeds exactly on bytes
that begin with the written form of a value, gives that value, and stops behind its form.
Whatever follows is then left alone, and nothing else is accepted. The readers of single
fields belong to the byte orders in this way.
-/

namespace AccessControl
namespace Cursor

/-- Values that are not `valid` have a written form that the reader does not give back. -/
structure Reads {α : Type} (read : Cursor → Except DecodeError (α × Cursor))
    (write : α → List UInt8) (valid : α → Prop) : Prop where
  written : ∀ {a : α}, valid a → ∀ (position : Nat) (rest : List UInt8),
    read ⟨position, write a ++ rest⟩ = .ok (a, ⟨position + (write a).length, rest⟩)
  accepted : ∀ {c : Cursor} {a : α} {d : Cursor}, read c = .ok (a, d) →
    valid a ∧ c.remaining = write a ++ d.remaining ∧ d.position = c.position + (write a).length

theorem take_eq_ok_iff_append {c d : Cursor} {n : Nat} {field : Field} {taken : List UInt8} :
    c.take n field = .ok (taken, d) ↔
      taken.length = n ∧ c.remaining = taken ++ d.remaining ∧ d.position = c.position + n := by
  rw [take_eq_ok_iff]
  constructor
  · rintro ⟨h, rfl, rfl⟩
    exact ⟨List.length_take_of_le h, (List.take_append_drop n c.remaining).symm, rfl⟩
  · rintro ⟨rfl, h, hp⟩
    cases d
    simp_all

theorem skip_eq_ok_iff {c d : Cursor} {n : Nat} {field : Field} :
    c.skip n field = .ok d ↔
      n ≤ c.remaining.length ∧ d = ⟨c.position + n, c.remaining.drop n⟩ := by
  by_cases h : n ≤ c.remaining.length
  · simp [skip, take_of_le field h, h, Except.map, eq_comm]
  · simp [skip, take_of_lt field (Nat.not_le.mp h), h, Except.map]

theorem skip_append {n : Nat} {taken : List UInt8} (h : taken.length = n) (position : Nat)
    (rest : List UInt8) (field : Field) :
    skip ⟨position, taken ++ rest⟩ n field = .ok ⟨position + n, rest⟩ := by
  rw [skip_eq_ok_iff]
  exact ⟨by simp [h], by simp [List.drop_left' h]⟩

/-- Only a lack of bytes keeps a field from being taken. -/
theorem take_eq_error_iff {c : Cursor} {n : Nat} {field : Field} {e : DecodeError} :
    c.take n field = .error e ↔
      c.remaining.length < n ∧ e = .truncated field c.position n c.remaining.length := by
  by_cases h : n ≤ c.remaining.length
  · simp [take_of_le field h, Nat.not_lt.mpr h]
  · simp [take_of_lt field (Nat.not_le.mp h), Nat.not_le.mp h, eq_comm]

/-- A field of fixed width reads what it writes if its value and its bytes determine each
other. -/
theorem reads_take {α : Type} (n : Nat) (field : Field) (ofBytes : List UInt8 → α)
    (write : α → List UInt8) (hlength : ∀ a, (write a).length = n)
    (hvalue : ∀ bytes a, bytes.length = n → (ofBytes bytes = a ↔ bytes = write a)) :
    Reads (fun c => (c.take n field).map fun (bytes, c) => (ofBytes bytes, c)) write
      fun _ => True where
  written := by
    intro a _ position rest
    have ht : take ⟨position, write a ++ rest⟩ n field = .ok (write a, ⟨position + n, rest⟩) :=
      take_eq_ok_iff_append.mpr ⟨hlength a, rfl, rfl⟩
    simp [ht, hlength, (hvalue _ a (hlength a)).mpr rfl]
  accepted := by
    intro c a d h
    obtain ⟨⟨taken, e⟩, ht, h⟩ := exceptMap_eq_ok_iff.mp h
    obtain ⟨ha, rfl⟩ := Prod.mk.inj h
    obtain ⟨hl, hr, hp⟩ := take_eq_ok_iff_append.mp ht
    rw [← (hvalue _ _ hl).mp ha]
    exact ⟨trivial, hr, hl ▸ hp⟩

theorem byte_reads (field : Field) : Reads (fun c => c.byte field) (fun b => [b]) fun _ => True :=
  reads_take 1 field _ _ (fun _ => rfl) fun _ _ => ByteOrder.byte_eq_iff

theorem wordLittle_reads (field : Field) :
    Reads (fun c => c.wordLittle field) (fun w => ByteOrder.toLittle 2 w.toNat) fun _ => True :=
  reads_take 2 field _ _ (fun _ => by simp) fun _ _ => ByteOrder.word_eq_iff

theorem longLittle_reads (field : Field) :
    Reads (fun c => c.longLittle field) (fun w => ByteOrder.toLittle 4 w.toNat) fun _ => True :=
  reads_take 4 field _ _ (fun _ => by simp) fun _ _ => ByteOrder.long_eq_iff

theorem longBig_reads (field : Field) :
    Reads (fun c => c.longBig field) (fun w => ByteOrder.toBig 4 w.toNat) fun _ => True :=
  reads_take 4 field _ _ (fun _ => by simp) fun _ _ => ByteOrder.longBig_eq_iff

@[simp] theorem byte_cons (position : Nat) (b : UInt8) (rest : List UInt8) (field : Field) :
    byte ⟨position, b :: rest⟩ field = .ok (b, ⟨position + 1, rest⟩) :=
  (byte_reads field).written trivial position rest

@[simp] theorem wordLittle_append (position : Nat) (w : UInt16) (rest : List UInt8)
    (field : Field) : wordLittle ⟨position, ByteOrder.toLittle 2 w.toNat ++ rest⟩ field =
      .ok (w, ⟨position + 2, rest⟩) := by
  simpa using (wordLittle_reads field).written (a := w) trivial position rest

@[simp] theorem longLittle_append (position : Nat) (w : UInt32) (rest : List UInt8)
    (field : Field) : longLittle ⟨position, ByteOrder.toLittle 4 w.toNat ++ rest⟩ field =
      .ok (w, ⟨position + 4, rest⟩) := by
  simpa using (longLittle_reads field).written (a := w) trivial position rest

@[simp] theorem longBig_append (position : Nat) (w : UInt32) (rest : List UInt8)
    (field : Field) : longBig ⟨position, ByteOrder.toBig 4 w.toNat ++ rest⟩ field =
      .ok (w, ⟨position + 4, rest⟩) := by
  simpa using (longBig_reads field).written (a := w) trivial position rest

theorem guid_eq_ok_iff {c d : Cursor} {field : Field} {guid : Guid} :
    c.guid field = .ok (guid, d) ↔ c.take Guid.encodedLength field = .ok (guid.toWire, d) := by
  by_cases h : Guid.encodedLength ≤ c.remaining.length
  · simp only [Cursor.guid, block, dif_pos h, take_of_le field h, Except.map, Except.ok.injEq,
      Prod.mk.injEq]
    exact and_congr_left fun _ => Guid.ofWire_eq_iff
  · simp [Cursor.guid, block, take_of_lt field (Nat.not_le.mp h), h, Except.map]

theorem guid_eq_error_iff {c : Cursor} {field : Field} {e : DecodeError} :
    c.guid field = .error e ↔ c.take Guid.encodedLength field = .error e := by
  rw [Cursor.guid, exceptMap_eq_error_iff, ← block_eq_take, exceptMap_eq_error_iff]

theorem guid_reads (field : Field) :
    Reads (fun c => c.guid field) Guid.toWire fun _ => True where
  written := by
    intro guid _ position rest
    rw [guid_eq_ok_iff, take_eq_ok_iff_append]
    exact ⟨guid.length_toWire, rfl, by rw [guid.length_toWire, Guid.encodedLength]⟩
  accepted := by
    intro c guid d h
    obtain ⟨-, hr, hp⟩ := take_eq_ok_iff_append.mp (guid_eq_ok_iff.mp h)
    exact ⟨trivial, hr, by rw [hp, guid.length_toWire, Guid.encodedLength]⟩

end Cursor

/-! ## Errors of a reader -/

/-- The outcome is no error other than these. -/
def Fails {ε α : Type} (possible : ε → Prop) (outcome : Except ε α) : Prop :=
  ∀ e, outcome = .error e → possible e

namespace Fails

variable {ε δ α β : Type} {possible : ε → Prop} {possible' : δ → Prop} {x : Except ε α}

theorem ok (a : α) : Fails possible (.ok a : Except ε α) := nofun

theorem error {e : ε} (h : possible e) : Fails possible (.error e : Except ε α) := by
  rintro _ ⟨⟩
  exact h

theorem bind {f : α → Except ε β} (h : Fails possible x)
    (hf : ∀ a, x = .ok a → Fails possible (f a)) : Fails possible (x >>= f) := by
  intro e he
  rcases bind_eq_error_iff.mp he with hx | ⟨a, ha, he⟩
  · exact h e hx
  · exact hf a ha e he

theorem map (h : Fails possible x) (f : α → β) : Fails possible (x.map f) := by
  intro e he
  exact h e (exceptMap_eq_error_iff.mp he)

theorem mapError {f : ε → δ} (h : ∀ e, x = .error e → possible' (f e)) :
    Fails possible' (x.mapError f) := by
  cases x with
  | ok a => exact .ok a
  | error e => exact .error (h e rfl)

end Fails

section

variable {possible : DecodeError → Prop} {c : Cursor} {field : Field}

theorem fails_take (n : Nat)
    (h : ∀ offset needed available, possible (.truncated field offset needed available)) :
    Fails possible (c.take n field) := by
  intro e he
  obtain ⟨-, rfl⟩ := Cursor.take_eq_error_iff.mp he
  exact h _ _ _

theorem fails_guid
    (h : ∀ offset needed available, possible (.truncated field offset needed available)) :
    Fails possible (c.guid field) := by
  intro e he
  exact fails_take Guid.encodedLength h e (Cursor.guid_eq_error_iff.mp he)

end

end AccessControl
