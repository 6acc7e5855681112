import AccessControl.Cursor
import AccessControl.Proofs.Checked.Basic

/-!
# Checked reading

A reader keeps all of its bytes and how far it has come, and takes stretches of them by their
positions. As long as it stands inside its bytes it meets no fault, reads what a cursor in its
place reads, and stays inside.
-/

namespace AccessControl

open Checked (Follows)

structure Reader where
  bytes : List UInt8
  position : Nat
deriving DecidableEq

namespace Reader

variable {α : Type}

def ofBytes (bytes : List UInt8) : Reader := ⟨bytes, 0⟩

def remaining (r : Reader) : Checked (List UInt8) := Checked.sliceFrom r.bytes r.position

/-- Everything that is left. -/
def rest (r : Reader) : Checked (List UInt8 × Reader) := do
  let taken ← r.remaining
  return (taken, { r with position := r.bytes.length })

def take (r : Reader) (n : Nat) (field : Field) : Checked (List UInt8 × Reader) := do
  let available ← Checked.difference r.bytes.length r.position
  if available < n then Checked.fail (.truncated field r.position n available)
  else
    let taken ← Checked.slice r.bytes r.position (r.position + n)
    return (taken, { r with position := r.position + n })

def skip (r : Reader) (n : Nat) (field : Field) : Checked Reader := do
  let (_, r) ← r.take n field
  return r

/-- Copies what it takes into a block of `n` bytes. -/
def block (r : Reader) (n : Nat) (field : Field) :
    Checked ({ bytes : List UInt8 // bytes.length = n } × Reader) := do
  let (taken, r) ← r.take n field
  if h : taken.length = n then return (⟨taken, h⟩, r)
  else .fault (.copy n taken.length)

/-- A block of `n` bytes, read as a value. -/
def value (r : Reader) (n : Nat) (field : Field) (ofBytes : List UInt8 → α) :
    Checked (α × Reader) := do
  let (bytes, r) ← r.block n field
  return (ofBytes bytes.val, r)

def byte (r : Reader) (field : Field) : Checked (UInt8 × Reader) :=
  r.value 1 field fun bytes => UInt8.ofNat (ByteOrder.ofLittle bytes)

def wordLittle (r : Reader) (field : Field) : Checked (UInt16 × Reader) :=
  r.value 2 field fun bytes => UInt16.ofNat (ByteOrder.ofLittle bytes)

def longLittle (r : Reader) (field : Field) : Checked (UInt32 × Reader) :=
  r.value 4 field fun bytes => UInt32.ofNat (ByteOrder.ofLittle bytes)

def longBig (r : Reader) (field : Field) : Checked (UInt32 × Reader) :=
  r.value 4 field fun bytes => UInt32.ofNat (ByteOrder.ofBig bytes)

def guid (r : Reader) (field : Field) : Checked (Guid × Reader) := do
  let (⟨bytes, h⟩, r) ← r.block Guid.encodedLength field
  return (Guid.ofWire bytes h, r)

theorem take_of_le {bytes : List UInt8} {position n : Nat} (h : position + n ≤ bytes.length)
    (field : Field) :
    take ⟨bytes, position⟩ n field = pure (stretch bytes position n, ⟨bytes, position + n⟩) := by
  have hposition : position ≤ bytes.length := by omega
  have hn : ¬ bytes.length - position < n := by omega
  rw [take, Checked.difference_of_le hposition, Checked.pure_bind, if_neg hn,
    Checked.slice_of_le (Nat.le_add_right _ _) h, Checked.pure_bind, Nat.add_sub_cancel_left]

theorem take_of_lt {bytes : List UInt8} {position n : Nat} (h : position ≤ bytes.length)
    (hn : bytes.length - position < n) (field : Field) :
    take ⟨bytes, position⟩ n field =
      Checked.fail (.truncated field position n (bytes.length - position)) := by
  rw [take, Checked.difference_of_le h, Checked.pure_bind, if_pos hn]

/-! ## In the place of a cursor -/

/-- A reader and a cursor at the same place inside these bytes. -/
inductive Stands (bytes : List UInt8) : Reader → Cursor → Prop
  | intro {position : Nat} (h : position ≤ bytes.length) :
      Stands bytes ⟨bytes, position⟩ ⟨position, bytes.drop position⟩

/-- The same value, read up to the same place. -/
def Beside (bytes : List UInt8) (x : α × Reader) (y : α × Cursor) : Prop :=
  x.1 = y.1 ∧ Stands bytes x.2 y.2

variable {bytes : List UInt8} {r : Reader} {c : Cursor} {v : Verbosity}

theorem stands_ofBytes (bytes : List UInt8) : Stands bytes (ofBytes bytes) (Cursor.ofBytes bytes) :=
  .intro (Nat.zero_le _)

namespace Stands

theorem position_eq (h : Stands bytes r c) : r.position = c.position := by
  cases h
  rfl

theorem position_le (h : Stands bytes r c) : r.position ≤ bytes.length := by
  cases h
  assumption

theorem remaining_eq (h : Stands bytes r c) : r.remaining = pure c.remaining := by
  cases h with
  | intro h => exact Checked.sliceFrom_of_le h

theorem rest_eq (h : Stands bytes r c) : r.rest = pure (c.rest.1, ⟨bytes, bytes.length⟩) := by
  rw [rest, h.remaining_eq, Checked.pure_bind]
  cases h
  rfl

theorem take_follows (h : Stands bytes r c) (n : Nat) (field : Field) :
    Follows v (Beside bytes) (r.take n field) (Traced.ofExcept (c.take n field)) := by
  cases h with
  | @intro position h =>
    have hlength : (bytes.drop position).length = bytes.length - position := List.length_drop
    by_cases hn : n ≤ bytes.length - position
    · have hstop : position + n ≤ bytes.length := by omega
      rw [take_of_le hstop, Cursor.take_of_le field (hlength ▸ hn), List.drop_drop]
      exact .pure ⟨rfl, .intro hstop⟩
    · have hlt : bytes.length - position < n := Nat.lt_of_not_le hn
      rw [take_of_lt h hlt, Cursor.take_of_lt field (hlength ▸ hlt), hlength]
      exact .fail _

theorem skip_follows (h : Stands bytes r c) (n : Nat) (field : Field) :
    Follows v (Stands bytes) (r.skip n field) (Traced.ofExcept (c.skip n field)) :=
  (h.take_follows n field).map fun _ _ hbeside => hbeside.2

/-- What was taken has the length that was asked for, so it can be copied. -/
theorem block_follows (h : Stands bytes r c) (n : Nat) (field : Field) :
    Follows v (Beside bytes) (r.block n field) (Traced.ofExcept (c.block n field)) := by
  cases h with
  | @intro position h =>
    have hlength : (bytes.drop position).length = bytes.length - position := List.length_drop
    by_cases hn : n ≤ bytes.length - position
    · have hstop : position + n ≤ bytes.length := by omega
      rw [block, take_of_le hstop, Checked.pure_bind, Cursor.block, dif_pos (hlength ▸ hn)]
      simp only [length_stretch hstop, dite_true, List.drop_drop]
      exact .pure ⟨rfl, .intro hstop⟩
    · have hlt : bytes.length - position < n := Nat.lt_of_not_le hn
      rw [block, take_of_lt h hlt, Checked.fail_bind, Cursor.block, dif_neg (hlength ▸ hn), hlength]
      exact .fail _

theorem value_follows (h : Stands bytes r c) (n : Nat) (field : Field)
    (ofBytes : List UInt8 → α) :
    Follows v (Beside bytes) (r.value n field ofBytes)
      (Traced.ofExcept ((c.take n field).map fun (bytes, c) => (ofBytes bytes, c))) := by
  have hblock : (c.take n field).map (fun (bytes, c) => (ofBytes bytes, c)) =
      (c.block n field).map fun read => (ofBytes read.1.val, read.2) := by
    rw [← Cursor.block_eq_take]
    cases c.block n field <;> rfl
  rw [hblock]
  refine (h.block_follows n field).map ?_
  rintro ⟨a, r⟩ ⟨_, c⟩ ⟨rfl, hstands⟩
  exact ⟨rfl, hstands⟩

theorem byte_follows (h : Stands bytes r c) (field : Field) :
    Follows v (Beside bytes) (r.byte field) (Traced.ofExcept (c.byte field)) :=
  h.value_follows 1 field _

theorem wordLittle_follows (h : Stands bytes r c) (field : Field) :
    Follows v (Beside bytes) (r.wordLittle field) (Traced.ofExcept (c.wordLittle field)) :=
  h.value_follows 2 field _

theorem longLittle_follows (h : Stands bytes r c) (field : Field) :
    Follows v (Beside bytes) (r.longLittle field) (Traced.ofExcept (c.longLittle field)) :=
  h.value_follows 4 field _

theorem longBig_follows (h : Stands bytes r c) (field : Field) :
    Follows v (Beside bytes) (r.longBig field) (Traced.ofExcept (c.longBig field)) :=
  h.value_follows 4 field _

theorem guid_follows (h : Stands bytes r c) (field : Field) :
    Follows v (Beside bytes) (r.guid field) (Traced.ofExcept (c.guid field)) := by
  refine (h.block_follows Guid.encodedLength field).map ?_
  rintro ⟨a, r⟩ ⟨_, c⟩ ⟨rfl, hstands⟩
  exact ⟨rfl, hstands⟩

end Stands
end Reader
end AccessControl
