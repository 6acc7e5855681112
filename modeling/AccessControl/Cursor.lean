import AccessControl.ByteOrder
import AccessControl.DecodeError
import AccessControl.Extent
import AccessControl.Guid

/-!
# Reading bytes in order

A cursor holds the bytes that are still to be read and how many came before them. An
operation either takes bytes off the front or, when too few are left, fails and leaves
the cursor as it was.
-/

namespace AccessControl

structure Cursor where
  position : Nat
  remaining : List UInt8
deriving DecidableEq

namespace Cursor

def ofBytes (bytes : List UInt8) : Cursor := ⟨0, bytes⟩

def take (c : Cursor) (n : Nat) (field : Field) : Except DecodeError (List UInt8 × Cursor) :=
  if reaches n c.remaining then
    .ok (c.remaining.take n, ⟨c.position + n, c.remaining.drop n⟩)
  else .error (.truncated field c.position n c.remaining.length)

theorem take_of_le {c : Cursor} {n : Nat} (field : Field) (h : n ≤ c.remaining.length) :
    c.take n field = .ok (c.remaining.take n, ⟨c.position + n, c.remaining.drop n⟩) := by
  simp [take, h]

theorem take_of_lt {c : Cursor} {n : Nat} (field : Field) (h : c.remaining.length < n) :
    c.take n field = .error (.truncated field c.position n c.remaining.length) := by
  simp [take, Nat.not_le.mpr h]

theorem take_eq_ok_iff {c d : Cursor} {n : Nat} {field : Field} {taken : List UInt8} :
    c.take n field = .ok (taken, d) ↔
      n ≤ c.remaining.length ∧ taken = c.remaining.take n ∧
        d = ⟨c.position + n, c.remaining.drop n⟩ := by
  by_cases h : n ≤ c.remaining.length
  · simp [take_of_le field h, h, eq_comm]
  · simp [take_of_lt field (Nat.not_le.mp h), h]

def skip (c : Cursor) (n : Nat) (field : Field) : Except DecodeError Cursor :=
  (c.take n field).map Prod.snd

def byte (c : Cursor) (field : Field) : Except DecodeError (UInt8 × Cursor) :=
  (c.take 1 field).map fun (bytes, c) => (UInt8.ofNat (ByteOrder.ofLittle bytes), c)

def wordLittle (c : Cursor) (field : Field) : Except DecodeError (UInt16 × Cursor) :=
  (c.take 2 field).map fun (bytes, c) => (UInt16.ofNat (ByteOrder.ofLittle bytes), c)

def longLittle (c : Cursor) (field : Field) : Except DecodeError (UInt32 × Cursor) :=
  (c.take 4 field).map fun (bytes, c) => (UInt32.ofNat (ByteOrder.ofLittle bytes), c)

def longBig (c : Cursor) (field : Field) : Except DecodeError (UInt32 × Cursor) :=
  (c.take 4 field).map fun (bytes, c) => (UInt32.ofNat (ByteOrder.ofBig bytes), c)

/-- Exactly `n` bytes, with the evidence that there are so many. -/
def block (c : Cursor) (n : Nat) (field : Field) :
    Except DecodeError ({ bytes : List UInt8 // bytes.length = n } × Cursor) :=
  if h : n ≤ c.remaining.length then
    .ok (⟨c.remaining.take n, List.length_take_of_le h⟩,
      ⟨c.position + n, c.remaining.drop n⟩)
  else .error (.truncated field c.position n c.remaining.length)

theorem block_eq_take (c : Cursor) (n : Nat) (field : Field) :
    (c.block n field).map (fun (bytes, d) => (bytes.val, d)) = c.take n field := by
  by_cases h : n ≤ c.remaining.length
  · simp [block, take_of_le field h, h, Except.map]
  · simp [block, take_of_lt field (Nat.not_le.mp h), h, Except.map]

def guid (c : Cursor) (field : Field) : Except DecodeError (Guid × Cursor) :=
  (c.block Guid.encodedLength field).map fun (bytes, c) => (Guid.ofWire bytes.val bytes.property, c)

/-- Everything that is left. -/
def rest (c : Cursor) : List UInt8 × Cursor :=
  (c.remaining, ⟨c.position + c.remaining.length, []⟩)

end Cursor
end AccessControl
