import AccessControl.Descriptor.Decode
import AccessControl.Proofs.Acl.Reading

/-!
# Reading descriptors

The header of a descriptor is read from its written form, and a component from its offset
on, provided that the control word lets it count.
-/

namespace AccessControl
namespace Descriptor

open ByteOrder (toLittle)

/-- Twenty bytes. -/
def Header.encode (h : Header) : List UInt8 :=
  h.revision :: h.sbz1 ::
    (toLittle 2 h.control.raw.toNat ++ (toLittle 4 h.owner.toNat ++ (toLittle 4 h.group.toNat ++
      (toLittle 4 h.sacl.toNat ++ toLittle 4 h.dacl.toNat))))

@[simp] theorem Header.length_encode (h : Header) : h.encode.length = headerLength := by
  simp [Header.encode, headerLength]

theorem readHeader_encode_append (h : Header) (rest : List UInt8) :
    readHeader (h.encode ++ rest) = .ok h := by
  have hcontrol := fun position rest =>
    Cursor.wordLittle_append position (.ofBitVec h.control.raw) rest .descriptorControl
  simp only [UInt16.toNat_ofBitVec] at hcontrol
  simp only [Header.encode, readHeader, Cursor.ofBytes, List.cons_append, List.append_assoc,
    Cursor.byte_cons, hcontrol, Cursor.longLittle_append, ok_bind]
  rfl

/-- A component that is there stands at its offset, and zero stands for one that is not. -/
def Placed (bytes : List UInt8) (offset : Nat) : Option (List UInt8) → Prop
  | none => offset = 0
  | some component => 0 < offset ∧ ∃ rest, bytes.drop offset = component ++ rest

/-- The reader gives this value from the bytes on, whatever follows them. -/
def Yields {α : Type} (read : List UInt8 → Traced α) (component : List UInt8) (value : α) : Prop :=
  component ≠ [] ∧ ∀ rest : List UInt8, (read (component ++ rest)).result = .ok value

variable {α : Type} {h : Header} {bytes : List UInt8} {which : Component}
  {read : List UInt8 → Traced α} {component : Option (List UInt8)} {value : Option α}

theorem result_readComponent (hplaced : Placed bytes (h.offset which) component)
    (hread : Option.Rel (Yields read) component value) :
    (readComponent h bytes which read).result =
      .ok (if h.admits which then value else none) := by
  cases hread with
  | none =>
    have hoffset : h.offset which = 0 := hplaced
    simp [readComponent, Header.selects, hoffset]
  | @some component value hyields =>
    obtain ⟨hnonempty, hyields⟩ := hyields
    obtain ⟨hpositive, rest, hdrop⟩ := hplaced
    have hoffset : (h.offset which != 0) = true := by simpa using Nat.ne_of_gt hpositive
    have hinside : h.offset which + 1 ≤ bytes.length := by
      have hlength := congrArg List.length hdrop
      have hcomponent := List.length_pos_iff.mpr hnonempty
      rw [List.length_drop, List.length_append] at hlength
      omega
    by_cases hadmits : h.admits which = true
    · simp [readComponent, Header.selects, hadmits, hoffset, hinside, hdrop, hyields]
    · simp [readComponent, Header.selects, hadmits]

end Descriptor
end AccessControl
