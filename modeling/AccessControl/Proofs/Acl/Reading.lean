import AccessControl.Acl.Decode
import AccessControl.Proofs.Ace.Reading
import Mathlib.Tactic.SplitIfs

/-!
# Reading lists

The header of a list is read exactly from its written form, and the entries one behind the
other. A list that was decoded is decoded again when bytes are added behind it.
-/

namespace AccessControl
namespace Acl

open ByteOrder (toLittle)

/-- Eight bytes. -/
def Header.encode (h : Header) : List UInt8 :=
  h.revision.value :: h.sbz1 ::
    (toLittle 2 h.size.toNat ++ (toLittle 2 h.count.toNat ++ toLittle 2 h.sbz2.toNat))

@[simp] theorem Header.length_encode (h : Header) : h.encode.length = headerLength := by
  simp [Header.encode, headerLength]

theorem readHeader_encode_append (h : Header) (rest : List UInt8) :
    readHeader (h.encode ++ rest) = .ok h := by
  simp only [Header.encode, readHeader, Cursor.ofBytes, List.cons_append, List.append_assoc,
    Cursor.byte_cons, Cursor.wordLittle_append, ok_bind, AclRevision.ofValue?_value]
  rfl

theorem readHeader_eq_ok_iff {bytes : List UInt8} {h : Header} :
    readHeader bytes = .ok h ↔ ∃ rest, bytes = h.encode ++ rest := by
  constructor
  · intro hread
    obtain ⟨⟨value, c₁⟩, hvalue, hread⟩ := bind_eq_ok_iff.mp hread
    obtain ⟨-, hvalue, -⟩ := (Cursor.byte_reads _).accepted hvalue
    dsimp only at hread
    split at hread
    · cases hread
    · next revision hrevision =>
      obtain ⟨⟨sbz1, c₂⟩, hsbz1, hread⟩ := bind_eq_ok_iff.mp hread
      obtain ⟨⟨size, c₃⟩, hsize, hread⟩ := bind_eq_ok_iff.mp hread
      obtain ⟨⟨count, c₄⟩, hcount, hread⟩ := bind_eq_ok_iff.mp hread
      obtain ⟨⟨sbz2, c₅⟩, hsbz2, hread⟩ := bind_eq_ok_iff.mp hread
      obtain ⟨-, hsbz1, -⟩ := (Cursor.byte_reads _).accepted hsbz1
      obtain ⟨-, hsize, -⟩ := (Cursor.wordLittle_reads _).accepted hsize
      obtain ⟨-, hcount, -⟩ := (Cursor.wordLittle_reads _).accepted hcount
      obtain ⟨-, hsbz2, -⟩ := (Cursor.wordLittle_reads _).accepted hsbz2
      rw [AclRevision.ofValue?_eq_some_iff] at hrevision
      cases hread
      refine ⟨c₅.remaining, ?_⟩
      calc
        bytes = value :: c₁.remaining := hvalue
        _ = _ := by
          rw [hsbz1, hsize, hcount, hsbz2, ← hrevision]
          simp [Header.encode]
  · rintro ⟨rest, rfl⟩
    exact readHeader_encode_append h rest

variable {options : DecodeOptions}

/-- The first entry decides where the others are read. -/
theorem result_readEntries_succ (count index offset : Nat) (bytes : List UInt8) :
    (readEntries options (count + 1) index offset bytes).result =
      (Ace.decode options bytes).mapError (.inAce index offset) >>= fun ace =>
        (readEntries options count (index + 1) (offset + ace.size.toNat)
          (bytes.drop ace.size.toNat)).result.map (ace :: ·) := by
  simp only [readEntries, Traced.result_bind, Traced.result_mapError, Traced.result_record,
    Traced.result_map, ok_bind]
  rfl

theorem result_readEntries_succ_eq_ok_iff {count index offset : Nat} {bytes : List UInt8}
    {aces : List Ace} :
    (readEntries options (count + 1) index offset bytes).result = .ok aces ↔
      ∃ ace rest, Ace.decode options bytes = .ok ace ∧
        (readEntries options count (index + 1) (offset + ace.size.toNat)
          (bytes.drop ace.size.toNat)).result = .ok rest ∧ aces = ace :: rest := by
  simp only [result_readEntries_succ, bind_eq_ok_iff, mapError_eq_ok_iff, exceptMap_eq_ok_iff]
  constructor
  · rintro ⟨ace, hace, rest, hrest, rfl⟩
    exact ⟨ace, rest, hace, hrest, rfl⟩
  · rintro ⟨ace, rest, hace, hrest, rfl⟩
    exact ⟨ace, hace, rest, hrest, rfl⟩

theorem readEntries_append {count index offset : Nat} {bytes : List UInt8} {aces : List Ace}
    (h : (readEntries options count index offset bytes).result = .ok aces)
    (suffix : List UInt8) :
    (readEntries options count index offset (bytes ++ suffix)).result = .ok aces := by
  induction count generalizing index offset bytes aces with
  | zero => exact h
  | succ count ih =>
    obtain ⟨ace, rest, hace, hrest, rfl⟩ := result_readEntries_succ_eq_ok_iff.mp h
    obtain ⟨-, hsize⟩ := Ace.size_of_decode hace
    refine result_readEntries_succ_eq_ok_iff.mpr
      ⟨ace, rest, Ace.decode_append hace suffix, ?_, rfl⟩
    rw [List.drop_append_of_le_length hsize]
    exact ih hrest

theorem checkSize_eq_ok_iff {acl acl' : Acl} :
    checkSize options acl = .ok acl' ↔
      (options.checkAclSize = true → acl.consumedLength ≤ acl.size.toNat) ∧ acl = acl' := by
  unfold checkSize
  split_ifs with h
  · simp only [false_iff, not_and]
    intro hfits
    exact absurd (hfits h.1) (Nat.not_le.mpr h.2)
  · simp only [Except.ok.injEq, iff_and_self]
    intro _ hcheck
    exact Nat.not_lt.mp fun hlt => h ⟨hcheck, hlt⟩

theorem decode_encode_append (header : Header) (rest : List UInt8) :
    decode options (header.encode ++ rest) =
      (readEntries options header.count.toNat 0 headerLength rest).result >>= fun aces =>
        checkSize options
          ⟨header.revision, header.sbz1, header.size, header.sbz2, aces⟩ := by
  simp only [decode, read, Traced.result_bind, Traced.result_liftM, Traced.result_record, ok_bind,
    readHeader_encode_append, List.drop_left' (Header.length_encode header)]

theorem decode_eq_ok_iff {bytes : List UInt8} {acl : Acl} :
    decode options bytes = .ok acl ↔
      ∃ header aces, readHeader bytes = .ok header ∧
        (readEntries options header.count.toNat 0 headerLength
          (bytes.drop headerLength)).result = .ok aces ∧
        checkSize options ⟨header.revision, header.sbz1, header.size, header.sbz2, aces⟩ =
          .ok acl := by
  simp only [decode, read, Traced.result_bind, Traced.result_liftM, Traced.result_record, ok_bind,
    bind_eq_ok_iff]
  constructor
  · rintro ⟨header, hheader, aces, hentries, hcheck⟩
    exact ⟨header, aces, hheader, hentries, hcheck⟩
  · rintro ⟨header, aces, hheader, hentries, hcheck⟩
    exact ⟨header, hheader, aces, hentries, hcheck⟩

theorem decode_append {bytes : List UInt8} {acl : Acl} (h : decode options bytes = .ok acl)
    (suffix : List UInt8) : decode options (bytes ++ suffix) = .ok acl := by
  obtain ⟨header, aces, hheader, hentries, hcheck⟩ := decode_eq_ok_iff.mp h
  obtain ⟨rest, rfl⟩ := readHeader_eq_ok_iff.mp hheader
  rw [decode_eq_ok_iff]
  refine ⟨header, aces, ?_, ?_, hcheck⟩
  · rw [List.append_assoc]
    exact readHeader_encode_append header (rest ++ suffix)
  · have hlength : headerLength ≤ (header.encode ++ rest).length := by simp
    rw [List.drop_append_of_le_length hlength]
    exact readEntries_append hentries suffix

end Acl
end AccessControl
