import AccessControl.Proofs.Acl.Scan

/-!
# The announced count

Only the announced count ends the scan of a list. When fewer entries are announced, the list ends
with the last of these. When more are, the scan goes on behind the last entry that is there, and
where the bytes end with it, the next one has not even a type.
-/

namespace AccessControl
namespace Acl

variable {options : DecodeOptions} {bytes bytes' : List UInt8} {header header' : Header}

/-- The bytes with another number in the field of the count. -/
def withCount (bytes : List UInt8) (count : UInt16) : List UInt8 :=
  bytes.take 4 ++ (ByteOrder.toLittle 2 count.toNat ++ bytes.drop 6)

/-- The same header, announcing another number of entries. -/
def Header.announcing (h : Header) (count : UInt16) : Header := { h with count }

theorem withCount_encode_append (header : Header) (rest : List UInt8) (count : UInt16) :
    withCount (header.encode ++ rest) count = (header.announcing count).encode ++ rest := by
  simp [withCount, Header.announcing, Header.encode, ByteOrder.toLittle]

/-- Only the header is another one. -/
theorem readHeader_withCount (h : readHeader bytes = .ok header) (count : UInt16) :
    readHeader (withCount bytes count) = .ok (header.announcing count) ∧
      (withCount bytes count).drop headerLength = bytes.drop headerLength := by
  obtain ⟨rest, rfl⟩ := readHeader_eq_ok_iff.mp h
  rw [withCount_encode_append]
  constructor
  · exact readHeader_encode_append _ rest
  · rw [List.drop_left' (Header.length_encode _), List.drop_left' (Header.length_encode _)]

theorem endOffset_take_le (offset : Nat) (aces : List Ace) (count : Nat) :
    endOffset offset (aces.take count) ≤ endOffset offset aces := by
  induction aces generalizing offset count with
  | nil => simp
  | cons ace aces ih =>
    cases count with
    | zero => exact le_endOffset offset (ace :: aces)
    | succ count => exact ih (offset + ace.size.toNat) count

namespace Scan

variable {s : Scan}

theorem Reached.drop_eq (h : Reached options bytes header s)
    (hbytes : bytes'.drop headerLength = bytes.drop headerLength) :
    bytes'.drop s.offset = bytes.drop s.offset := by
  obtain ⟨behind, hbehind⟩ := Nat.exists_eq_add_of_le h.sound.headerLength_le
  rw [hbehind, ← List.drop_drop, hbytes, List.drop_drop]

/-- Under another count, a state is reached that has the same entries up to that count. -/
theorem Reached.recount (h : Reached options bytes header s)
    (hheader : readHeader bytes' = .ok header')
    (hbytes : bytes'.drop headerLength = bytes.drop headerLength) :
    ∃ s', Reached options bytes' header' s' ∧
      s'.found = s.found.take header'.count.toNat := by
  induction h with
  | start => exact ⟨.start, .start hheader, List.take_nil.symm⟩
  | @push s ace hs _ hace ih =>
    obtain ⟨s', hs', hfound⟩ := ih
    by_cases hcount : s.found.length < header'.count.toNat
    · -- Nothing has been left out so far, so both scans stand at the same entry.
      rw [List.take_of_length_le (Nat.le_of_lt hcount)] at hfound
      have hoffset : s'.offset = s.offset := by
        rw [hs'.sound.offset_eq, hs.sound.offset_eq, hfound]
      have hnext : Ace.decode options (bytes'.drop s'.offset) = .ok ace := by
        rw [hoffset, hs.drop_eq hbytes, hace]
      have hlength : (s.found ++ [ace]).length ≤ header'.count.toNat := by
        rw [List.length_append, List.length_singleton]
        exact hcount
      refine ⟨s'.push ace, hs'.push (hfound ▸ hcount) hnext, ?_⟩
      rw [Scan.push, Scan.push, hfound, List.take_of_length_le hlength]
    · refine ⟨s', hs', ?_⟩
      rw [hfound, Scan.push, List.take_append_of_le_length (Nat.not_lt.mp hcount)]

end Scan

variable {acl : Acl} {count : UInt16}

/-- The list of the first entries, under a header that says nothing else anew. -/
def firstEntries (acl : Acl) (count : Nat) : Acl := { acl with aces := acl.aces.take count }

/-- The scan of the bytes with another count reaches as many of the decoded entries as are announced
then, and what is left of the bytes there is what was left before. -/
theorem exists_reached_withCount (h : decode options bytes = .ok acl) (count : UInt16) :
    ∃ header s, Scan.Reached options (withCount bytes count) header s ∧ header.count = count ∧
      (withCount bytes count).drop s.offset = bytes.drop s.offset ∧
      acl.firstEntries count.toNat =
        ⟨header.revision, header.sbz1, header.size, header.sbz2, s.found⟩ := by
  obtain ⟨header, aces, hheader, -, hcheck⟩ := decode_eq_ok_iff.mp h
  obtain ⟨header', hreached⟩ := exists_reached_of_decode h
  obtain ⟨-, rfl⟩ := checkSize_eq_ok_iff.mp hcheck
  obtain ⟨hcounted, hbytes⟩ := readHeader_withCount hheader count
  obtain ⟨s, hs, hfound⟩ := hreached.recount hcounted hbytes
  refine ⟨header.announcing count, s, hs, rfl, (hs.drop_eq hbytes.symm).symm, ?_⟩
  rw [firstEntries, hfound]
  rfl

/-- Fewer entries take up less, so a declared size that was large enough still is. -/
theorem checkSize_firstEntries (h : decode options bytes = .ok acl) (count : Nat) :
    checkSize options (acl.firstEntries count) = .ok (acl.firstEntries count) := by
  obtain ⟨header, aces, -, -, hcheck⟩ := decode_eq_ok_iff.mp h
  obtain ⟨hsize, rfl⟩ := checkSize_eq_ok_iff.mp hcheck
  refine checkSize_eq_ok_iff.mpr ⟨?_, rfl⟩
  intro hchecks
  exact Nat.le_trans (endOffset_take_le headerLength aces count) (hsize hchecks)

theorem decode_withCount_of_le (h : decode options bytes = .ok acl)
    (hcount : count.toNat ≤ acl.aces.length) :
    decode options (withCount bytes count) = .ok (acl.firstEntries count.toNat) := by
  obtain ⟨header, s, hs, rfl, -, hacl⟩ := exists_reached_withCount h count
  have hfound : s.found = acl.aces.take header.count.toNat := congrArg Acl.aces hacl.symm
  have hlength : s.found.length = header.count.toNat := by
    rw [hfound, List.length_take_of_le hcount]
  rw [hs.decode_of_complete hlength, ← hacl]
  exact checkSize_firstEntries h header.count.toNat

/-- Behind the last entry no byte is left for the type of another one. -/
theorem decode_withCount_of_lt (h : decode options bytes = .ok acl)
    (hcount : acl.aces.length < count.toNat) (hend : bytes.length ≤ acl.consumedLength) :
    decode options (withCount bytes count) =
      .error (.inAce acl.aces.length bytes.length (.truncated .aceType 0 1 0)) := by
  obtain ⟨header, s, hs, rfl, hdrop, hacl⟩ := exists_reached_withCount h count
  have hfound : s.found = acl.aces := by
    rw [← List.take_of_length_le (Nat.le_of_lt hcount)]
    exact congrArg Acl.aces hacl.symm
  have hoffset : s.offset = bytes.length := by
    rw [hs.sound.offset_eq, hfound]
    exact Nat.le_antisymm (consumedLength_le_of_decode h) hend
  have hnext : Ace.decode options ((withCount bytes header.count).drop s.offset) =
      .error (.truncated .aceType 0 1 0) := by
    rw [hdrop, hoffset, List.drop_length]
    rfl
  rw [← hfound] at hcount ⊢
  rw [← hoffset]
  exact hs.decode_of_error hcount hnext

/-- A decoded list under another count. Up to its own number of entries the list keeps everything
but the entries beyond the count. With a larger count, when the list reaches to the end of the
bytes, decoding fails behind its last entry at the type of one more, however many were announced and
whatever the options check. -/
theorem decode_withCount (h : decode options bytes = .ok acl) (count : UInt16) :
    (count.toNat ≤ acl.aces.length →
        decode options (withCount bytes count) =
          .ok { acl with aces := acl.aces.take count.toNat }) ∧
      (acl.aces.length < count.toNat → bytes.length ≤ acl.consumedLength →
        decode options (withCount bytes count) =
          .error (.inAce acl.aces.length bytes.length (.truncated .aceType 0 1 0))) :=
  ⟨decode_withCount_of_le h, decode_withCount_of_lt h⟩

/-- Two entries, the second with data, and exactly the size that they take up. -/
def snug : List UInt8 :=
  [4, 7, 42, 0, 2, 0, 9, 0] ++ [0, 2, 16, 0, 0, 0, 0, 1, 1, 0, 0, 0, 0, 0, 0, 5] ++
    [9, 0, 18, 0, 0, 0, 0, 1, 1, 0, 0, 0, 0, 0, 0, 5, 0xAA, 0xBB]

theorem decode_withCount_snug : ∃ acl, decode .strict snug = .ok acl ∧
    decode .strict (withCount snug 1) = .ok { acl with aces := acl.aces.take 1 } ∧
    decode .strict (withCount snug 65535) =
      .error (.inAce 2 42 (.truncated .aceType 0 1 0)) := by
  obtain ⟨acl, h, hlength, hconsumed⟩ : ∃ acl, decode .strict snug = .ok acl ∧
      acl.aces.length = 2 ∧ acl.consumedLength = 42 :=
    ⟨⟨.directoryService, 7, 42, 9, [⟨.accessAllowed, ⟨2⟩, 1, none, ⟨1, 5, []⟩, none, 16⟩,
      ⟨.accessAllowedCallback, ⟨0⟩, 1, none, ⟨1, 5, []⟩, some [0xAA, 0xBB], 18⟩]⟩, rfl, rfl, rfl⟩
  obtain ⟨hfewer, -⟩ := decode_withCount h 1
  obtain ⟨-, hmore⟩ := decode_withCount h 65535
  rw [hlength] at hfewer hmore
  exact ⟨acl, h, hfewer (by decide), hmore (by decide) (hconsumed ▸ by decide)⟩

end Acl
end AccessControl
