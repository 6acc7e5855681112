import AccessControl.Proofs.Acl.Lossless

/-!
# Scanning a list

The entries of a list are found one after the other: where one ends by its declared size, the
next begins. No entry is shorter than its fixed fields, so the scan moves on with every entry,
stays inside the bytes, and never holds more entries than the bytes have room for.
-/

namespace AccessControl

variable {options : DecodeOptions} {bytes : List UInt8}

namespace Ace

variable {ace : Ace} {tail : List UInt8}

theorem minLength_le_fieldsLength (ace : Ace) : minLength ≤ ace.fieldsLength := by
  unfold minLength fieldsLength Sid.encodedLength
  omega

theorem Fills.fieldsLength_le (h : Fills bytes ace tail) : ace.fieldsLength ≤ ace.size.toNat := by
  rw [← length_front_eq_fieldsLength h.countable, ← h.length_front_add]
  exact Nat.le_add_right _ _

theorem minLength_le_of_decode (h : decode options bytes = .ok ace) :
    minLength ≤ ace.size.toNat := by
  obtain ⟨tail, hfills, -⟩ := fills_of_decode h
  exact Nat.le_trans ace.minLength_le_fieldsLength hfills.fieldsLength_le

end Ace

namespace Acl

theorem headerLength_le_of_readHeader {header : Header} (h : readHeader bytes = .ok header) :
    headerLength ≤ bytes.length := by
  obtain ⟨rest, rfl⟩ := readHeader_eq_ok_iff.mp h
  rw [List.length_append, Header.length_encode]
  exact Nat.le_add_right _ _

/-- Room for as many entries as are announced, but for no more than the bytes can hold. -/
def reservation (header : Header) (bytes : List UInt8) : Nat :=
  min header.count.toNat ((bytes.length - headerLength) / Ace.minLength)

/-- The entries found so far, and where the next one stands. -/
structure Scan where
  offset : Nat
  found : List Ace

namespace Scan

def start : Scan := ⟨headerLength, []⟩

def push (s : Scan) (ace : Ace) : Scan := ⟨s.offset + ace.size.toNat, s.found ++ [ace]⟩

/-- The states that a scan comes through while announced entries are left. -/
inductive Reached (options : DecodeOptions) (bytes : List UInt8) (header : Header) : Scan → Prop
  | start (hheader : readHeader bytes = .ok header) : Reached options bytes header start
  | push {s : Scan} {ace : Ace} (hs : Reached options bytes header s)
      (hcount : s.found.length < header.count.toNat)
      (hace : Ace.decode options (bytes.drop s.offset) = .ok ace) :
      Reached options bytes header (s.push ace)

structure Sound (bytes : List UInt8) (header : Header) (s : Scan) : Prop where
  room : headerLength + Ace.minLength * s.found.length ≤ s.offset
  inside : s.offset ≤ bytes.length
  announced : s.found.length ≤ header.count.toNat
  offset_eq : s.offset = endOffset headerLength s.found
  long : ∀ ace ∈ s.found, Ace.minLength ≤ ace.size.toNat

variable {header : Header} {s : Scan} {ace : Ace}

theorem offset_lt_push (s : Scan) (hace : Ace.decode options bytes = .ok ace) :
    s.offset < (s.push ace).offset := by
  have hmin : Ace.minLength ≤ ace.size.toNat := Ace.minLength_le_of_decode hace
  have hpos : 0 < Ace.minLength := by decide
  unfold push
  dsimp only
  omega

theorem endOffset_append (offset : Nat) (aces : List Ace) (ace : Ace) :
    endOffset offset (aces ++ [ace]) = endOffset offset aces + ace.size.toNat := by
  induction aces generalizing offset with
  | nil => rfl
  | cons first aces ih => exact ih (offset + first.size.toNat)

namespace Sound

theorem headerLength_le (h : Sound bytes header s) : headerLength ≤ s.offset :=
  Nat.le_trans (Nat.le_add_right _ _) h.room

theorem start (hheader : readHeader bytes = .ok header) : Sound bytes header .start where
  room := Nat.le_refl _
  inside := headerLength_le_of_readHeader hheader
  announced := Nat.zero_le _
  offset_eq := rfl
  long := List.forall_mem_nil _

/-- What is left of the bytes holds the entry, and the entry is not too short. -/
theorem push (h : Sound bytes header s) (hcount : s.found.length < header.count.toNat)
    (hace : Ace.decode options (bytes.drop s.offset) = .ok ace) :
    Sound bytes header (s.push ace) := by
  obtain ⟨-, hsize⟩ := Ace.size_of_decode hace
  have hmin : Ace.minLength ≤ ace.size.toNat := Ace.minLength_le_of_decode hace
  have hroom := h.room
  have hinside := h.inside
  rw [List.length_drop] at hsize
  refine ⟨?_, ?_, ?_, ?_, ?_⟩
  · simp only [Scan.push, List.length_append, List.length_singleton, Nat.mul_succ]
    omega
  · simp only [Scan.push]
    omega
  · simp only [Scan.push, List.length_append, List.length_singleton]
    omega
  · simp only [Scan.push, endOffset_append, ← h.offset_eq]
  · exact List.forall_mem_append.mpr ⟨h.long, List.forall_mem_singleton.mpr hmin⟩

/-- Every entry takes up as many bytes as were counted on when room was reserved. -/
theorem length_le_reservation (h : Sound bytes header s) :
    s.found.length ≤ reservation header bytes := by
  have hpos : 0 < Ace.minLength := by decide
  have hroom : s.found.length * Ace.minLength ≤ bytes.length - headerLength := by
    rw [Nat.mul_comm]
    exact Nat.le_sub_of_add_le' (Nat.le_trans h.room h.inside)
  exact Nat.le_min.mpr ⟨h.announced, (Nat.le_div_iff_mul_le hpos).mpr hroom⟩

end Sound

theorem Reached.sound (h : Reached options bytes header s) : Sound bytes header s := by
  induction h with
  | start hheader => exact .start hheader
  | push _ hcount hace ih => exact ih.push hcount hace

/-- From a state on its way the scan comes to the end of the announced entries, or to one that
is not decoded. -/
theorem Reached.complete_or_cut {count : Nat} (hs : Reached options bytes header s)
    (hcount : s.found.length + count = header.count.toNat) :
    (∃ aces, (readEntries options count s.found.length s.offset (bytes.drop s.offset)).result =
        .ok aces ∧ (s.found ++ aces).length = header.count.toNat ∧
        Reached options bytes header ⟨endOffset s.offset aces, s.found ++ aces⟩) ∨
      ∃ s' e, Reached options bytes header s' ∧ s'.found.length < header.count.toNat ∧
        Ace.decode options (bytes.drop s'.offset) = .error e ∧
        (readEntries options count s.found.length s.offset (bytes.drop s.offset)).result =
          .error (.inAce s'.found.length s'.offset e) := by
  -- On the entries that are left; that its state is reached carries the scan from one to the next.
  induction count generalizing s with
  | zero =>
    left
    refine ⟨[], rfl, ?_, ?_⟩
    · rw [List.append_nil]
      exact hcount
    · rw [List.append_nil]
      exact hs
  | succ count ih =>
    have hlt : s.found.length < header.count.toNat := by omega
    rw [result_readEntries_succ]
    cases hace : Ace.decode options (bytes.drop s.offset) with
    | error e =>
      right
      exact ⟨s, e, hs, hlt, hace, rfl⟩
    | ok ace =>
      have hnext : (s.push ace).found.length + count = header.count.toNat := by
        simp only [Scan.push, List.length_append, List.length_singleton]
        omega
      have hlength : (s.push ace).found.length = s.found.length + 1 := by
        simp [Scan.push]
      have hrest := ih (hs.push hlt hace) hnext
      rw [hlength, Scan.push] at hrest
      simp only [ok_mapError, ok_bind, List.drop_drop]
      rcases hrest with ⟨aces, haces, hall, hreached⟩ | ⟨s', e, hs', hlt', hfails, hresult⟩
      · left
        rw [List.append_assoc] at hall hreached
        exact ⟨ace :: aces, by rw [haces, ok_map], hall, hreached⟩
      · right
        exact ⟨s', e, hs', hlt', hfails, by rw [hresult, error_map]⟩

theorem Reached.readHeader_eq (h : Reached options bytes header s) :
    readHeader bytes = .ok header := by
  induction h with
  | start hheader => exact hheader
  | push _ _ _ ih => exact ih

/-- From every state that is reached, the scan goes on to the same outcome. -/
theorem Reached.result_readEntries (h : Reached options bytes header s) :
    (readEntries options header.count.toNat 0 headerLength (bytes.drop headerLength)).result =
      (readEntries options (header.count.toNat - s.found.length) s.found.length s.offset
        (bytes.drop s.offset)).result.map (s.found ++ ·) := by
  induction h with
  | start hheader =>
    simp only [Scan.start, List.length_nil, Nat.sub_zero, List.nil_append]
    exact (id_map _).symm
  | @push s ace hs hcount hace ih =>
    have hleft : header.count.toNat - s.found.length =
        header.count.toNat - (s.push ace).found.length + 1 := by
      simp only [Scan.push, List.length_append, List.length_singleton]
      omega
    rw [ih, hleft, result_readEntries_succ, hace, ok_mapError, ok_bind, List.drop_drop]
    simp only [Scan.push, List.length_append, List.length_singleton]
    cases (readEntries options (header.count.toNat - (s.found.length + 1)) (s.found.length + 1)
        (s.offset + ace.size.toNat) (bytes.drop (s.offset + ace.size.toNat))).result with
    | error e => rfl
    | ok aces => simp only [ok_map, List.append_assoc, List.singleton_append]

/-- The first entry that is not decoded decides the outcome. -/
theorem Reached.decode_of_error {e : DecodeError} (h : Reached options bytes header s)
    (hcount : s.found.length < header.count.toNat)
    (he : Ace.decode options (bytes.drop s.offset) = .error e) :
    decode options bytes = .error (.inAce s.found.length s.offset e) := by
  obtain ⟨rest, rfl⟩ := readHeader_eq_ok_iff.mp h.readHeader_eq
  have hleft : header.count.toNat - s.found.length =
      header.count.toNat - s.found.length - 1 + 1 := by
    omega
  have hentries := h.result_readEntries
  rw [List.drop_left' (Header.length_encode header), hleft, result_readEntries_succ, he] at hentries
  rw [decode_encode_append, hentries]
  rfl

/-- Behind the last announced entry only the size is left to be checked. -/
theorem Reached.decode_of_complete (h : Reached options bytes header s)
    (hcount : s.found.length = header.count.toNat) :
    decode options bytes = checkSize options
      ⟨header.revision, header.sbz1, header.size, header.sbz2, s.found⟩ := by
  obtain ⟨rest, rfl⟩ := readHeader_eq_ok_iff.mp h.readHeader_eq
  have hentries := h.result_readEntries
  rw [List.drop_left' (Header.length_encode header), hcount, Nat.sub_self] at hentries
  rw [decode_encode_append, hentries]
  simp [readEntries]

end Scan

/-- When its header is read, a list is scanned to the end of the announced entries, after which
only the size is left to be checked, or to an entry that is not decoded. -/
theorem exists_reached_of_readHeader {header : Header} (hheader : readHeader bytes = .ok header) :
    (∃ acl, Scan.Reached options bytes header ⟨acl.consumedLength, acl.aces⟩ ∧
        acl.aces.length = header.count.toNat ∧
        decode options bytes = checkSize options acl) ∨
      ∃ s e, Scan.Reached options bytes header s ∧ s.found.length < header.count.toNat ∧
        Ace.decode options (bytes.drop s.offset) = .error e ∧
        decode options bytes = .error (.inAce s.found.length s.offset e) := by
  have hreached : Scan.Reached options bytes header .start := .start hheader
  obtain ⟨rest, rfl⟩ := readHeader_eq_ok_iff.mp hheader
  have hstart : Scan.start.found.length + header.count.toNat = header.count.toNat :=
    Nat.zero_add _
  have hdrop : (header.encode ++ rest).drop Scan.start.offset = rest :=
    List.drop_left' (Header.length_encode header)
  have hscan := hreached.complete_or_cut hstart
  rw [hdrop] at hscan
  rw [decode_encode_append]
  rcases hscan with ⟨aces, haces, hall, hreached⟩ | ⟨s, e, hs, hlt, hfails, hresult⟩
  · left
    refine ⟨⟨header.revision, header.sbz1, header.size, header.sbz2, aces⟩, hreached, hall, ?_⟩
    exact congrArg (· >>= _) haces
  · right
    exact ⟨s, e, hs, hlt, hfails, congrArg (· >>= _) hresult⟩

/-- The scan of a decoded list has come to the end of what the list takes up. -/
theorem exists_reached_of_decode {acl : Acl} (h : decode options bytes = .ok acl) :
    ∃ header, Scan.Reached options bytes header ⟨acl.consumedLength, acl.aces⟩ := by
  obtain ⟨header, -, hheader, -⟩ := decode_eq_ok_iff.mp h
  refine ⟨header, ?_⟩
  rcases exists_reached_of_readHeader hheader with
    ⟨acl', hreached, -, hdecode⟩ | ⟨s, e, -, -, -, hdecode⟩
  · rw [h] at hdecode
    obtain ⟨-, rfl⟩ := checkSize_eq_ok_iff.mp hdecode.symm
    exact hreached
  · cases h.symm.trans hdecode

end Acl
end AccessControl
