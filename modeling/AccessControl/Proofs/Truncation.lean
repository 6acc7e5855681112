import AccessControl.Proofs.Acl.Lossless

/-!
# Input that ends too early

An outcome is short when it blames the end of the input: a field of the outer header is cut
off, or a declared size is not there. Every other outcome, value or error, stays as it is when
bytes are added behind the input. So a cut anywhere inside a decoded entry or list is noticed,
and a cut behind it is not.
-/

namespace AccessControl

namespace DecodeError

/-- The errors of an entry that blame the end of the input. -/
def isShortEntry : DecodeError → Bool
  | .truncated field _ _ _ => field ∈ [Field.aceType, .aceFlags, .aceSize]
  | .sizeOverrun _ _ _ => true
  | _ => false

/-- The errors of a list that blame the end of the input. -/
def isShortList : DecodeError → Bool
  | .truncated field _ _ _ =>
    field ∈ [Field.aclRevision, .aclSbz1, .aclSize, .aceCount, .aclSbz2]
  | .sizeOverrun _ _ _ => true
  | .inAce _ _ source => source.isShortEntry
  | _ => false

theorem kind_of_isShortEntry {e : DecodeError} (h : e.isShortEntry = true) :
    e.kind = .malformedStructure := by
  cases e with
  | truncated => rfl
  | sizeOverrun => rfl
  | _ => cases h

theorem kind_of_isShortList {e : DecodeError} (h : e.isShortList = true) :
    e.kind = .malformedStructure := by
  cases e with
  | inAce index offset source =>
    show source.kind = .malformedStructure
    exact kind_of_isShortEntry h
  | truncated => rfl
  | sizeOverrun => rfl
  | _ => cases h

end DecodeError

/-! ## Short outcomes -/

section Short

variable {α β : Type} {short : DecodeError → Bool}

def IsShort (short : DecodeError → Bool) (outcome : Except DecodeError α) : Prop :=
  ∃ e, outcome = .error e ∧ short e = true

theorem isShort_error_iff {e : DecodeError} :
    IsShort short (.error e : Except DecodeError α) ↔ short e = true := by
  constructor
  · rintro ⟨_, ⟨⟩, h⟩
    exact h
  · intro h
    exact ⟨e, rfl, h⟩

theorem isShort_map_iff {outcome : Except DecodeError α} {f : α → β} :
    IsShort short (outcome.map f) ↔ IsShort short outcome := by
  simp only [IsShort, exceptMap_eq_error_iff]

theorem IsShort.bind {outcome : Except DecodeError α} (h : IsShort short outcome)
    (f : α → Except DecodeError β) : IsShort short (outcome >>= f) := by
  obtain ⟨e, rfl, hshort⟩ := h
  exact ⟨e, rfl, hshort⟩

/-- A decoder looks at its value and no further: more bytes change short outcomes only, a cut
inside the value makes one, and a cut behind the value changes nothing. -/
structure EndsWithValue (decode : List UInt8 → Except DecodeError α) (short : DecodeError → Bool)
    (length : α → Nat) : Prop where
  append : ∀ bytes suffix : List UInt8, ¬ IsShort short (decode bytes) →
    decode (bytes ++ suffix) = decode bytes
  cut_inside : ∀ {bytes : List UInt8} {a : α}, decode bytes = .ok a → ∀ n < length a,
    ∃ e, decode (bytes.take n) = .error e ∧ short e = true ∧ e.kind = .malformedStructure
  cut_behind : ∀ {bytes : List UInt8} {a : α}, decode bytes = .ok a → ∀ n, length a ≤ n →
    n ≤ bytes.length → decode (bytes.take n) = .ok a

/-- If the bytes that are left after a cut were enough, the value would end in them. -/
theorem EndsWithValue.of_append {decode : List UInt8 → Except DecodeError α} {length : α → Nat}
    (happend : ∀ bytes suffix : List UInt8, ¬ IsShort short (decode bytes) →
      decode (bytes ++ suffix) = decode bytes)
    (hlength : ∀ {bytes : List UInt8} {a : α}, decode bytes = .ok a → length a ≤ bytes.length)
    (hwhole : ∀ {bytes : List UInt8} {a : α}, decode bytes = .ok a →
      decode (bytes.take (length a)) = .ok a)
    (hkind : ∀ {e : DecodeError}, short e = true → e.kind = .malformedStructure) :
    EndsWithValue decode short length where
  append := happend
  cut_inside := by
    intro bytes a h n hn
    have hshort : IsShort short (decode (bytes.take n)) := by
      by_contra hlong
      have hsame := happend (bytes.take n) (bytes.drop n) hlong
      rw [List.take_append_drop, h] at hsame
      have hle := hlength hsame.symm
      rw [List.length_take] at hle
      omega
    obtain ⟨e, he, hshort⟩ := hshort
    exact ⟨e, he, hshort, hkind hshort⟩
  cut_behind := by
    intro bytes a h n hn _
    have hlong : ¬ IsShort short (decode (bytes.take (length a))) := by
      rw [hwhole h]
      rintro ⟨_, ⟨⟩, _⟩
    have hsame := happend (bytes.take (length a)) ((bytes.take n).drop (length a)) hlong
    rw [hwhole h] at hsame
    have htake : bytes.take (length a) = (bytes.take n).take (length a) := by
      rw [List.take_take, Nat.min_eq_left hn]
    rw [htake, List.take_append_drop] at hsame
    exact hsame

/-- Whatever a cut leads to, it is a value or an error about the structure. -/
theorem EndsWithValue.kind_of_cut {decode : List UInt8 → Except DecodeError α} {length : α → Nat}
    (h : EndsWithValue decode short length) {bytes : List UInt8} {a : α}
    (hdecode : decode bytes = .ok a) {n : Nat} {e : DecodeError}
    (he : decode (bytes.take n) = .error e) : e.kind = .malformedStructure := by
  by_cases hinside : n < length a
  · obtain ⟨e', he', -, hkind⟩ := h.cut_inside hdecode n hinside
    cases he.symm.trans he'
    exact hkind
  · by_cases hn : n ≤ bytes.length
    · cases he.symm.trans (h.cut_behind hdecode n (Nat.not_lt.mp hinside) hn)
    · rw [List.take_of_length_le (Nat.le_of_not_le hn), hdecode] at he
      cases he

end Short

/-! ## Entries -/

namespace Ace

variable {options : DecodeOptions} {bytes : List UInt8}

/-- The type is judged before anything behind it is read. -/
theorem readHeader_cons_of_unknown {code : UInt8} (h : AceType.ofCode? code = none)
    (rest : List UInt8) : readHeader (code :: rest) = .error (.unknownAceType code) := by
  simp [readHeader, Cursor.ofBytes, h]

theorem short_or_unknown_of_readHeader (bytes : List UInt8) :
    Fails (fun e => e.isShortEntry = true ∨ ∃ code rest, bytes = code :: rest ∧
      AceType.ofCode? code = none ∧ e = .unknownAceType code) (readHeader bytes) := by
  refine .bind (.map (fails_take 1 fun _ _ _ => .inl rfl) _) ?_
  rintro ⟨code, c₁⟩ hcode
  obtain ⟨-, hbytes, -⟩ := (Cursor.byte_reads _).accepted hcode
  dsimp only
  cases hunknown : AceType.ofCode? code with
  | none => exact .error (.inr ⟨code, c₁.remaining, hbytes, hunknown, rfl⟩)
  | some type =>
    refine .bind (.map (fails_take 1 fun _ _ _ => .inl rfl) _) ?_
    rintro ⟨flags, c₂⟩ -
    refine .bind (.map (fails_take 2 fun _ _ _ => .inl rfl) _) ?_
    rintro ⟨size, c₃⟩ -
    dsimp only
    split
    · exact .ok _
    · exact .error (.inl rfl)

theorem decode_of_readHeader_error {e : DecodeError} (h : readHeader bytes = .error e) :
    decode options bytes = .error e := by
  rw [decode, read, Traced.result_bind, Traced.result_liftM, h, error_bind]

theorem decode_append_of_not_short (h : ¬ IsShort DecodeError.isShortEntry (decode options bytes))
    (suffix : List UInt8) : decode options (bytes ++ suffix) = decode options bytes := by
  cases hheader : readHeader bytes with
  | ok header =>
    obtain ⟨type, flags, size⟩ := header
    rw [decode, read_append hheader, decode]
  | error e =>
    rw [decode_of_readHeader_error hheader] at h ⊢
    rcases short_or_unknown_of_readHeader bytes e hheader with hshort | ⟨code, rest, rfl, hunknown, rfl⟩
    · exact absurd (isShort_error_iff.mpr hshort) h
    · exact decode_of_readHeader_error (readHeader_cons_of_unknown hunknown (rest ++ suffix))

theorem endsWithValue (options : DecodeOptions) :
    EndsWithValue (decode options) DecodeError.isShortEntry fun ace => ace.size.toNat :=
  .of_append (fun _ suffix h => decode_append_of_not_short h suffix)
    (fun h => (size_of_decode h).2) (fun h => decode_take h (Nat.le_refl _))
    DecodeError.kind_of_isShortEntry

end Ace

/-! ## Lists -/

namespace Acl

variable {options : DecodeOptions} {bytes : List UInt8}

theorem readHeader_cons_of_unknown {value : UInt8} (h : AclRevision.ofValue? value = none)
    (rest : List UInt8) : readHeader (value :: rest) = .error (.unknownAclRevision value) := by
  simp [readHeader, Cursor.ofBytes, h]

theorem short_or_unknown_of_readHeader (bytes : List UInt8) :
    Fails (fun e => e.isShortList = true ∨ ∃ value rest, bytes = value :: rest ∧
      AclRevision.ofValue? value = none ∧ e = .unknownAclRevision value) (readHeader bytes) := by
  refine .bind (.map (fails_take 1 fun _ _ _ => .inl rfl) _) ?_
  rintro ⟨value, c₁⟩ hvalue
  obtain ⟨-, hbytes, -⟩ := (Cursor.byte_reads _).accepted hvalue
  dsimp only
  cases hunknown : AclRevision.ofValue? value with
  | none => exact .error (.inr ⟨value, c₁.remaining, hbytes, hunknown, rfl⟩)
  | some revision =>
    refine .bind (.map (fails_take 1 fun _ _ _ => .inl rfl) _) ?_
    rintro ⟨sbz1, c₂⟩ -
    refine .bind (.map (fails_take 2 fun _ _ _ => .inl rfl) _) ?_
    rintro ⟨size, c₃⟩ -
    refine .bind (.map (fails_take 2 fun _ _ _ => .inl rfl) _) ?_
    rintro ⟨count, c₄⟩ -
    refine .bind (.map (fails_take 2 fun _ _ _ => .inl rfl) _) ?_
    rintro ⟨sbz2, c₅⟩ -
    exact .ok _

theorem decode_of_readHeader_error {e : DecodeError} (h : readHeader bytes = .error e) :
    decode options bytes = .error e := by
  rw [decode, read, Traced.result_bind, Traced.result_liftM, h, error_bind]

/-- The first entry that is not decoded is not short, so it stays what it is. -/
theorem readEntries_append_of_not_short {count index offset : Nat}
    (h : ¬ IsShort DecodeError.isShortList (readEntries options count index offset bytes).result)
    (suffix : List UInt8) :
    (readEntries options count index offset (bytes ++ suffix)).result =
      (readEntries options count index offset bytes).result := by
  induction count generalizing index offset bytes with
  | zero => rfl
  | succ count ih =>
    rw [result_readEntries_succ] at h
    rw [result_readEntries_succ, result_readEntries_succ]
    cases hace : Ace.decode options bytes with
    | error e =>
      have hlong : ¬ IsShort DecodeError.isShortEntry (Ace.decode options bytes) := by
        rw [hace] at h ⊢
        intro hshort
        have hsource : e.isShortEntry = true := isShort_error_iff.mp hshort
        exact h (isShort_error_iff.mpr hsource)
      rw [Ace.decode_append_of_not_short hlong, hace]
      rfl
    | ok ace =>
      obtain ⟨-, hsize⟩ := Ace.size_of_decode hace
      rw [hace, ok_mapError, ok_bind, isShort_map_iff] at h
      rw [Ace.decode_append hace, ok_mapError, ok_bind, ok_bind,
        List.drop_append_of_le_length hsize, ih h]

theorem decode_append_of_not_short (h : ¬ IsShort DecodeError.isShortList (decode options bytes))
    (suffix : List UInt8) : decode options (bytes ++ suffix) = decode options bytes := by
  cases hheader : readHeader bytes with
  | error e =>
    rw [decode_of_readHeader_error hheader] at h ⊢
    rcases short_or_unknown_of_readHeader bytes e hheader with hshort | ⟨value, rest, rfl, hunknown, rfl⟩
    · exact absurd (isShort_error_iff.mpr hshort) h
    · exact decode_of_readHeader_error (readHeader_cons_of_unknown hunknown (rest ++ suffix))
  | ok header =>
    obtain ⟨rest, rfl⟩ := readHeader_eq_ok_iff.mp hheader
    rw [decode_encode_append] at h
    have hentries : ¬ IsShort DecodeError.isShortList
        (readEntries options header.count.toNat 0 headerLength rest).result :=
      fun hshort => h (hshort.bind _)
    rw [List.append_assoc, decode_encode_append, decode_encode_append,
      readEntries_append_of_not_short hentries]

theorem endsWithValue (options : DecodeOptions) :
    EndsWithValue (decode options) DecodeError.isShortList consumedLength :=
  .of_append (fun _ suffix h => decode_append_of_not_short h suffix)
    consumedLength_le_of_decode decode_extent DecodeError.kind_of_isShortList

end Acl

/-- Entries and lists are decoded alike whatever follows, unless the outcome is short; and it is
short whenever the input is cut inside the entry or the list. -/
theorem decoders_endWithValue (options : DecodeOptions) :
    EndsWithValue (Ace.decode options) DecodeError.isShortEntry (fun ace => ace.size.toNat) ∧
      EndsWithValue (Acl.decode options) DecodeError.isShortList Acl.consumedLength :=
  ⟨Ace.endsWithValue options, Acl.endsWithValue options⟩

end AccessControl
