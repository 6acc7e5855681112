import AccessControl.Sid.Basic
import Mathlib.Tactic.SplitIfs

/-!
# The wire form of security identifiers

Reading accepts exactly the bytes that begin with a written identifier, and gives that
identifier, whatever follows. An identifier with more than 255 sub-authorities has no
wire form of its own: its count would not fit the byte.
-/

namespace AccessControl
namespace Sid

open ByteOrder (toLittle toBig ofBig)

/-- The count fits its byte. -/
def Countable (sid : Sid) : Prop := sid.subAuthorities.length ≤ 255

theorem authority_eq_iff {bytes : List UInt8} {authority : BitVec 48} (h : bytes.length = 6) :
    BitVec.ofNat 48 (ofBig bytes) = authority ↔ bytes = toBig 6 authority.toNat := by
  have hlt : ofBig bytes < 281474976710656 := by
    simpa [h, ByteOrder.capacity] using ByteOrder.ofBig_lt bytes
  have ha : authority.toNat < ByteOrder.capacity 6 := by
    simpa [ByteOrder.capacity] using authority.isLt
  rw [← ByteOrder.ofBig_eq_iff h ha, ← BitVec.toNat_inj, BitVec.toNat_ofNat,
    Nat.mod_eq_of_lt hlt]

/-- The wire form of sub-authorities, all of them. -/
def encodeSubAuthorities (subs : List UInt32) : List UInt8 :=
  subs.flatMap fun sub => toLittle subAuthorityLength sub.toNat

@[simp] theorem encodeSubAuthorities_cons (sub : UInt32) (subs : List UInt32) :
    encodeSubAuthorities (sub :: subs) = toLittle 4 sub.toNat ++ encodeSubAuthorities subs := rfl

@[simp] theorem length_encodeSubAuthorities (subs : List UInt32) :
    (encodeSubAuthorities subs).length = subAuthorityLength * subs.length := by
  induction subs with
  | nil => rfl
  | cons sub subs ih =>
    rw [encodeSubAuthorities_cons, List.length_append, ih, ByteOrder.length_toLittle,
      List.length_cons, Nat.mul_succ, Nat.add_comm, subAuthorityLength]

theorem readSubAuthorities_append (subs : List UInt32) (rest : List UInt8) :
    readSubAuthorities subs.length (encodeSubAuthorities subs ++ rest) = subs := by
  induction subs with
  | nil => rfl
  | cons sub subs ih =>
    have hlength : (toLittle 4 sub.toNat).length = 4 := ByteOrder.length_toLittle _ _
    rw [encodeSubAuthorities_cons, List.append_assoc, List.length_cons, readSubAuthorities,
      subAuthorityLength, List.take_left' hlength, List.drop_left' hlength, ih,
      (ByteOrder.long_eq_iff hlength).mpr rfl]

theorem encodeSubAuthorities_readSubAuthorities {count : Nat} {bytes : List UInt8}
    (h : subAuthorityLength * count ≤ bytes.length) :
    encodeSubAuthorities (readSubAuthorities count bytes) ++
      bytes.drop (subAuthorityLength * count) = bytes := by
  induction count generalizing bytes with
  | zero => rfl
  | succ count ih =>
    rw [Nat.mul_succ] at h
    have hfirst : (bytes.take 4).length = 4 := by
      simp only [subAuthorityLength] at h
      rw [List.length_take]
      omega
    have hrest : subAuthorityLength * count ≤ (bytes.drop 4).length := by
      simp only [subAuthorityLength] at h ⊢
      rw [List.length_drop]
      omega
    have hdrop : bytes.drop (subAuthorityLength * (count + 1)) =
        (bytes.drop 4).drop (subAuthorityLength * count) := by
      rw [List.drop_drop, Nat.mul_succ, Nat.add_comm]
      rfl
    rw [hdrop, readSubAuthorities, subAuthorityLength, encodeSubAuthorities_cons,
      ← (ByteOrder.long_eq_iff hfirst).mp rfl, List.append_assoc]
    exact (congrArg _ (ih hrest)).trans (List.take_append_drop 4 bytes)

theorem readSubAuthorities_eq_map (count : Nat) (bytes : List UInt8) :
    readSubAuthorities count bytes = (List.range count).map fun i =>
      UInt32.ofNat (ByteOrder.ofLittle (stretch bytes (subAuthorityLength * i) 4)) := by
  induction count generalizing bytes with
  | zero => rfl
  | succ count ih =>
    have hshift : ∀ i, stretch (bytes.drop subAuthorityLength) (subAuthorityLength * i) 4 =
        stretch bytes (subAuthorityLength * (i + 1)) 4 := by
      intro i
      rw [stretch, stretch, List.drop_drop, Nat.mul_succ, Nat.add_comm]
    rw [readSubAuthorities, ih, List.range_succ_eq_map, List.map_cons, List.map_map]
    simp only [hshift]
    rfl

theorem encode_eq {sid : Sid} (h : sid.Countable) :
    sid.encode = sid.revision :: UInt8.ofNat sid.subAuthorities.length ::
      (toBig 6 sid.authority.toNat ++ encodeSubAuthorities sid.subAuthorities) := by
  rw [encode, List.take_of_length_le h]
  rfl

theorem length_encode {sid : Sid} (h : sid.Countable) : sid.encode.length = sid.encodedLength := by
  rw [encode_eq h]
  simp [encodedLength, headerLength]
  omega

theorem toNat_count {sid : Sid} (h : sid.Countable) :
    (UInt8.ofNat sid.subAuthorities.length).toNat = sid.subAuthorities.length :=
  UInt8.toNat_ofNat_of_lt' (Nat.lt_succ_of_le h)

/-- As many bytes as the first of them announce are enough. -/
theorem decode_of_le {bytes : List UInt8} (h : announcedLength bytes ≤ bytes.length) :
    decode bytes = .ok
      { revision := bytes.getD 0 0
        authority := BitVec.ofNat 48 (ofBig (stretch bytes 2 6))
        subAuthorities :=
          readSubAuthorities (bytes.getD 1 0).toNat (bytes.drop headerLength) } := by
  have hheader : headerLength ≤ bytes.length := by
    unfold announcedLength at h
    omega
  simp [decode, h, hheader]

theorem decode_encode_append {sid : Sid} (h : sid.Countable) (rest : List UInt8) :
    decode (sid.encode ++ rest) = .ok sid := by
  have hannounced : announcedLength (sid.encode ++ rest) = sid.encodedLength := by
    rw [encode_eq h, announcedLength, encodedLength, ← toNat_count h]
    simp
  have hwhole : announcedLength (sid.encode ++ rest) ≤ (sid.encode ++ rest).length := by
    rw [hannounced, List.length_append, length_encode h]
    omega
  have hauthority : (toBig 6 sid.authority.toNat).length = 6 := ByteOrder.length_toBig _ _
  rw [decode_of_le hwhole, encode_eq h]
  have hstretch : stretch (sid.revision :: UInt8.ofNat sid.subAuthorities.length ::
      (toBig 6 sid.authority.toNat ++ encodeSubAuthorities sid.subAuthorities) ++ rest) 2 6 =
      toBig 6 sid.authority.toNat := by
    simp [stretch, List.take_left' hauthority]
  have hdrop : (sid.revision :: UInt8.ofNat sid.subAuthorities.length ::
      (toBig 6 sid.authority.toNat ++ encodeSubAuthorities sid.subAuthorities) ++ rest).drop
        headerLength = encodeSubAuthorities sid.subAuthorities ++ rest := by
    simp [headerLength, List.drop_left' hauthority]
  rw [hstretch, hdrop, (authority_eq_iff hauthority).mpr rfl]
  simp [toNat_count h, readSubAuthorities_append]

theorem exists_encode_append_of_decode {bytes : List UInt8} {sid : Sid}
    (h : decode bytes = .ok sid) : sid.Countable ∧ ∃ rest, bytes = sid.encode ++ rest := by
  unfold decode at h
  split_ifs at h with hheader hwhole
  cases h
  simp only [reaches_eq_decide, Bool.not_eq_true', decide_eq_false_iff_not, Nat.not_le,
    Nat.not_lt] at hheader hwhole
  obtain ⟨revision, count, tail, rfl⟩ : ∃ r c tail, bytes = r :: c :: tail := by
    rcases bytes with _ | ⟨r, _ | ⟨c, tail⟩⟩
    · simp [headerLength] at hheader
    · simp [headerLength] at hheader
    · exact ⟨r, c, tail, rfl⟩
  simp only [headerLength, announcedLength, List.length_cons, List.getD_cons_succ,
    List.getD_cons_zero] at hheader hwhole
  have hauthority : (tail.take 6).length = 6 := by
    rw [List.length_take]
    omega
  have hsubs : subAuthorityLength * count.toNat ≤ (tail.drop 6).length := by
    rw [List.length_drop]
    omega
  have hcount : count.toNat ≤ 255 := Nat.le_of_lt_succ count.toNat_lt
  refine ⟨by simpa [Countable] using hcount,
    (tail.drop 6).drop (subAuthorityLength * count.toNat), ?_⟩
  rw [encode_eq (by simpa [Countable] using hcount)]
  simp only [headerLength, stretch, List.drop_succ_cons, List.drop_zero, List.getD_cons_succ,
    List.getD_cons_zero, length_readSubAuthorities, UInt8.ofNat_toNat, List.cons_append,
    List.append_assoc, encodeSubAuthorities_readSubAuthorities hsubs,
    ← (authority_eq_iff hauthority).mp rfl, List.take_append_drop]

theorem decode_eq_ok_iff {bytes : List UInt8} {sid : Sid} :
    decode bytes = .ok sid ↔ sid.Countable ∧ ∃ rest, bytes = sid.encode ++ rest := by
  constructor
  · exact exists_encode_append_of_decode
  · rintro ⟨h, rest, rfl⟩
    exact decode_encode_append h rest

theorem decode_append {bytes : List UInt8} {sid : Sid} (h : decode bytes = .ok sid)
    (suffix : List UInt8) : decode (bytes ++ suffix) = .ok sid := by
  obtain ⟨hcountable, rest, rfl⟩ := decode_eq_ok_iff.mp h
  rw [List.append_assoc]
  exact decode_encode_append hcountable (rest ++ suffix)

/-- The bytes that an identifier takes up are its wire form. -/
theorem encode_eq_take_of_decode {bytes : List UInt8} {sid : Sid} (h : decode bytes = .ok sid) :
    sid.encode = bytes.take sid.encodedLength := by
  obtain ⟨hcountable, rest, rfl⟩ := decode_eq_ok_iff.mp h
  exact (List.take_left' (length_encode hcountable)).symm

theorem decode_take {bytes : List UInt8} {sid : Sid} (h : decode bytes = .ok sid) :
    decode (bytes.take sid.encodedLength) = .ok sid := by
  obtain ⟨hcountable, -⟩ := decode_eq_ok_iff.mp h
  rw [← encode_eq_take_of_decode h, ← List.append_nil sid.encode]
  exact decode_encode_append hcountable []

/-- Bytes behind the wire form do not matter, nor whether there are any. -/
theorem decode_of_take_eq {bytes other : List UInt8} {sid : Sid} (h : decode bytes = .ok sid)
    (hsame : other.take sid.encodedLength = bytes.take sid.encodedLength) :
    decode other = .ok sid := by
  have hread := decode_append (decode_take h) (other.drop sid.encodedLength)
  rwa [← hsame, List.take_append_drop] at hread

theorem exists_decode_iff {bytes : List UInt8} : (∃ sid, decode bytes = .ok sid) ↔
    headerLength ≤ bytes.length ∧ announcedLength bytes ≤ bytes.length := by
  constructor
  · rintro ⟨sid, h⟩
    have hwhole := encodedLength_le_of_decode h
    rw [encodedLength_of_decode h] at hwhole
    refine ⟨?_, hwhole⟩
    unfold announcedLength at hwhole
    omega
  · rintro ⟨-, hwhole⟩
    exact ⟨_, decode_of_le hwhole⟩

/-- The header first, and once that is there all that it announces. -/
def neededLength (bytes : List UInt8) : Nat :=
  if bytes.length < headerLength then headerLength else announcedLength bytes

theorem decode_eq_error_iff {bytes : List UInt8} {e : Shortfall} : decode bytes = .error e ↔
    bytes.length < neededLength bytes ∧ e = ⟨neededLength bytes, bytes.length⟩ := by
  simp only [decode, neededLength, reaches_eq_decide, Bool.not_eq_true', decide_eq_false_iff_not,
    Nat.not_le]
  split_ifs with hheader hwhole
  · simp only [Except.error.injEq, hheader, true_and, eq_comm]
  · simp only [Except.error.injEq, hwhole, true_and, eq_comm]
  · simp only [hwhole, false_and]

/-! ## More sub-authorities than the count can say -/

/-- What is left of an identifier in its wire form. -/
def carried (sid : Sid) : Sid := { sid with subAuthorities := sid.subAuthorities.take 255 }

theorem countable_carried (sid : Sid) : sid.carried.Countable := List.length_take_le _ _

theorem encode_carried (sid : Sid) : sid.carried.encode = sid.encode := by
  rw [encode, carried, List.take_take, Nat.min_self, encode]

theorem carried_eq_self_iff {sid : Sid} : sid.carried = sid ↔ sid.Countable := by
  constructor
  · intro h
    have hcountable := countable_carried sid
    rwa [h] at hcountable
  · intro h
    rw [carried, List.take_of_length_le h]

theorem decode_encode_append_eq (sid : Sid) (rest : List UInt8) :
    decode (sid.encode ++ rest) = .ok sid.carried := by
  rw [← encode_carried]
  exact decode_encode_append (countable_carried sid) rest

theorem length_encode_eq (sid : Sid) : sid.encode.length =
    headerLength + subAuthorityLength * min 255 sid.subAuthorities.length := by
  rw [← encode_carried, length_encode (countable_carried sid), encodedLength, carried,
    List.length_take]

theorem length_encode_eq_iff {sid : Sid} :
    sid.encode.length = sid.encodedLength ↔ sid.Countable := by
  rw [length_encode_eq, encodedLength, Countable, subAuthorityLength]
  omega

theorem decode_encode_append_iff {sid : Sid} {rest : List UInt8} :
    decode (sid.encode ++ rest) = .ok sid ↔ sid.Countable := by
  rw [decode_encode_append_eq, Except.ok.injEq, carried_eq_self_iff]

/-- Bytes are an identifier when they are as many as their count asks for; written again, it is
those bytes. An identifier is read back with the first 255 of its sub-authorities, so as itself,
and at the length that it claims, exactly when it has no more; of the number that its authority
was made from the low 48 bits come back. -/
theorem wire_form_inverse (bytes : List UInt8) (sid : Sid) :
    ((∃ read, decode bytes = .ok read) ↔
        8 ≤ bytes.length ∧ 8 + 4 * (bytes.getD 1 0).toNat ≤ bytes.length) ∧
      (∀ read, decode bytes = .ok read →
        read.encodedLength = 8 + 4 * (bytes.getD 1 0).toNat ∧
          read.encode = bytes.take read.encodedLength ∧
          ∀ other, other.take read.encodedLength = bytes.take read.encodedLength →
            decode other = .ok read) ∧
      (∀ rest, decode (sid.encode ++ rest) =
        .ok ⟨sid.revision, sid.authority, sid.subAuthorities.take 255⟩) ∧
      sid.encode.length = 8 + 4 * min sid.subAuthorities.length 255 ∧
      (∀ rest, decode (sid.encode ++ rest) = .ok sid ↔ sid.subAuthorities.length ≤ 255) ∧
      (sid.encode.length = sid.encodedLength ↔ sid.subAuthorities.length ≤ 255) ∧
      ∀ number rest, decode ((ofParts sid.revision number sid.subAuthorities).encode ++ rest) =
        .ok (ofParts sid.revision (number % ByteOrder.capacity 6)
          (sid.subAuthorities.take 255)) := by
  refine ⟨exists_decode_iff, ?_, decode_encode_append_eq sid, ?_,
    fun rest => decode_encode_append_iff, length_encode_eq_iff, ?_⟩
  · intro read h
    exact ⟨encodedLength_of_decode h, encode_eq_take_of_decode h, fun _ => decode_of_take_eq h⟩
  · rw [length_encode_eq, Nat.min_comm]
    rfl
  · intro number rest
    have hlow : BitVec.ofNat 48 (number % ByteOrder.capacity 6) = BitVec.ofNat 48 number := by
      apply BitVec.eq_of_toNat_eq
      rw [BitVec.toNat_ofNat, BitVec.toNat_ofNat]
      exact Nat.mod_mod number _
    rw [decode_encode_append_eq, ofParts, ofParts, hlow, carried]

/-- Two sub-authorities, behind them a byte that does not belong to them. -/
def paired : List UInt8 := [1, 2, 0, 0, 0, 0, 0, 5, 32, 0, 0, 0, 0x20, 2, 0, 0, 0xFF]

theorem wire_form_inverse_paired : decode paired = .ok ⟨1, 5, [32, 544]⟩ ∧
    (⟨1, 5, [32, 544]⟩ : Sid).encode = paired.take 16 ∧
    decode (paired.take 16) = .ok ⟨1, 5, [32, 544]⟩ := by
  have hread : decode paired = .ok ⟨1, 5, [32, 544]⟩ := rfl
  obtain ⟨-, hwritten, -⟩ := wire_form_inverse paired ⟨1, 5, [32, 544]⟩
  obtain ⟨-, hencode, hprefix⟩ := hwritten _ hread
  exact ⟨hread, hencode, hprefix _ (by decide)⟩

end Sid
end AccessControl
