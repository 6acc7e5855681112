import AccessControl.Descriptor.Decode
import AccessControl.Proofs.Acl.Scan
import AccessControl.Proofs.Checked.Reader

/-!
# Checked decoders

The decoders once more, with every access to bytes by position, every difference of lengths and
the growth of the list of entries as operations that have a condition. None of the conditions
ever fails: each checked decoder follows the plain one, whatever the bytes, the options and the
verbosity.
-/

namespace AccessControl

open Checked (Follows)
open Reader (Beside Stands)

/-! ## Security identifiers -/

namespace Sid

/-- Stretches of `n` elements one behind the other; what is left over at the end is dropped. -/
def chunks {α : Type} (n : Nat) (xs : List α) : List (List α) :=
  (List.range (xs.length / n)).map fun i => stretch xs (n * i) n

def readWordChecked (chunk : List UInt8) : Checked UInt32 := do
  let a ← Checked.index chunk 0
  let b ← Checked.index chunk 1
  let c ← Checked.index chunk 2
  let d ← Checked.index chunk 3
  return UInt32.ofNat (ByteOrder.ofLittle [a, b, c, d])

def readWordsChecked : List (List UInt8) → Checked (List UInt32)
  | [] => return []
  | chunk :: chunks => do
    let word ← readWordChecked chunk
    let words ← readWordsChecked chunks
    return word :: words

/-- A shortfall is a value here; whoever asks for the identifier makes an error of it. -/
def decodeChecked (bytes : List UInt8) : Checked (Except Shortfall Sid) :=
  if bytes.length < headerLength then return .error ⟨headerLength, bytes.length⟩
  else do
    let revision ← Checked.index bytes 0
    let count ← Checked.index bytes 1
    let needed := headerLength + subAuthorityLength * count.toNat
    if bytes.length < needed then return .error ⟨needed, bytes.length⟩
    else
      let authority ← Checked.slice bytes 2 headerLength
      let words ← Checked.slice bytes headerLength needed
      let subAuthorities ← readWordsChecked (chunks subAuthorityLength words)
      return .ok
        { revision
          authority := BitVec.ofNat 48 (ByteOrder.ofBig authority)
          subAuthorities }

theorem readWordChecked_eq {chunk : List UInt8} (h : chunk.length = 4) :
    readWordChecked chunk = pure (UInt32.ofNat (ByteOrder.ofLittle chunk)) := by
  match chunk, h with
  | [a, b, c, d], _ => rfl

theorem readWordsChecked_eq {chunks : List (List UInt8)}
    (h : ∀ chunk ∈ chunks, chunk.length = 4) : readWordsChecked chunks =
      pure (chunks.map fun chunk => UInt32.ofNat (ByteOrder.ofLittle chunk)) := by
  induction chunks with
  | nil => rfl
  | cons chunk chunks ih =>
    obtain ⟨hchunk, hchunks⟩ := List.forall_mem_cons.mp h
    rw [readWordsChecked, readWordChecked_eq hchunk, Checked.pure_bind, ih hchunks]
    rfl

/-- So many words of the bytes, chunk by chunk. -/
theorem readWordsChecked_chunks {bytes : List UInt8} {start count : Nat}
    (h : start + subAuthorityLength * count ≤ bytes.length) :
    readWordsChecked (chunks subAuthorityLength
        (stretch bytes start (subAuthorityLength * count))) =
      pure (readSubAuthorities count (bytes.drop start)) := by
  have hpos : 0 < subAuthorityLength := by decide
  -- Word by word: a chunk of the stretch is a chunk of all the bytes, and none is too short.
  have hfits : ∀ i ∈ List.range count,
      subAuthorityLength * i + subAuthorityLength ≤ subAuthorityLength * count := by
    intro i hi
    have hi : i + 1 ≤ count := List.mem_range.mp hi
    exact Nat.mul_le_mul_left subAuthorityLength hi
  rw [chunks, length_stretch h, Nat.mul_div_cancel_left _ hpos, readWordsChecked_eq]
  · rw [readSubAuthorities_eq_map, List.map_map]
    congr 1
    apply List.map_congr_left
    intro i hi
    have hword : stretch (stretch bytes start (subAuthorityLength * count))
        (subAuthorityLength * i) 4 = stretch (bytes.drop start) (subAuthorityLength * i) 4 :=
      stretch_take (hfits i hi)
    exact congrArg (fun word => UInt32.ofNat (ByteOrder.ofLittle word)) hword
  · intro chunk hchunk
    obtain ⟨i, hi, rfl⟩ := List.mem_map.mp hchunk
    apply length_stretch
    rw [length_stretch h]
    exact hfits i hi

theorem decodeChecked_eq (bytes : List UInt8) : decodeChecked bytes = pure (decode bytes) := by
  unfold decodeChecked
  by_cases hheader : headerLength ≤ bytes.length
  · have hzero : 0 < bytes.length := Nat.lt_of_lt_of_le (by decide) hheader
    have hone : 1 < bytes.length := Nat.lt_of_lt_of_le (by decide) hheader
    rw [if_neg (Nat.not_lt.mpr hheader), Checked.index_of_lt hzero, Checked.pure_bind,
      Checked.index_of_lt hone, Checked.pure_bind]
    dsimp only
    by_cases hneeded : announcedLength bytes ≤ bytes.length
    · have hwords := readWordsChecked_chunks hneeded
      unfold announcedLength at hneeded
      have hstart : headerLength ≤ headerLength + subAuthorityLength * (bytes.getD 1 0).toNat :=
        Nat.le_add_right _ _
      rw [if_neg (Nat.not_lt.mpr hneeded), Checked.slice_of_le (by decide) hheader,
        Checked.pure_bind, Checked.slice_of_le hstart hneeded, Checked.pure_bind,
        Nat.add_sub_cancel_left, hwords, Checked.pure_bind, decode_of_le hneeded]
      rfl
    · have hlt : bytes.length < announcedLength bytes := Nat.lt_of_not_le hneeded
      rw [← announcedLength, if_pos hlt]
      simp [decode, hheader, hneeded]
  · simp [decode, hheader]

end Sid

/-! ## Entries -/

namespace Ace

def readHeaderChecked (bytes : List UInt8) : Checked (AceType × AceFlags × UInt16) := do
  let (code, r) ← (Reader.ofBytes bytes).byte .aceType
  match AceType.ofCode? code with
  | none => Checked.fail (.unknownAceType code)
  | some type =>
    let (flags, r) ← r.byte .aceFlags
    let (size, _) ← r.wordLittle .aceSize
    if bytes.length < size.toNat then Checked.fail (.sizeOverrun 0 size.toNat bytes.length)
    else return (type, ⟨flags.toBitVec⟩, size)

def readIdentifierChecked (present : Bool) (field : Field) (r : Reader) :
    Checked (Option Guid × Reader) :=
  if present then do
    let (guid, r) ← r.guid field
    return (some guid, r)
  else return (none, r)

def readScopeChecked (v : Verbosity) (type : AceType) (r : Reader) :
    Checked (Option ObjectScope × Reader) :=
  if type.isObject then do
    let (word, r) ← r.longLittle .objectFlags
    let flags : ObjectFlags := ⟨word.toBitVec⟩
    Checked.report v .trace (return .objectFlags flags)
    let (objectType, r) ←
      readIdentifierChecked (flags.contains .objectTypePresent) .objectType r
    let (inherited, r) ←
      readIdentifierChecked (flags.contains .inheritedObjectTypePresent) .inheritedObjectType r
    return (some ⟨flags, objectType, inherited⟩, r)
  else return (none, r)

def readTrusteeChecked (r : Reader) : Checked (Sid × Reader) := do
  let tail ← r.remaining
  let decoded ← Sid.decodeChecked tail
  let trustee ← Checked.ofExcept (decoded.mapError (.sid r.position))
  let r ← r.skip trustee.encodedLength .trustee
  return (trustee, r)

/-- The length of the data is the one difference that only an event asks for. -/
def reportTail (v : Verbosity) (type : AceType) (declared consumed : Nat) : Checked Unit :=
  if type.carriesData then
    Checked.report v .trace do
      let length ← Checked.difference declared consumed
      return .applicationData length
  else if declared ≠ consumed then Checked.report v .debug (return .slack declared consumed)
  else return ()

def readTailChecked (v : Verbosity) (policy : SizePolicy) (type : AceType) (declared : Nat)
    (r : Reader) : Checked (Option (List UInt8)) := do
  reportTail v type declared r.position
  if type.carriesData then
    let (data, _) ← r.rest
    return some data
  else if policy = .strict ∧ r.position ≠ declared then
    Checked.fail (.sizeMismatch declared r.position)
  else return none

def readChecked (v : Verbosity) (options : DecodeOptions) (bytes : List UInt8) : Checked Ace := do
  let (type, flags, size) ← readHeaderChecked bytes
  let extent ← Checked.slice bytes 0 size.toNat
  let r ← (Reader.ofBytes extent).skip headerLength .aceHeader
  let (mask, r) ← r.longBig .accessMask
  let (scope, r) ← readScopeChecked v type r
  let (trustee, r) ← readTrusteeChecked r
  let applicationData ← readTailChecked v options.sizePolicy type size.toNat r
  return { type, flags, mask, scope, trustee, applicationData, size }

variable {v : Verbosity} {bytes : List UInt8} {r : Reader} {c : Cursor}

theorem readHeaderChecked_follows (bytes : List UInt8) :
    Follows v Eq (readHeaderChecked bytes) (Traced.ofExcept (readHeader bytes)) := by
  refine ((Reader.stands_ofBytes bytes).byte_follows .aceType).bind_ofExcept ?_
  rintro ⟨code, r₁⟩ ⟨_, c₁⟩ - ⟨rfl, h₁⟩
  dsimp only
  cases AceType.ofCode? code with
  | none => exact .fail _
  | some type =>
    refine (h₁.byte_follows .aceFlags).bind_ofExcept ?_
    rintro ⟨flags, r₂⟩ ⟨_, c₂⟩ - ⟨rfl, h₂⟩
    refine (h₂.wordLittle_follows .aceSize).bind_ofExcept ?_
    rintro ⟨size, r₃⟩ ⟨_, c₃⟩ - ⟨rfl, h₃⟩
    dsimp only
    by_cases hsize : size.toNat ≤ bytes.length
    · rw [if_neg (Nat.not_lt.mpr hsize), if_pos (reaches_iff.mpr hsize)]
      exact .pure rfl
    · rw [if_pos (Nat.lt_of_not_le hsize), if_neg (mt reaches_iff.mp hsize)]
      exact .fail _

theorem readIdentifierChecked_follows (h : Stands bytes r c) (present : Bool) (field : Field) :
    Follows v (Beside bytes) (readIdentifierChecked present field r)
      (Traced.ofExcept (readIdentifier present field c)) := by
  cases present with
  | true =>
    refine (h.guid_follows field).map ?_
    rintro ⟨guid, r⟩ ⟨_, c⟩ ⟨rfl, hstands⟩
    exact ⟨rfl, hstands⟩
  | false => exact .pure ⟨rfl, h⟩

theorem readScopeChecked_follows (h : Stands bytes r c) (type : AceType) :
    Follows v (Beside bytes) (readScopeChecked v type r) (readScope type c) := by
  unfold readScopeChecked readScope
  split
  · refine (h.longLittle_follows .objectFlags).bind ?_
    rintro ⟨word, r₁⟩ ⟨_, c₁⟩ - ⟨rfl, h₁⟩
    refine (Follows.report (.objectFlags ⟨word.toBitVec⟩)).bind ?_
    intro _ _ _ _
    refine (readIdentifierChecked_follows h₁ _ .objectType).bind ?_
    rintro ⟨objectType, r₂⟩ ⟨_, c₂⟩ - ⟨rfl, h₂⟩
    refine (readIdentifierChecked_follows h₂ _ .inheritedObjectType).bind ?_
    rintro ⟨inherited, r₃⟩ ⟨_, c₃⟩ - ⟨rfl, h₃⟩
    exact .pure ⟨rfl, h₃⟩
  · exact .pure ⟨rfl, h⟩

theorem readTrusteeChecked_follows (h : Stands bytes r c) :
    Follows v (Beside bytes) (readTrusteeChecked r) (Traced.ofExcept (readTrustee c)) := by
  rw [readTrusteeChecked, h.remaining_eq, Checked.pure_bind, Sid.decodeChecked_eq,
    Checked.pure_bind, h.position_eq]
  refine (Follows.ofExcept _).bind_ofExcept ?_
  rintro trustee _ - rfl
  refine (h.skip_follows trustee.encodedLength .trustee).bind_ofExcept ?_
  intro r' c' _ h'
  exact .pure ⟨rfl, h'⟩

theorem reportTail_follows {type : AceType} {declared consumed : Nat}
    (h : consumed ≤ declared) : Follows v Eq (reportTail v type declared consumed)
      ⟨tailEvents type declared consumed, .ok ()⟩ := by
  unfold reportTail tailEvents
  rw [Checked.difference_of_le h, Checked.pure_bind]
  split
  · exact .report (.applicationData (declared - consumed))
  · split
    · exact .report (.slack declared consumed)
    · exact .pure rfl

/-- Behind the declared size there would be no data, and only its event would say so. -/
example : reportTail ⟨.trace⟩ .accessAllowedCallback 20 24 = .fault (.difference 20 24) ∧
    reportTail ⟨.debug⟩ .accessAllowedCallback 20 24 = pure () := ⟨rfl, rfl⟩

theorem readTailChecked_follows (h : Stands bytes r c) {declared : Nat}
    (hdeclared : bytes.length = declared) (policy : SizePolicy) (type : AceType) :
    Follows v Eq (readTailChecked v policy type declared r) (readTail policy type declared c) := by
  have htail : readTail policy type declared c =
      (⟨tailEvents type declared c.position, .ok ()⟩ : Traced Unit) >>= fun _ =>
        Traced.ofExcept (readTail policy type declared c).result :=
    Traced.ext (List.append_nil _).symm rfl
  rw [htail, readTailChecked, h.position_eq]
  -- The reader never leaves the extent, whose length is the declared size.
  have hconsumed : c.position ≤ declared := by
    rw [← h.position_eq, ← hdeclared]
    exact h.position_le
  refine (reportTail_follows hconsumed).bind ?_
  intro _ _ _ _
  unfold readTail
  dsimp only
  split
  · rw [h.rest_eq, Checked.pure_bind]
    exact .pure rfl
  · split
    · exact .fail _
    · exact .pure rfl

theorem readChecked_follows (options : DecodeOptions) (bytes : List UInt8) :
    Follows v Eq (readChecked v options bytes) (read options bytes) := by
  refine (readHeaderChecked_follows bytes).bind ?_
  rintro ⟨type, flags, size⟩ _ hheader rfl
  have hsize : size.toNat ≤ bytes.length := (readHeader_eq_ok_iff.mp hheader).1
  have hextent : Checked.slice bytes 0 size.toNat = pure (bytes.take size.toNat) :=
    Checked.slice_of_le (Nat.zero_le _) hsize
  dsimp only
  rw [hextent, Checked.pure_bind]
  refine ((Reader.stands_ofBytes _).skip_follows headerLength .aceHeader).bind ?_
  intro r₁ c₁ _ h₁
  refine (h₁.longBig_follows .accessMask).bind ?_
  rintro ⟨mask, r₂⟩ ⟨_, c₂⟩ - ⟨rfl, h₂⟩
  refine (readScopeChecked_follows h₂ type).bind ?_
  rintro ⟨scope, r₃⟩ ⟨_, c₃⟩ - ⟨rfl, h₃⟩
  refine (readTrusteeChecked_follows h₃).bind ?_
  rintro ⟨trustee, r₄⟩ ⟨_, c₄⟩ - ⟨rfl, h₄⟩
  refine (readTailChecked_follows h₄ (List.length_take_of_le hsize) _ type).bind ?_
  rintro applicationData _ - rfl
  exact .pure rfl

end Ace

/-! ## Lists -/

namespace Acl

def readHeaderChecked (bytes : List UInt8) : Checked Header := do
  let (value, r) ← (Reader.ofBytes bytes).byte .aclRevision
  match AclRevision.ofValue? value with
  | none => Checked.fail (.unknownAclRevision value)
  | some revision =>
    let (sbz1, r) ← r.byte .aclSbz1
    let (size, r) ← r.wordLittle .aclSize
    let (count, r) ← r.wordLittle .aceCount
    let (sbz2, _) ← r.wordLittle .aclSbz2
    return { revision, sbz1, size, count, sbz2 }

/-- The entry goes where room is reserved for it. -/
def Scan.pushChecked (s : Scan) (reserved : Nat) (ace : Ace) : Checked Scan :=
  Checked.require (s.found.length < reserved) (.reservation s.found.length reserved) (s.push ace)

def scanChecked (v : Verbosity) (options : DecodeOptions) (bytes : List UInt8) (reserved : Nat) :
    (count index : Nat) → Scan → Checked Scan
  | 0, _, s => return s
  | count + 1, index, s => do
    let tail ← Checked.sliceFrom bytes s.offset
    let ace ← (Ace.readChecked v options tail).mapError (.inAce index s.offset)
    Checked.report v .trace (return .aclEntry index s.offset ace)
    let s ← s.pushChecked reserved ace
    scanChecked v options bytes reserved count (index + 1) s

def readChecked (v : Verbosity) (options : DecodeOptions) (bytes : List UInt8) : Checked Acl := do
  let header ← readHeaderChecked bytes
  Checked.report v .debug (return .aclHeader header.revision header.size header.count)
  let s ← scanChecked v options bytes (reservation header bytes) header.count.toNat 0 .start
  if options.checkAclSize ∧ header.size.toNat < s.offset then
    Checked.fail (.aclSizeExceeded header.size.toNat s.offset)
  else
    return { revision := header.revision, sbz1 := header.sbz1, size := header.size
             sbz2 := header.sbz2, aces := s.found }

variable {v : Verbosity} {options : DecodeOptions} {bytes : List UInt8}

theorem readHeaderChecked_follows (bytes : List UInt8) :
    Follows v Eq (readHeaderChecked bytes) (Traced.ofExcept (readHeader bytes)) := by
  refine ((Reader.stands_ofBytes bytes).byte_follows .aclRevision).bind_ofExcept ?_
  rintro ⟨value, r₁⟩ ⟨_, c₁⟩ - ⟨rfl, h₁⟩
  dsimp only
  cases AclRevision.ofValue? value with
  | none => exact .fail _
  | some revision =>
    refine (h₁.byte_follows .aclSbz1).bind_ofExcept ?_
    rintro ⟨sbz1, r₂⟩ ⟨_, c₂⟩ - ⟨rfl, h₂⟩
    refine (h₂.wordLittle_follows .aclSize).bind_ofExcept ?_
    rintro ⟨size, r₃⟩ ⟨_, c₃⟩ - ⟨rfl, h₃⟩
    refine (h₃.wordLittle_follows .aceCount).bind_ofExcept ?_
    rintro ⟨count, r₄⟩ ⟨_, c₄⟩ - ⟨rfl, h₄⟩
    refine (h₄.wordLittle_follows .aclSbz2).bind_ofExcept ?_
    rintro ⟨sbz2, r₅⟩ ⟨_, c₅⟩ - ⟨rfl, -⟩
    exact .pure rfl

/-- Each state on the way is reached, so the next slice lies inside the bytes; and as the state
after an entry is reached too, there was room for the entry. -/
theorem scanChecked_follows {header : Header} {count index : Nat} {s : Scan}
    (hs : Scan.Reached options bytes header s) (hindex : s.found.length = index)
    (hcount : index + count = header.count.toNat) :
    Follows v (fun s' aces => s' = ⟨endOffset s.offset aces, s.found ++ aces⟩)
      (scanChecked v options bytes (reservation header bytes) count index s)
      (readEntries options count index s.offset (bytes.drop s.offset)) := by
  induction count generalizing index s with
  | zero =>
    apply Follows.pure
    rw [List.append_nil]
    rfl
  | succ count ih =>
    rw [scanChecked, Checked.sliceFrom_of_le hs.sound.inside, Checked.pure_bind, readEntries]
    refine ((Ace.readChecked_follows options _).mapError (.inAce index s.offset)).bind ?_
    rintro ace _ hace rfl
    have hnext : Scan.Reached options bytes header (s.push ace) :=
      hs.push (by omega) (mapError_eq_ok_iff.mp hace)
    have hlength : (s.push ace).found.length = index + 1 := by
      rw [Scan.push, List.length_append, hindex]
      rfl
    have hroom : s.found.length < reservation header bytes := by
      have hle := hnext.sound.length_le_reservation
      omega
    refine (Follows.report (.aclEntry index s.offset ace)).bind ?_
    intro _ _ _ _
    rw [Scan.pushChecked, Checked.require_of hroom, Checked.pure_bind, List.drop_drop]
    refine (ih hnext hlength (by omega)).map_right ?_
    rintro _ aces rfl
    rw [Scan.push, List.append_assoc]
    rfl

theorem readChecked_follows (options : DecodeOptions) (bytes : List UInt8) :
    Follows v Eq (readChecked v options bytes) (read options bytes) := by
  refine (readHeaderChecked_follows bytes).bind ?_
  rintro header _ hheader rfl
  refine (Follows.report (.aclHeader header.revision header.size header.count)).bind ?_
  intro _ _ _ _
  refine (scanChecked_follows (.start hheader) rfl (Nat.zero_add _)).bind ?_
  rintro _ aces - rfl
  show Follows v Eq _ (Traced.ofExcept (checkSize options _))
  unfold checkSize
  split_ifs with hrun hplain hplain
  · exact .fail _
  · exact absurd hrun hplain
  · exact absurd hplain hrun
  · exact .pure rfl

end Acl

/-! ## Descriptors -/

namespace Descriptor

def readHeaderChecked (bytes : List UInt8) : Checked Header := do
  let (revision, r) ← (Reader.ofBytes bytes).byte .descriptorRevision
  let (sbz1, r) ← r.byte .descriptorSbz1
  let (control, r) ← r.wordLittle .descriptorControl
  let (owner, r) ← r.longLittle .ownerOffset
  let (group, r) ← r.longLittle .groupOffset
  let (sacl, r) ← r.longLittle .saclOffset
  let (dacl, _) ← r.longLittle .daclOffset
  return { revision, sbz1, control := ⟨control.toBitVec⟩, owner, group, sacl, dacl }

def readSidChecked (offset : Nat) (bytes : List UInt8) : Checked Sid := do
  let decoded ← Sid.decodeChecked bytes
  Checked.ofExcept (decoded.mapError (.sid offset))

def readComponentChecked {α : Type} (v : Verbosity) (h : Header) (bytes : List UInt8)
    (which : Component) (read : List UInt8 → Checked α) : Checked (Option α) :=
  if h.selects which then
    Checked.mapError (.inDescriptor which) <|
      if bytes.length ≤ h.offset which then
        Checked.fail (.offsetOutOfBounds (h.offset which) bytes.length)
      else do
        Checked.report v .trace (return .component which (h.offset which))
        let tail ← Checked.sliceFrom bytes (h.offset which)
        let value ← read tail
        return some value
  else return none

def readChecked (v : Verbosity) (options : DecodeOptions) (bytes : List UInt8) :
    Checked Descriptor := do
  let h ← readHeaderChecked bytes
  Checked.report v .debug (return .descriptorHeader h.revision h.control)
  let owner ← readComponentChecked v h bytes .owner (readSidChecked (h.offset .owner))
  let group ← readComponentChecked v h bytes .group (readSidChecked (h.offset .group))
  let sacl ← readComponentChecked v h bytes .sacl (Acl.readChecked v options)
  let dacl ← readComponentChecked v h bytes .dacl (Acl.readChecked v options)
  return { revision := h.revision, sbz1 := h.sbz1, control := h.control, owner, group, sacl, dacl }

variable {v : Verbosity} {bytes : List UInt8}

theorem readHeaderChecked_follows (bytes : List UInt8) :
    Follows v Eq (readHeaderChecked bytes) (Traced.ofExcept (readHeader bytes)) := by
  refine ((Reader.stands_ofBytes bytes).byte_follows .descriptorRevision).bind_ofExcept ?_
  rintro ⟨revision, r₁⟩ ⟨_, c₁⟩ - ⟨rfl, h₁⟩
  refine (h₁.byte_follows .descriptorSbz1).bind_ofExcept ?_
  rintro ⟨sbz1, r₂⟩ ⟨_, c₂⟩ - ⟨rfl, h₂⟩
  refine (h₂.wordLittle_follows .descriptorControl).bind_ofExcept ?_
  rintro ⟨control, r₃⟩ ⟨_, c₃⟩ - ⟨rfl, h₃⟩
  refine (h₃.longLittle_follows .ownerOffset).bind_ofExcept ?_
  rintro ⟨owner, r₄⟩ ⟨_, c₄⟩ - ⟨rfl, h₄⟩
  refine (h₄.longLittle_follows .groupOffset).bind_ofExcept ?_
  rintro ⟨group, r₅⟩ ⟨_, c₅⟩ - ⟨rfl, h₅⟩
  refine (h₅.longLittle_follows .saclOffset).bind_ofExcept ?_
  rintro ⟨sacl, r₆⟩ ⟨_, c₆⟩ - ⟨rfl, h₆⟩
  refine (h₆.longLittle_follows .daclOffset).bind_ofExcept ?_
  rintro ⟨dacl, r₇⟩ ⟨_, c₇⟩ - ⟨rfl, -⟩
  exact .pure rfl

theorem readSidChecked_follows (offset : Nat) (bytes : List UInt8) :
    Follows v Eq (readSidChecked offset bytes) (readSid offset bytes) := by
  rw [readSidChecked, Sid.decodeChecked_eq, Checked.pure_bind]
  exact .ofExcept _

theorem readComponentChecked_follows {α : Type} (h : Header) (bytes : List UInt8)
    (which : Component) {readChecked : List UInt8 → Checked α} {read : List UInt8 → Traced α}
    (hread : ∀ tail, Follows v Eq (readChecked tail) (read tail)) :
    Follows v Eq (readComponentChecked v h bytes which readChecked)
      (readComponent h bytes which read) := by
  unfold readComponentChecked readComponent
  split
  · apply Follows.mapError
    by_cases hinside : h.offset which + 1 ≤ bytes.length
    · rw [if_neg (Nat.not_le.mpr hinside), if_pos (reaches_iff.mpr hinside)]
      refine (Follows.report (.component which (h.offset which))).bind ?_
      intro _ _ _ _
      rw [Checked.sliceFrom_of_le (Nat.le_of_succ_le hinside), Checked.pure_bind]
      refine (hread _).bind ?_
      rintro value _ - rfl
      exact .pure rfl
    · have houtside : bytes.length ≤ h.offset which :=
        Nat.le_of_lt_succ (Nat.lt_of_not_le hinside)
      rw [if_pos houtside, if_neg (mt reaches_iff.mp hinside)]
      exact .fail _
  · exact .pure rfl

theorem readChecked_follows (options : DecodeOptions) (bytes : List UInt8) :
    Follows v Eq (readChecked v options bytes) (read options bytes) := by
  refine (readHeaderChecked_follows bytes).bind ?_
  rintro h _ - rfl
  refine (Follows.report (.descriptorHeader h.revision h.control)).bind ?_
  intro _ _ _ _
  refine (readComponentChecked_follows h bytes .owner (readSidChecked_follows _)).bind ?_
  rintro owner _ - rfl
  refine (readComponentChecked_follows h bytes .group (readSidChecked_follows _)).bind ?_
  rintro group _ - rfl
  refine (readComponentChecked_follows h bytes .sacl (Acl.readChecked_follows options)).bind ?_
  rintro sacl _ - rfl
  refine (readComponentChecked_follows h bytes .dacl (Acl.readChecked_follows options)).bind ?_
  rintro dacl _ - rfl
  exact .pure rfl

end Descriptor
end AccessControl
