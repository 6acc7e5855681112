import AccessControl.Proofs.Ace.Reading
import AccessControl.Proofs.Positions

/-!
# The grammar of entries

Where every field of an entry stands, told from the bytes alone: later positions depend on
the type, on bits of the object flags and on the number of sub-authorities. Decoding accepts
exactly the bytes whose fields lie inside the size that they declare, and reads every field
at its position.
-/

namespace AccessControl

open ByteOrder (ofLittle ofBig)

/-- The number of sub-authorities that an identifier at this position counts. -/
def Sid.countAt (bytes : List UInt8) (position : Nat) : Nat := (bytes.getD (position + 1) 0).toNat

/-- The bytes from this position on are read as this identifier. -/
structure Sid.StandsAt (bytes : List UInt8) (position : Nat) (sid : Sid) : Prop where
  revision_eq : sid.revision = bytes.getD position 0
  authority_eq : sid.authority.toNat = ofBig (stretch bytes (position + 2) 6)
  subAuthorities_eq : sid.subAuthorities.map UInt32.toNat =
    (List.range (countAt bytes position)).map fun i =>
      ofLittle (stretch bytes (position + 8 + 4 * i) 4)

namespace Ace
namespace Grammar

def code (bytes : List UInt8) : UInt8 := bytes.getD 0 0

def declaredSize (bytes : List UInt8) : Nat := ofLittle (stretch bytes 2 2)

def objectWord (bytes : List UInt8) : Nat := ofLittle (stretch bytes 8 4)

/-- Sixteen bytes are taken up by an identifier when its bit of the object flags is set. -/
def identifierLength (bytes : List UInt8) (bit : Nat) : Nat :=
  if (objectWord bytes).testBit bit then 16 else 0

/-- Object flags and the identifiers that they announce, for the object types. -/
def scopeLength (bytes : List UInt8) : Nat :=
  if code bytes ∈ Layout.objectCodes then 4 + (identifierLength bytes 0 + identifierLength bytes 1)
  else 0

def inheritedStart (bytes : List UInt8) : Nat := 12 + identifierLength bytes 0

def trusteeStart (bytes : List UInt8) : Nat := 8 + scopeLength bytes

/-- The end of the trustee, and the start of what is application data or slack. -/
def fieldsEnd (bytes : List UInt8) : Nat :=
  trusteeStart bytes + (8 + 4 * Sid.countAt bytes (trusteeStart bytes))

/-- The identifier at a position, where the type has one and its bit is set. -/
def identifierAt (bytes : List UInt8) (bit position : Nat) : Option (List UInt8) :=
  if code bytes ∈ Layout.objectCodes ∧ (objectWord bytes).testBit bit then
    some (stretch bytes position 16)
  else none

/-- The bytes are an entry, with nothing between the trustee and the declared size where the
policy has no room for it. -/
structure Accepted (options : DecodeOptions) (bytes : List UInt8) : Prop where
  header : 4 ≤ bytes.length
  known : code bytes < 20
  size_le : declaredSize bytes ≤ bytes.length
  fields_le : fieldsEnd bytes ≤ declaredSize bytes
  exact : options.sizePolicy = .strict → code bytes ∉ dataCodes →
    fieldsEnd bytes = declaredSize bytes

/-- Every field of the entry is the one at its position. -/
structure Describes (bytes : List UInt8) (ace : Ace) : Prop where
  type_eq : ace.type.code = code bytes
  flags_eq : ace.flags.raw = (bytes.getD 1 0).toBitVec
  size_eq : ace.size.toNat = declaredSize bytes
  mask_eq : ace.mask.toNat = ofBig (stretch bytes 4 4)
  objectFlags_eq : ace.objectFlags.map (fun flags => flags.raw.toNat) =
    if code bytes ∈ Layout.objectCodes then some (objectWord bytes) else none
  objectType_eq : ace.objectType.map Guid.bytes =
    (identifierAt bytes 0 12).map Guid.swapGroups
  inherited_eq : ace.inheritedObjectType.map Guid.bytes =
    (identifierAt bytes 1 (inheritedStart bytes)).map Guid.swapGroups
  trustee_at : Sid.StandsAt bytes (trusteeStart bytes) ace.trustee
  applicationData_eq : ace.applicationData =
    if code bytes ∈ dataCodes then
      some (stretch bytes (fieldsEnd bytes) (declaredSize bytes - fieldsEnd bytes))
    else none

/-! ## Readers at positions -/

open Cursor (within Covers)

variable {bytes : List UInt8} {bound position : Nat}

theorem announcedLength_within (h : position + 8 ≤ bound) :
    Sid.announcedLength (within bytes bound position).remaining =
      8 + 4 * Sid.countAt bytes position := by
  rw [Sid.announcedLength, within, getD_drop_take (by omega)]
  rfl

theorem standsAt_of_decode {sid : Sid} (hbound : bound ≤ bytes.length)
    (hfits : position + (8 + 4 * Sid.countAt bytes position) ≤ bound)
    (h : Sid.decode ((bytes.take bound).drop position) = .ok sid) :
    Sid.StandsAt bytes position sid := by
  have hcount : ((bytes.take bound).drop position).getD 1 0 = bytes.getD (position + 1) 0 :=
    getD_drop_take (by omega)
  have hlength : Sid.announcedLength ((bytes.take bound).drop position) ≤
      ((bytes.take bound).drop position).length := by
    rw [← Sid.encodedLength_of_decode h]
    exact Sid.encodedLength_le_of_decode h
  rw [Sid.decode_of_le hlength] at h
  cases h
  refine ⟨getD_drop_take (by omega), ?_, ?_⟩
  · have hauthority : (stretch bytes (position + 2) 6).length = 6 := length_stretch (by omega)
    rw [stretch_drop_take (by omega), BitVec.toNat_ofNat, Nat.mod_eq_of_lt]
    simpa [hauthority, ByteOrder.capacity] using ByteOrder.ofBig_lt (stretch bytes (position + 2) 6)
  · rw [Sid.readSubAuthorities_eq_map, List.map_map, hcount]
    apply List.map_congr_left
    intro i hi
    have hi : i < Sid.countAt bytes position := List.mem_range.mp hi
    have hsub : stretch (((bytes.take bound).drop position).drop Sid.headerLength)
        (Sid.subAuthorityLength * i) 4 = stretch bytes (position + 8 + 4 * i) 4 := by
      rw [List.drop_drop]
      apply stretch_drop_take
      unfold Sid.headerLength Sid.subAuthorityLength
      omega
    rw [Function.comp_apply, hsub, ByteOrder.toNat_long (length_stretch (by omega))]

theorem readTrustee_covers (hbound : bound ≤ bytes.length) :
    Covers readTrustee bytes bound position (8 + 4 * Sid.countAt bytes position)
      (Sid.StandsAt bytes position) := by
  constructor
  · intro hfits
    have hlength : Sid.announcedLength (within bytes bound position).remaining ≤
        (within bytes bound position).remaining.length := by
      rw [announcedLength_within (by omega), Cursor.le_length_within_iff hbound (by omega)]
      exact hfits
    obtain ⟨sid, hsid⟩ : ∃ sid, Sid.decode (within bytes bound position).remaining = .ok sid :=
      ⟨_, Sid.decode_of_le hlength⟩
    have hskip : (within bytes bound position).skip sid.encodedLength .trustee =
        .ok (within bytes bound (position + (8 + 4 * Sid.countAt bytes position))) := by
      rw [Sid.encodedLength_of_decode hsid, announcedLength_within (by omega),
        Cursor.skip_within_eq_ok_iff hbound (by omega)]
      exact ⟨hfits, rfl⟩
    refine ⟨sid, ?_⟩
    simp only [readTrustee, hsid, ok_mapError, ok_bind, hskip]
    rfl
  · intro hposition sid d h
    obtain ⟨trustee, hsid, h⟩ := bind_eq_ok_iff.mp h
    obtain ⟨e, hskip, h⟩ := bind_eq_ok_iff.mp h
    obtain ⟨rfl, rfl⟩ := Prod.mk.inj (Except.ok.inj h)
    have hsid := mapError_eq_ok_iff.mp hsid
    obtain ⟨hle, rfl⟩ := (Cursor.skip_within_eq_ok_iff hbound hposition).mp hskip
    rw [Sid.encodedLength_of_decode hsid] at hle ⊢
    have hheader : position + 8 ≤ bound := by
      unfold Sid.announcedLength Sid.headerLength at hle
      omega
    rw [announcedLength_within hheader] at hle ⊢
    exact ⟨hle, standsAt_of_decode hbound hle hsid, rfl⟩

theorem readIdentifier_covers (hbound : bound ≤ bytes.length) (present : Bool) (field : Field) :
    Covers (readIdentifier present field) bytes bound position (if present then 16 else 0)
      fun guid => guid.map Guid.toWire =
        if present then some (stretch bytes position 16) else none := by
  cases present with
  | false => exact Covers.pure rfl
  | true =>
    have hguid : Covers _ bytes bound position 16 _ := Cursor.guid_covers hbound field
    constructor
    · intro hfits
      obtain ⟨guid, hread⟩ := hguid.total hfits
      exact ⟨some guid, by simp [readIdentifier, hread]⟩
    · intro hposition guid d h
      obtain ⟨⟨read, e⟩, hread, h⟩ := exceptMap_eq_ok_iff.mp h
      obtain ⟨rfl, rfl⟩ := Prod.mk.inj h
      obtain ⟨hfits, hvalue, hd⟩ := hguid.sound hposition hread
      exact ⟨hfits, congrArg some hvalue, hd⟩

/-- A scope is the one that stands behind the mask. -/
structure ScopeStands (bytes : List UInt8) (scope : Option ObjectScope) : Prop where
  flags_eq : scope.map (fun s => s.flags.raw.toNat) =
    if code bytes ∈ Layout.objectCodes then some (objectWord bytes) else none
  objectType_eq : (scope.bind ObjectScope.objectType).map Guid.toWire = identifierAt bytes 0 12
  inherited_eq : (scope.bind ObjectScope.inheritedObjectType).map Guid.toWire =
    identifierAt bytes 1 (inheritedStart bytes)

theorem contains_eq_testBit {word : UInt32} (h : word.toNat = objectWord bytes)
    (flag : ObjectFlag) :
    (⟨word.toBitVec⟩ : ObjectFlags).contains flag =
      (objectWord bytes).testBit flag.position := by
  rw [← h]
  rfl

theorem readObjectScope_covers (hobject : code bytes ∈ Layout.objectCodes)
    (hbound : bound ≤ bytes.length) :
    Covers readObjectScope bytes bound 8 (scopeLength bytes) (ScopeStands bytes) := by
  unfold readObjectScope
  rw [scopeLength, if_pos hobject, identifierLength, identifierLength]
  refine Covers.bind (Cursor.longLittle_covers hbound _) fun word hword => ?_
  have hfirst : (⟨word.toBitVec⟩ : ObjectFlags).contains .objectTypePresent =
      (objectWord bytes).testBit 0 := contains_eq_testBit hword .objectTypePresent
  have hsecond : (⟨word.toBitVec⟩ : ObjectFlags).contains .inheritedObjectTypePresent =
      (objectWord bytes).testBit 1 := contains_eq_testBit hword .inheritedObjectTypePresent
  dsimp only
  rw [hfirst, hsecond]
  refine Covers.bind (readIdentifier_covers hbound _ _) fun objectType hobjectType => ?_
  dsimp only
  refine Covers.bind_ok (readIdentifier_covers hbound _ _) fun inherited hinherited => ?_
  refine ⟨some ⟨⟨word.toBitVec⟩, objectType, inherited⟩, ⟨?_, ?_, ?_⟩, fun _ => rfl⟩
  · rw [if_pos hobject]
    exact congrArg some hword
  · simp only [identifierAt, hobject, true_and]
    exact hobjectType
  · simp only [identifierAt, hobject, true_and]
    exact hinherited

theorem readScope_covers {type : AceType} (htype : type.code = code bytes)
    (hbound : bound ≤ bytes.length) :
    Covers (fun c => (readScope type c).result) bytes bound 8 (scopeLength bytes)
      (ScopeStands bytes) := by
  by_cases hobject : code bytes ∈ Layout.objectCodes
  · have hisObject : type.isObject = true := (mem_objectCodes_iff type).mp (htype ▸ hobject)
    simp only [result_readScope, hisObject, if_true]
    exact readObjectScope_covers hobject hbound
  · have hisObject : type.isObject = false := by
      rw [← Bool.not_eq_true, ← mem_objectCodes_iff, htype]
      exact hobject
    simp only [result_readScope, hisObject, scopeLength, if_neg hobject]
    exact Covers.pure ⟨by simp [hobject], by simp [identifierAt, hobject],
      by simp [identifierAt, hobject]⟩

theorem readFields_covers {type : AceType} (htype : type.code = code bytes)
    (hbound : bound ≤ bytes.length) :
    Covers (readFields type) bytes bound 4
      (4 + (scopeLength bytes + (8 + 4 * Sid.countAt bytes (trusteeStart bytes)))) fun f =>
        f.1.toNat = ofBig (stretch bytes 4 4) ∧ ScopeStands bytes f.2.1 ∧
          Sid.StandsAt bytes (trusteeStart bytes) f.2.2 := by
  unfold readFields
  refine Covers.bind (Cursor.longBig_covers hbound _) fun mask hmask => ?_
  dsimp only
  refine Covers.bind (readScope_covers htype hbound) fun scope hscope => ?_
  dsimp only
  refine Covers.bind_ok (readTrustee_covers hbound) fun trustee htrustee => ?_
  exact ⟨(mask, scope, trustee), ⟨hmask, hscope, htrustee⟩, fun _ => rfl⟩

theorem readHeader_iff {type : AceType} {flags : AceFlags} {size : UInt16} :
    readHeader bytes = .ok (type, flags, size) ↔
      4 ≤ bytes.length ∧ type.code = code bytes ∧ flags.raw = (bytes.getD 1 0).toBitVec ∧
        size.toNat = declaredSize bytes ∧ declaredSize bytes ≤ bytes.length := by
  have hcapacity : size.toNat < ByteOrder.capacity 2 := by
    simpa [ByteOrder.capacity] using size.toNat_lt
  rw [readHeader_eq_ok_iff]
  constructor
  · rintro ⟨hsize, rest, rfl⟩
    have hdeclared : declaredSize (type.code :: .ofBitVec flags.raw ::
        (ByteOrder.toLittle 2 size.toNat ++ rest)) = size.toNat := by
      simp only [declaredSize, stretch, List.drop_succ_cons, List.drop_zero]
      rw [List.take_left' (ByteOrder.length_toLittle _ _), ByteOrder.ofLittle_toLittle hcapacity]
    rw [hdeclared]
    exact ⟨by simp, rfl, rfl, rfl, hsize⟩
  · rintro ⟨hlength, htype, hflags, hsize, hle⟩
    refine ⟨hsize ▸ hle, bytes.drop 4, ?_⟩
    obtain ⟨a, b, rest, rfl⟩ : ∃ a b rest, bytes = a :: b :: rest := by
      rcases bytes with _ | ⟨a, _ | ⟨b, rest⟩⟩
      · simp at hlength
      · simp at hlength
      · exact ⟨a, b, rest, rfl⟩
    have hword : (rest.take 2).length = 2 := by
      simp only [List.length_cons] at hlength
      rw [List.length_take]
      omega
    have hlittle : rest.take 2 = ByteOrder.toLittle 2 size.toNat :=
      (ByteOrder.ofLittle_eq_iff hword hcapacity).mp hsize.symm
    rw [htype, hflags, ← hlittle]
    exact congrArg _ (congrArg _ (List.take_append_drop 2 rest).symm)

theorem fieldsEnd_eq (bytes : List UInt8) :
    4 + (4 + (scopeLength bytes + (8 + 4 * Sid.countAt bytes (trusteeStart bytes)))) =
      fieldsEnd bytes := by
  unfold fieldsEnd
  rw [show trusteeStart bytes = 8 + scopeLength bytes from rfl]
  omega

/-- A successful run read a header and then, inside the declared size, the fields. -/
theorem accepted_and_describes_of_decode {options : DecodeOptions} {ace : Ace}
    (h : decode options bytes = .ok ace) : Accepted options bytes ∧ Describes bytes ace := by
  obtain ⟨type, flags, size, hheader, hbody⟩ := decode_eq_ok_iff.mp h
  obtain ⟨hlength, htype, hflags, hsize, hle⟩ := readHeader_iff.mp hheader
  obtain ⟨c, mask, scope, trustee, d, hskip, hfields, hexact, rfl⟩ := readBody_eq_ok_iff.mp hbody
  rw [hsize] at hskip hexact
  obtain ⟨hfour, rfl⟩ := (Cursor.skip_within_eq_ok_iff hle (Nat.zero_le _)).mp hskip
  obtain ⟨hfits, ⟨hmask, hscope, htrustee⟩, rfl⟩ :=
    (readFields_covers htype hle).sound hfour hfields
  rw [fieldsEnd_eq] at hfits hexact
  have hdata : code bytes ∈ dataCodes ↔ type.carriesData = true := htype ▸ mem_dataCodes_iff type
  have hbytes : ∀ guid : Option Guid, guid.map Guid.bytes =
      (guid.map Guid.toWire).map Guid.swapGroups := by
    intro guid
    cases guid <;> simp [Guid.toWire]
  constructor
  · refine ⟨hlength, AceType.exists_code_eq_iff.mp ⟨type, htype⟩, hle, hfits, ?_⟩
    intro hstrict hcode
    exact hexact hstrict (by simpa [hdata] using hcode)
  · refine ⟨htype, hflags, hsize, hmask, ?_, ?_, ?_, htrustee, ?_⟩
    · rw [← hscope.flags_eq]
      cases scope <;> rfl
    · rw [hbytes, ← hscope.objectType_eq]
      rfl
    · rw [hbytes, ← hscope.inherited_eq]
      rfl
    · simp only [hdata, ← drop_take_eq_stretch, ← fieldsEnd_eq]
      rfl

theorem exists_decode_of_accepted {options : DecodeOptions} (h : Accepted options bytes) :
    ∃ ace, decode options bytes = .ok ace := by
  obtain ⟨type, htype⟩ := AceType.exists_code_eq_iff.mpr h.known
  have hsize : (UInt16.ofNat (declaredSize bytes)).toNat = declaredSize bytes :=
    ByteOrder.toNat_word (length_stretch h.header)
  have hheader : readHeader bytes =
      .ok (type, ⟨(bytes.getD 1 0).toBitVec⟩, UInt16.ofNat (declaredSize bytes)) :=
    readHeader_iff.mpr ⟨h.header, htype, rfl, hsize, h.size_le⟩
  have hfits := h.fields_le
  rw [← fieldsEnd_eq] at hfits
  have hfour : 4 ≤ declaredSize bytes := by omega
  have hskip : (within bytes (declaredSize bytes) 0).skip headerLength .aceHeader =
      .ok (within bytes (declaredSize bytes) 4) :=
    (Cursor.skip_within_eq_ok_iff h.size_le (Nat.zero_le _)).mpr ⟨hfour, rfl⟩
  obtain ⟨⟨mask, scope, trustee⟩, hfields⟩ := (readFields_covers htype h.size_le).total hfits
  have hexact : options.sizePolicy = .strict → type.carriesData = false →
      fieldsEnd bytes = declaredSize bytes := by
    intro hstrict htail
    apply h.exact hstrict
    rw [← htype, mem_dataCodes_iff, htail]
    decide
  refine ⟨_, decode_eq_ok_iff.mpr ⟨_, _, _, hheader, readBody_eq_ok_iff.mpr
    ⟨_, mask, scope, trustee, _, ?_, hfields, ?_, rfl⟩⟩⟩
  · rw [hsize]
    exact hskip
  · rw [hsize, fieldsEnd_eq]
    exact hexact

/-- Decoding succeeds exactly on what the grammar accepts, and reads what stands there. -/
theorem decode_iff_accepted (options : DecodeOptions) (bytes : List UInt8) :
    ((∃ ace, decode options bytes = .ok ace) ↔ Accepted options bytes) ∧
      ∀ ace, decode options bytes = .ok ace → Describes bytes ace := by
  refine ⟨⟨?_, exists_decode_of_accepted⟩, ?_⟩
  · rintro ⟨ace, h⟩
    exact (accepted_and_describes_of_decode h).1
  · intro ace h
    exact (accepted_and_describes_of_decode h).2

/-- Sixteen bytes, the fewest that an entry can have. -/
def shortest : List UInt8 := [0, 2, 16, 0, 0, 0, 0, 1, 1, 0, 0, 0, 0, 0, 0, 5]

theorem decode_shortest :
    Accepted .strict shortest ∧ ∃ ace, decode .strict shortest = .ok ace ∧ ace.mask.toNat = 1 ∧
      ace.trustee.authority.toNat = 5 ∧ ace.size.toNat = 16 := by
  have haccepted : Accepted .strict shortest :=
    ⟨by decide, by decide, by decide, by decide, fun _ _ => by decide⟩
  obtain ⟨hiff, hdescribes⟩ := decode_iff_accepted .strict shortest
  obtain ⟨ace, hace⟩ := hiff.mpr haccepted
  have h := hdescribes ace hace
  exact ⟨haccepted, ace, hace, h.mask_eq, h.trustee_at.authority_eq, h.size_eq⟩

end Grammar
end Ace
end AccessControl
