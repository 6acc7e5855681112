import AccessControl.Ace.Decode
import AccessControl.Ace.Layout
import AccessControl.Proofs.Reading
import AccessControl.Proofs.Sid.Wire
import Mathlib.Tactic.SplitIfs

/-!
# Reading the fields of entries

The scope and the trustee of an entry are read exactly from their written forms, and the
header exactly from four bytes that declare no more than there is.
-/

namespace AccessControl

open ByteOrder (toLittle toBig)

/-- The flags announce the identifiers that follow them; bits without a name are free. -/
def ObjectScope.Announced (scope : ObjectScope) : Prop :=
  scope.flags.contains .objectTypePresent = scope.objectType.isSome ∧
    scope.flags.contains .inheritedObjectTypePresent = scope.inheritedObjectType.isSome

/-- Flags, then identifiers. -/
def ObjectScope.encode (scope : ObjectScope) : List UInt8 :=
  toLittle 4 scope.flags.raw.toNat ++
    (scope.objectType.elim [] Guid.toWire ++ scope.inheritedObjectType.elim [] Guid.toWire)

namespace Ace

/-- The codes of the types whose entries carry data behind the trustee. -/
def dataCodes : List UInt8 := [7, 9, 10, 11, 12, 13]

theorem mem_dataCodes_iff (type : AceType) : type.code ∈ dataCodes ↔ type.carriesData = true := by
  cases type <;> decide

theorem mem_objectCodes_iff (type : AceType) :
    type.code ∈ Layout.objectCodes ↔ type.isObject = true := by
  cases type <;> decide

/-- Entries have a scope when their type asks for one. -/
def ScopeFits (type : AceType) (scope : Option ObjectScope) : Prop :=
  scope.isSome = type.isObject ∧ ∀ s ∈ scope, s.Announced

theorem readIdentifier_reads (present : Bool) (field : Field) :
    Cursor.Reads (readIdentifier present field) (fun guid => guid.elim [] Guid.toWire)
      fun guid => guid.isSome = present where
  written := by
    intro guid h position rest
    subst h
    cases guid with
    | none => rfl
    | some guid =>
      have hg := (Cursor.guid_reads field).written (a := guid) trivial position rest
      simp [readIdentifier, hg]
  accepted := by
    intro c guid d h
    cases present with
    | false =>
      obtain ⟨rfl, rfl⟩ := Prod.mk.inj (Except.ok.inj h)
      exact ⟨rfl, rfl, rfl⟩
    | true =>
      obtain ⟨⟨read, e⟩, hg, h⟩ := exceptMap_eq_ok_iff.mp h
      obtain ⟨rfl, rfl⟩ := Prod.mk.inj h
      obtain ⟨-, hremaining, hposition⟩ := (Cursor.guid_reads field).accepted hg
      exact ⟨rfl, hremaining, hposition⟩

/-- Object flags, and the identifiers that they announce. -/
def readObjectScope (c : Cursor) : Except DecodeError (Option ObjectScope × Cursor) := do
  let (word, c) ← c.longLittle .objectFlags
  let flags : ObjectFlags := ⟨word.toBitVec⟩
  let (objectType, c) ← readIdentifier (flags.contains .objectTypePresent) .objectType c
  let (inherited, c) ←
    readIdentifier (flags.contains .inheritedObjectTypePresent) .inheritedObjectType c
  .ok (some ⟨flags, objectType, inherited⟩, c)

theorem result_readScope (type : AceType) (c : Cursor) :
    (readScope type c).result = if type.isObject then readObjectScope c else .ok (none, c) := by
  unfold readScope
  split_ifs
  · simp [readObjectScope]
  · rfl

theorem readScope_reads (type : AceType) :
    Cursor.Reads (fun c => (readScope type c).result) (fun scope => scope.elim [] ObjectScope.encode)
      (ScopeFits type) where
  written := by
    rintro (_ | ⟨flags, objectType, inherited⟩) ⟨htype, hannounced⟩ position rest
    · simp [result_readScope, ← htype]
    · obtain ⟨hobject, hinherited⟩ := hannounced _ rfl
      have hf := Cursor.longLittle_append position (.ofBitVec flags.raw)
        (objectType.elim [] Guid.toWire ++ (inherited.elim [] Guid.toWire ++ rest)) .objectFlags
      have ho := fun position => (readIdentifier_reads _ .objectType).written hobject.symm position
        (inherited.elim [] Guid.toWire ++ rest)
      have hi := fun position => (readIdentifier_reads _ .inheritedObjectType).written
        hinherited.symm position rest
      rw [UInt32.toNat_ofBitVec] at hf
      simp [result_readScope, ← htype, readObjectScope, ObjectScope.encode, hf, ho, hi,
        Nat.add_assoc]
  accepted := by
    intro c scope d h
    simp only [result_readScope] at h
    split_ifs at h with hobject
    · obtain ⟨⟨word, c₁⟩, hf, h⟩ := bind_eq_ok_iff.mp h
      obtain ⟨⟨objectType, c₂⟩, ho, h⟩ := bind_eq_ok_iff.mp h
      obtain ⟨⟨inherited, c₃⟩, hi, h⟩ := bind_eq_ok_iff.mp h
      obtain ⟨rfl, rfl⟩ := Prod.mk.inj (Except.ok.inj h)
      obtain ⟨-, hf, hfp⟩ := (Cursor.longLittle_reads _).accepted hf
      obtain ⟨hop, ho, hop'⟩ := (readIdentifier_reads _ _).accepted ho
      obtain ⟨hip, hi, hip'⟩ := (readIdentifier_reads _ _).accepted hi
      refine ⟨⟨hobject.symm, ?_⟩, ?_, ?_⟩
      · rintro _ ⟨⟩
        exact ⟨hop.symm, hip.symm⟩
      · rw [hf, ho, hi]
        simp [ObjectScope.encode]
      · rw [hip', hop', hfp]
        simp [ObjectScope.encode, Nat.add_assoc]
    · obtain ⟨rfl, rfl⟩ := Prod.mk.inj (Except.ok.inj h)
      exact ⟨⟨by simp [hobject], by simp⟩, rfl, rfl⟩

theorem readTrustee_reads : Cursor.Reads readTrustee Sid.encode Sid.Countable where
  written := by
    intro sid h position rest
    have hskip := Cursor.skip_append (Sid.length_encode h) position rest .trustee
    simp only [readTrustee, Sid.decode_encode_append h, ok_mapError, ok_bind, hskip,
      Sid.length_encode h]
    rfl
  accepted := by
    intro c sid d h
    obtain ⟨trustee, ht, h⟩ := bind_eq_ok_iff.mp h
    obtain ⟨e, he, h⟩ := bind_eq_ok_iff.mp h
    obtain ⟨rfl, rfl⟩ := Prod.mk.inj (Except.ok.inj h)
    obtain ⟨hc, rest, hrest⟩ := Sid.decode_eq_ok_iff.mp (mapError_eq_ok_iff.mp ht)
    obtain ⟨-, rfl⟩ := Cursor.skip_eq_ok_iff.mp he
    rw [hrest, ← Sid.length_encode hc, List.drop_left]
    exact ⟨hc, rfl, rfl⟩

/-- The fields after the header, in the order of the wire. -/
def fields (mask : UInt32) (scope : Option ObjectScope) (trustee : Sid) : List UInt8 :=
  toBig 4 mask.toNat ++ (scope.elim [] ObjectScope.encode ++ trustee.encode)

/-- Mask, scope and trustee. -/
def readFields (type : AceType) (c : Cursor) :
    Except DecodeError ((UInt32 × Option ObjectScope × Sid) × Cursor) := do
  let (mask, c) ← c.longBig .accessMask
  let (scope, c) ← (readScope type c).result
  let (trustee, c) ← readTrustee c
  .ok ((mask, scope, trustee), c)

theorem readFields_reads (type : AceType) :
    Cursor.Reads (readFields type) (fun f => fields f.1 f.2.1 f.2.2)
      fun f => ScopeFits type f.2.1 ∧ f.2.2.Countable where
  written := by
    rintro ⟨mask, scope, trustee⟩ ⟨hscope : ScopeFits type scope, htrustee : trustee.Countable⟩
      position rest
    have hs := (readScope_reads type).written hscope (position + 4) (trustee.encode ++ rest)
    have ht := readTrustee_reads.written htrustee
      (position + 4 + (scope.elim [] ObjectScope.encode).length) rest
    simp only [readFields, fields, List.append_assoc, Cursor.longBig_append, ok_bind, hs, ht]
    simp only [List.length_append, ByteOrder.length_toBig, Nat.add_assoc]
  accepted := by
    rintro c ⟨mask, scope, trustee⟩ d h
    obtain ⟨⟨mask, c₁⟩, hm, h⟩ := bind_eq_ok_iff.mp h
    obtain ⟨⟨scope, c₂⟩, hs, h⟩ := bind_eq_ok_iff.mp h
    obtain ⟨⟨trustee, c₃⟩, ht, h⟩ := bind_eq_ok_iff.mp h
    cases h
    obtain ⟨-, hm, hmp⟩ := (Cursor.longBig_reads _).accepted hm
    obtain ⟨hfits, hs, hsp⟩ := (readScope_reads type).accepted hs
    obtain ⟨hcountable, ht, htp⟩ := readTrustee_reads.accepted ht
    refine ⟨⟨hfits, hcountable⟩, ?_, ?_⟩
    · rw [hm, hs, ht]
      simp only [fields, List.append_assoc]
    · rw [htp, hsp, hmp]
      simp only [fields, List.length_append, Nat.add_assoc]

/-- The header stands in the first four bytes and declares no more than there is. -/
theorem readHeader_eq_ok_iff {bytes : List UInt8} {type : AceType} {flags : AceFlags}
    {size : UInt16} :
    readHeader bytes = .ok (type, flags, size) ↔
      size.toNat ≤ bytes.length ∧ ∃ rest,
        bytes = type.code :: .ofBitVec flags.raw :: (toLittle 2 size.toNat ++ rest) := by
  constructor
  · intro h
    obtain ⟨⟨code, c₁⟩, hcode, h⟩ := bind_eq_ok_iff.mp h
    obtain ⟨-, hcode, -⟩ := (Cursor.byte_reads _).accepted hcode
    dsimp only at h
    split at h
    · cases h
    · next t ht =>
      obtain ⟨⟨b, c₂⟩, hflags, h⟩ := bind_eq_ok_iff.mp h
      obtain ⟨⟨w, c₃⟩, hsize, h⟩ := bind_eq_ok_iff.mp h
      obtain ⟨-, hflags, -⟩ := (Cursor.byte_reads _).accepted hflags
      obtain ⟨-, hsize, -⟩ := (Cursor.wordLittle_reads _).accepted hsize
      dsimp only at h
      split_ifs at h with hreaches
      cases h
      rw [AceType.ofCode?_eq_some_iff] at ht
      refine ⟨by simpa using hreaches, c₃.remaining, ?_⟩
      calc
        bytes = code :: c₁.remaining := hcode
        _ = _ := by rw [hflags, hsize, ht]; simp
  · rintro ⟨hsize, rest, rfl⟩
    have hreaches := reaches_iff.mpr hsize
    simp only [readHeader, Cursor.ofBytes, Cursor.byte_cons, Cursor.wordLittle_append, ok_bind,
      AceType.ofCode?_code, hreaches, if_true]
    rfl

/-- Once the header is read, only the extent that it declares is looked at. -/
theorem read_eq_readBody {options : DecodeOptions} {bytes : List UInt8} {type : AceType}
    {flags : AceFlags} {size : UInt16} (h : readHeader bytes = .ok (type, flags, size)) :
    read options bytes =
      readBody options.sizePolicy type flags size (bytes.take size.toNat) := by
  apply Traced.ext
  · rw [read, Traced.events_bind_ok (by rw [Traced.result_liftM, h])]
    rfl
  · rw [read, Traced.result_bind, Traced.result_liftM, h]
    rfl

/-! ## Bytes behind an entry -/

section Append

variable {options : DecodeOptions} {bytes : List UInt8} {type : AceType} {flags : AceFlags}
  {size : UInt16}

theorem readHeader_append (h : readHeader bytes = .ok (type, flags, size))
    (suffix : List UInt8) : readHeader (bytes ++ suffix) = .ok (type, flags, size) := by
  obtain ⟨hsize, rest, hbytes⟩ := readHeader_eq_ok_iff.mp h
  rw [readHeader_eq_ok_iff, List.length_append]
  refine ⟨by omega, rest ++ suffix, ?_⟩
  rw [hbytes]
  simp

/-- Outcome and events depend on the declared extent alone. -/
theorem read_append (h : readHeader bytes = .ok (type, flags, size)) (suffix : List UInt8) :
    read options (bytes ++ suffix) = read options bytes := by
  obtain ⟨hsize, -⟩ := readHeader_eq_ok_iff.mp h
  rw [read_eq_readBody h, read_eq_readBody (readHeader_append h suffix),
    List.take_append_of_le_length hsize]

end Append

theorem result_readTail_eq_ok_iff {policy : SizePolicy} {type : AceType} {declared : Nat}
    {c : Cursor} {data : Option (List UInt8)} :
    (readTail policy type declared c).result = .ok data ↔
      (policy = .strict → type.carriesData = false → c.position = declared) ∧
        data = if type.carriesData then some c.remaining else none := by
  unfold readTail
  cases type.carriesData with
  | true => simp [Cursor.rest, eq_comm]
  | false =>
    by_cases hpolicy : policy = .strict <;> by_cases hposition : c.position = declared <;>
      simp [hpolicy, hposition, eq_comm]

/-- The header is passed over, the fields are read and the rest is data or slack. -/
theorem result_readBody (policy : SizePolicy) (type : AceType) (flags : AceFlags) (size : UInt16)
    (extent : List UInt8) :
    (readBody policy type flags size extent).result =
      ((Cursor.ofBytes extent).skip headerLength .aceHeader >>= readFields type) >>=
        fun ((mask, scope, trustee), c) =>
          (readTail policy type size.toNat c).result.map fun applicationData =>
            { type, flags, mask, scope, trustee, applicationData, size } := by
  simp only [readBody, readFields, Traced.result_bind, Traced.result_liftM, Traced.result_pure,
    ← bind_ok_eq_map, bind_assoc, ok_bind]

/-- The fields fill the extent as far as the policy asks. -/
theorem readBody_eq_ok_iff {policy : SizePolicy} {type : AceType} {flags : AceFlags}
    {size : UInt16} {extent : List UInt8} {ace : Ace} :
    (readBody policy type flags size extent).result = .ok ace ↔
      ∃ c mask scope trustee d,
        (Cursor.ofBytes extent).skip headerLength .aceHeader = .ok c ∧
        readFields type c = .ok ((mask, scope, trustee), d) ∧
        (policy = .strict → type.carriesData = false → d.position = size.toNat) ∧
        ace =
          { type, flags, mask, scope, trustee
            applicationData := if type.carriesData then some d.remaining else none
            size } := by
  simp only [result_readBody, bind_eq_ok_iff, exceptMap_eq_ok_iff, result_readTail_eq_ok_iff]
  constructor
  · rintro ⟨⟨⟨mask, scope, trustee⟩, d⟩, ⟨c, hskip, hfields⟩, data, ⟨hexact, rfl⟩, rfl⟩
    exact ⟨c, mask, scope, trustee, d, hskip, hfields, hexact, rfl⟩
  · rintro ⟨c, mask, scope, trustee, d, hskip, hfields, hexact, rfl⟩
    exact ⟨((mask, scope, trustee), d), ⟨c, hskip, hfields⟩, _, ⟨hexact, rfl⟩, rfl⟩

theorem decode_eq_ok_iff {options : DecodeOptions} {bytes : List UInt8} {ace : Ace} :
    decode options bytes = .ok ace ↔
      ∃ type flags size, readHeader bytes = .ok (type, flags, size) ∧
        (readBody options.sizePolicy type flags size (bytes.take size.toNat)).result =
          .ok ace := by
  rw [decode, read, Traced.result_bind, bind_eq_ok_iff]
  constructor
  · rintro ⟨⟨type, flags, size⟩, hheader, hbody⟩
    exact ⟨type, flags, size, hheader, hbody⟩
  · rintro ⟨type, flags, size, hheader, hbody⟩
    exact ⟨(type, flags, size), hheader, hbody⟩

theorem readHeader_of_decode {options : DecodeOptions} {bytes : List UInt8} {ace : Ace}
    (h : decode options bytes = .ok ace) :
    readHeader bytes = .ok (ace.type, ace.flags, ace.size) := by
  obtain ⟨type, flags, size, hheader, hbody⟩ := decode_eq_ok_iff.mp h
  obtain ⟨c, mask, scope, trustee, d, -, -, -, rfl⟩ := readBody_eq_ok_iff.mp hbody
  exact hheader

theorem decode_append {options : DecodeOptions} {bytes : List UInt8} {ace : Ace}
    (h : decode options bytes = .ok ace) (suffix : List UInt8) :
    decode options (bytes ++ suffix) = .ok ace := by
  rw [decode, read_append (readHeader_of_decode h)]
  exact h

/-- A decoded entry lies inside its bytes, and has a header. -/
theorem size_of_decode {options : DecodeOptions} {bytes : List UInt8} {ace : Ace}
    (h : decode options bytes = .ok ace) :
    headerLength ≤ ace.size.toNat ∧ ace.size.toNat ≤ bytes.length := by
  obtain ⟨type, flags, size, hheader, hbody⟩ := decode_eq_ok_iff.mp h
  obtain ⟨c, mask, scope, trustee, d, hskip, -, -, rfl⟩ := readBody_eq_ok_iff.mp hbody
  obtain ⟨hlength, -⟩ := Cursor.skip_eq_ok_iff.mp hskip
  obtain ⟨hsize, -⟩ := readHeader_eq_ok_iff.mp hheader
  refine ⟨?_, hsize⟩
  exact Nat.le_trans hlength (List.length_take_le _ _)

end Ace
end AccessControl
