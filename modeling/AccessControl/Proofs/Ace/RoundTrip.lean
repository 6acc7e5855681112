import AccessControl.Ace.Layout
import AccessControl.Proofs.Ace.Reading
import Mathlib.Tactic.Set
import Mathlib.Tactic.SplitIfs

/-!
# Entries that were laid out

A layout whose parts fit together is decoded to the entry that it lays out, whatever
follows. Under a strict policy that holds too, except that bytes behind the trustee are
refused for the types that carry no data.
-/

namespace AccessControl
namespace Ace

open ByteOrder (toLittle)

theorem readBody_fields {type : AceType} {scope : Option ObjectScope} {trustee : Sid}
    {header : List UInt8} (hheader : header.length = headerLength) (hscope : ScopeFits type scope)
    (htrustee : trustee.Countable) (policy : SizePolicy) (flags : AceFlags) (size : UInt16)
    (mask : UInt32) (tail : List UInt8) :
    (readBody policy type flags size (header ++ (fields mask scope trustee ++ tail))).result =
      (readTail policy type size.toNat
          ⟨headerLength + (fields mask scope trustee).length, tail⟩).result.map
        fun applicationData => { type, flags, mask, scope, trustee, applicationData, size } := by
  have hskip := Cursor.skip_append hheader 0 (fields mask scope trustee ++ tail) .aceHeader
  have hfields := (readFields_reads type).written (a := (mask, scope, trustee))
    ⟨hscope, htrustee⟩ (0 + headerLength) tail
  rw [result_readBody, Cursor.ofBytes, hskip, ok_bind, hfields, ok_bind, Nat.zero_add]

/-- The whole wire form, with `tail` behind the trustee. -/
def image (type : AceType) (flags : AceFlags) (size : UInt16) (mask : UInt32)
    (scope : Option ObjectScope) (trustee : Sid) (tail : List UInt8) : List UInt8 :=
  type.code :: .ofBitVec flags.raw ::
    (toLittle 2 size.toNat ++ (fields mask scope trustee ++ tail))

theorem decode_image {type : AceType} {flags : AceFlags} {size : UInt16} {mask : UInt32}
    {scope : Option ObjectScope} {trustee : Sid} {tail : List UInt8} (hscope : ScopeFits type scope)
    (htrustee : trustee.Countable)
    (hsize : size.toNat = (image type flags size mask scope trustee tail).length)
    (options : DecodeOptions) (suffix : List UInt8) :
    decode options (image type flags size mask scope trustee tail ++ suffix) =
      (readTail options.sizePolicy type size.toNat
          ⟨headerLength + (fields mask scope trustee).length, tail⟩).result.map
        fun applicationData => { type, flags, mask, scope, trustee, applicationData, size } := by
  set bytes := image type flags size mask scope trustee tail with hbytes
  have hheader : readHeader (bytes ++ suffix) = .ok (type, flags, size) := by
    rw [readHeader_eq_ok_iff, hsize, List.length_append, ← hsize]
    exact ⟨by omega, fields mask scope trustee ++ tail ++ suffix, by simp [hbytes, image]⟩
  have hextent : (bytes ++ suffix).take size.toNat =
      [type.code, .ofBitVec flags.raw] ++ toLittle 2 size.toNat ++
        (fields mask scope trustee ++ tail) := by
    rw [hsize, List.take_left, ← hsize]
    simp [hbytes, image]
  have hfour : ([type.code, .ofBitVec flags.raw] ++ toLittle 2 size.toNat).length =
      headerLength := by
    simp [headerLength]
  rw [decode, read_eq_readBody hheader, hextent, readBody_fields hfour hscope htrustee]

namespace Layout

/-- The object flags that are written. -/
def flagsWord (l : Layout) : UInt32 := l.objectFlags.getD l.impliedFlags

/-- The parts of a layout fit together: a known type, the wire form of a trustee, identifiers
of full length, the true size, and, where there are object flags, presence bits that tell
which identifiers follow. -/
structure Coherent (l : Layout) (trustee : Sid) (objectType inherited : Option Guid) : Prop where
  code_lt : l.typeCode < 20
  trustee_eq : l.trustee = trustee.encode
  countable : trustee.subAuthorities.length ≤ 255
  objectType_eq : l.objectType = objectType.map Guid.toWire
  inherited_eq : l.inheritedObjectType = inherited.map Guid.toWire
  objectType_bit : l.typeCode ∈ objectCodes → l.flagsWord.toNat.testBit 0 = objectType.isSome
  inherited_bit : l.typeCode ∈ objectCodes → l.flagsWord.toNat.testBit 1 = inherited.isSome
  declaredSize_eq : l.declaredSize = none
  length_le : l.length ≤ 65535

/-- The scope that is written: none for types without object flags, whatever is given. -/
def scope (l : Layout) (objectType inherited : Option Guid) : Option ObjectScope :=
  if l.typeCode ∈ objectCodes then some ⟨⟨l.flagsWord.toBitVec⟩, objectType, inherited⟩ else none

/-- The entry of this type that is laid out. -/
def entry (l : Layout) (type : AceType) (trustee : Sid) (objectType inherited : Option Guid) :
    Ace where
  type
  flags := ⟨l.flags.toBitVec⟩
  mask := l.mask
  scope := l.scope objectType inherited
  trustee
  applicationData := if l.typeCode ∈ dataCodes then some l.trailing else none
  size := UInt16.ofNat l.length

variable {l : Layout} {type : AceType} {trustee : Sid} {objectType inherited : Option Guid}

theorem hasScope_iff : l.hasScope = true ↔ l.typeCode ∈ objectCodes := by
  simp [hasScope]

theorem Coherent.scopeFits (h : l.Coherent trustee objectType inherited)
    (htype : type.code = l.typeCode) : ScopeFits type (l.scope objectType inherited) := by
  unfold scope
  split_ifs with hmem
  · refine ⟨((mem_objectCodes_iff type).mp (htype ▸ hmem)).symm, ?_⟩
    rintro _ ⟨⟩
    exact ⟨h.objectType_bit hmem, h.inherited_bit hmem⟩
  · have hobject : type.isObject = false := by
      rw [← Bool.not_eq_true, ← mem_objectCodes_iff, htype]
      exact hmem
    exact ⟨hobject.symm, by simp⟩

theorem Coherent.body_eq (h : l.Coherent trustee objectType inherited) :
    l.body = fields l.mask (l.scope objectType inherited) trustee ++ l.trailing := by
  have hscope : l.scopeBytes = (l.scope objectType inherited).elim [] ObjectScope.encode := by
    unfold scopeBytes scope
    simp only [hasScope_iff]
    split_ifs
    · rw [h.objectType_eq, h.inherited_eq]
      cases objectType <;> cases inherited <;> simp [ObjectScope.encode, flagsWord]
    · rfl
  rw [body, hscope, h.trustee_eq, fields]
  simp

theorem Coherent.encode_eq (h : l.Coherent trustee objectType inherited)
    (htype : type.code = l.typeCode) :
    l.encode = .ok (image type ⟨l.flags.toBitVec⟩ (UInt16.ofNat l.length) l.mask
      (l.scope objectType inherited) trustee l.trailing) := by
  have hlt : l.length < ByteOrder.capacity 2 := Nat.lt_succ_of_le h.length_le
  rw [encode, if_pos hlt, h.declaredSize_eq, image, ← h.body_eq, htype]
  rfl

theorem Coherent.length_eq (h : l.Coherent trustee objectType inherited) :
    l.length = headerLength + (fields l.mask (l.scope objectType inherited) trustee).length +
      l.trailing.length := by
  rw [length, h.body_eq, List.length_append, Nat.add_assoc]

theorem Coherent.length_image (h : l.Coherent trustee objectType inherited) (size : UInt16) :
    (image type ⟨l.flags.toBitVec⟩ size l.mask (l.scope objectType inherited) trustee
      l.trailing).length = l.length := by
  rw [h.length_eq]
  simp only [image, List.length_cons, List.length_append, ByteOrder.length_toLittle, headerLength]
  omega

/-- What was laid out is decoded again, whatever follows; a strict policy only refuses slack. -/
theorem decode_encoded_entry (h : l.Coherent trustee objectType inherited) :
    ∃ bytes type, l.encode = .ok bytes ∧ bytes.length = l.length ∧ type.code = l.typeCode ∧
      ∀ (options : DecodeOptions) (suffix : List UInt8),
        decode options (bytes ++ suffix) =
          if options.sizePolicy = .strict ∧ l.typeCode ∉ dataCodes ∧ l.trailing ≠ [] then
            .error (.sizeMismatch l.length (l.length - l.trailing.length))
          else .ok (l.entry type trustee objectType inherited) := by
  obtain ⟨type, htype⟩ := AceType.exists_code_eq_iff.mpr h.code_lt
  have hsize : (UInt16.ofNat l.length).toNat = l.length :=
    UInt16.toNat_ofNat_of_lt' (Nat.lt_succ_of_le h.length_le)
  have hlength := h.length_eq
  have hconsumed : headerLength + (fields l.mask (l.scope objectType inherited) trustee).length =
      l.length - l.trailing.length := by
    omega
  have hslack : l.trailing ≠ [] ↔ l.length - l.trailing.length ≠ l.length := by
    rw [← List.length_pos_iff]
    unfold headerLength at hlength
    omega
  have hdata : l.typeCode ∈ dataCodes ↔ type.carriesData = true := htype ▸ mem_dataCodes_iff type
  refine ⟨_, type, h.encode_eq htype, h.length_image _, htype, ?_⟩
  intro options suffix
  rw [decode_image (h.scopeFits htype) h.countable (hsize.trans (h.length_image _).symm),
    hconsumed, hsize]
  cases hcarries : type.carriesData with
  | true => simp [readTail, entry, hdata, hcarries, Cursor.rest]
  | false =>
    simp only [readTail, entry, hdata, hcarries, hslack, Bool.false_eq_true, not_false_eq_true,
      true_and, if_false]
    split_ifs <;> rfl

/-- A scope with an inherited identifier and a bit without a name, and one byte of slack. -/
def padded : Layout where
  typeCode := 5
  flags := 0x12
  mask := 0xF01FF
  objectFlags := some 0x80000002
  inheritedObjectType := some Guid.nil.toWire
  trustee := (Sid.mk 1 1 [0]).encode
  trailing := [0xEE]

theorem decode_encoded_padded :
    padded.Coherent (Sid.mk 1 1 [0]) none (some Guid.nil) ∧
      ∃ bytes type, padded.encode = .ok bytes ∧ type.code = 5 ∧
        decode .strict (bytes ++ [7]) = .error (.sizeMismatch 41 40) ∧
        decode {} (bytes ++ [7]) =
          .ok (padded.entry type (Sid.mk 1 1 [0]) none (some Guid.nil)) := by
  have h : padded.Coherent (Sid.mk 1 1 [0]) none (some Guid.nil) :=
    ⟨by decide, rfl, by decide, rfl, rfl, by decide, by decide, rfl, by decide⟩
  obtain ⟨bytes, type, hencode, -, htype, hdecode⟩ := decode_encoded_entry h
  exact ⟨h, bytes, type, hencode, htype, hdecode .strict [7], hdecode {} [7]⟩

end Layout
end Ace
end AccessControl
