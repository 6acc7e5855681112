import AccessControl.Proofs.Ace.RoundTrip
import AccessControl.Proofs.Positions

/-!
# Entries without loss

The declared extent of a decoded entry is the written form of its fields with a tail behind
them: application data for the types that carry it, slack for the others. So the entry, laid
out again, gives back its extent, and two inputs are decoded to the same entry exactly when
their extents differ at most in slack. A strict policy leaves no slack.
-/

namespace AccessControl

theorem ObjectScope.length_encode (scope : ObjectScope) :
    scope.encode.length = scope.encodedLength := by
  cases scope with
  | mk flags objectType inherited =>
    cases objectType <;> cases inherited <;>
      simp [ObjectScope.encode, encodedLength, identifiers, Guid.encodedLength]

namespace Ace

variable {options options' : DecodeOptions} {bytes bytes' : List UInt8} {ace ace' : Ace}
  {tail tail' : List UInt8}

/-- The bytes that the entry declares to be its own. -/
def extent (ace : Ace) (bytes : List UInt8) : List UInt8 := bytes.take ace.size.toNat

/-- What stands between the end of the trustee and the declared size. -/
def slack (ace : Ace) (bytes : List UInt8) : List UInt8 :=
  stretch bytes ace.fieldsLength (ace.size.toNat - ace.fieldsLength)

/-- The entry keeps nothing of this position of its extent. -/
def IsSlack (ace : Ace) (i : Nat) : Prop :=
  ace.type.carriesData = false ∧ ace.fieldsLength ≤ i

/-! ## The written form of an entry -/

/-- Type, flags and size, as they are written. -/
def headerBytes (type : AceType) (flags : AceFlags) (size : UInt16) : List UInt8 :=
  type.code :: .ofBitVec flags.raw :: ByteOrder.toLittle 2 size.toNat

@[simp] theorem length_headerBytes (type : AceType) (flags : AceFlags) (size : UInt16) :
    (headerBytes type flags size).length = headerLength := by
  simp [headerBytes, headerLength]

/-- Everything up to the end of the trustee. -/
def front (ace : Ace) : List UInt8 :=
  headerBytes ace.type ace.flags ace.size ++ fields ace.mask ace.scope ace.trustee

theorem front_append (ace : Ace) (tail : List UInt8) : ace.front ++ tail =
    image ace.type ace.flags ace.size ace.mask ace.scope ace.trustee tail := by
  simp [front, image, headerBytes]

theorem length_front (ace : Ace) :
    ace.front.length = headerLength + (fields ace.mask ace.scope ace.trustee).length := by
  rw [front, List.length_append, length_headerBytes]

theorem length_front_eq_fieldsLength (h : ace.trustee.Countable) :
    ace.front.length = ace.fieldsLength := by
  have hscope : (ace.scope.elim [] ObjectScope.encode).length =
      ace.scope.elim 0 ObjectScope.encodedLength := by
    cases ace.scope with
    | none => rfl
    | some scope => exact scope.length_encode
  rw [length_front, fields, List.length_append, List.length_append, ByteOrder.length_toBig, hscope,
    Sid.length_encode h, fieldsLength]
  omega

/-- The bytes begin with the fields of the entry and then, up to the declared size, the tail. -/
structure Fills (bytes : List UInt8) (ace : Ace) (tail : List UInt8) : Prop where
  size_le : ace.size.toNat ≤ bytes.length
  extent_eq : ace.extent bytes = ace.front ++ tail
  scope_fits : ScopeFits ace.type ace.scope
  countable : ace.trustee.Countable
  data_eq : ace.applicationData = if ace.type.carriesData then some tail else none

namespace Fills

theorem length_extent (h : Fills bytes ace tail) : (ace.extent bytes).length = ace.size.toNat :=
  List.length_take_of_le h.size_le

theorem length_front_add (h : Fills bytes ace tail) :
    ace.front.length + tail.length = ace.size.toNat := by
  rw [← h.length_extent, h.extent_eq, List.length_append]

theorem length_fields_add (h : Fills bytes ace tail) :
    headerLength + (fields ace.mask ace.scope ace.trustee).length + tail.length =
      ace.size.toNat := by
  rw [← length_front, h.length_front_add]

theorem bytes_eq (h : Fills bytes ace tail) :
    bytes = ace.front ++ tail ++ bytes.drop ace.size.toNat := by
  rw [← h.extent_eq, extent, List.take_append_drop]

/-- What a layout has to put behind the trustee. -/
theorem slack_eq (h : Fills bytes ace tail) : ace.slack bytes = tail := by
  rw [slack, ← drop_take_eq_stretch]
  calc
    (bytes.take ace.size.toNat).drop ace.fieldsLength =
        (ace.front ++ tail).drop ace.fieldsLength := by rw [← h.extent_eq, extent]
    _ = tail := List.drop_left' (length_front_eq_fieldsLength h.countable)

end Fills

theorem take_eq_headerBytes_append {type : AceType} {flags : AceFlags} {size : UInt16}
    (h : readHeader bytes = .ok (type, flags, size)) (hfour : headerLength ≤ size.toNat) :
    bytes.take size.toNat =
      headerBytes type flags size ++ (bytes.take size.toNat).drop headerLength := by
  obtain ⟨-, rest, hbytes⟩ := readHeader_eq_ok_iff.mp h
  have hhead : (bytes.take size.toNat).take headerLength = headerBytes type flags size := by
    have happend : bytes = headerBytes type flags size ++ rest := hbytes
    rw [List.take_take, Nat.min_eq_left hfour, happend]
    exact List.take_left' (length_headerBytes type flags size)
  rw [← hhead, List.take_append_drop]

theorem fills_of_decode (h : decode options bytes = .ok ace) : ∃ tail, Fills bytes ace tail ∧
    (options.sizePolicy = .strict → ace.type.carriesData = false → tail = []) := by
  obtain ⟨type, flags, size, hheader, hbody⟩ := decode_eq_ok_iff.mp h
  obtain ⟨c, mask, scope, trustee, d, hskip, hfields, hexact, rfl⟩ := readBody_eq_ok_iff.mp hbody
  obtain ⟨hfour, rfl⟩ := Cursor.skip_eq_ok_iff.mp hskip
  obtain ⟨⟨hscope, hcountable⟩, hremaining, hposition⟩ := (readFields_reads type).accepted hfields
  have hsize : size.toNat ≤ bytes.length := (readHeader_eq_ok_iff.mp hheader).1
  have hfour : headerLength ≤ size.toNat := Nat.le_trans hfour (List.length_take_le _ _)
  have hfills : Fills bytes ⟨type, flags, mask, scope, trustee,
      if type.carriesData then some d.remaining else none, size⟩ d.remaining := by
    refine ⟨hsize, ?_, hscope, hcountable, rfl⟩
    rw [extent, take_eq_headerBytes_append hheader hfour, front, List.append_assoc]
    exact congrArg _ hremaining
  refine ⟨d.remaining, hfills, ?_⟩
  intro hstrict hcarries
  have hend : 0 + headerLength + (fields mask scope trustee).length = size.toNat :=
    hposition.symm.trans (hexact hstrict hcarries)
  have hlength : headerLength + (fields mask scope trustee).length + d.remaining.length =
      size.toNat := hfills.length_fields_add
  apply List.eq_nil_of_length_eq_zero
  omega

/-- Decoding accepts exactly the bytes that an entry fills, with no slack for a strict policy. -/
theorem decode_eq_ok_iff_fills : decode options bytes = .ok ace ↔
    ∃ tail, Fills bytes ace tail ∧
      (options.sizePolicy = .strict → ace.type.carriesData = false → tail = []) := by
  constructor
  · exact fills_of_decode
  · rintro ⟨tail, h, hstrict⟩
    have hlength : ace.size.toNat = (image ace.type ace.flags ace.size ace.mask ace.scope
        ace.trustee tail).length := by
      rw [← front_append, List.length_append, h.length_front_add]
    rw [h.bytes_eq, front_append, decode_image h.scope_fits h.countable hlength,
      exceptMap_eq_ok_iff]
    refine ⟨ace.applicationData, ?_, rfl⟩
    rw [result_readTail_eq_ok_iff]
    refine ⟨?_, h.data_eq⟩
    intro hpolicy hcarries
    rw [← h.length_fields_add, hstrict hpolicy hcarries]
    rfl

/-- Bytes that an entry fills determine it. -/
theorem Fills.unique (h : Fills bytes ace tail) (h' : Fills bytes ace' tail') : ace = ace' := by
  have hace : decode {} bytes = .ok ace := decode_eq_ok_iff_fills.mpr ⟨tail, h, nofun⟩
  have hace' : decode {} bytes = .ok ace' := decode_eq_ok_iff_fills.mpr ⟨tail', h', nofun⟩
  exact Except.ok.inj (hace.symm.trans hace')

/-- Inputs that are cut behind an entry, or at its end, are decoded alike. -/
theorem decode_take (h : decode options bytes = .ok ace) {n : Nat} (hn : ace.size.toNat ≤ n) :
    decode options (bytes.take n) = .ok ace := by
  obtain ⟨tail, hfills, hstrict⟩ := fills_of_decode h
  have hextent : ace.extent (bytes.take n) = ace.extent bytes := by
    rw [extent, List.take_take, Nat.min_eq_left hn, extent]
  have hsize : ace.size.toNat ≤ (bytes.take n).length := by
    rw [List.length_take]
    exact Nat.le_min.mpr ⟨hn, hfills.size_le⟩
  exact decode_eq_ok_iff_fills.mpr
    ⟨tail, { hfills with size_le := hsize, extent_eq := hextent ▸ hfills.extent_eq }, hstrict⟩

/-! ## Laying out what was decoded -/

/-- The types that have object flags are those that have a scope. -/
theorem hasScope_layout (h : ScopeFits ace.type ace.scope) (slack : List UInt8) :
    (ace.layout slack).hasScope = ace.scope.isSome := by
  rw [Bool.eq_iff_iff, Layout.hasScope_iff, h.1]
  exact mem_objectCodes_iff ace.type

theorem scopeBytes_layout (h : ScopeFits ace.type ace.scope) (slack : List UInt8) :
    (ace.layout slack).scopeBytes = ace.scope.elim [] ObjectScope.encode := by
  rw [Layout.scopeBytes, hasScope_layout h]
  cases hscope : ace.scope with
  | none => rfl
  | some scope =>
    cases scope with
    | mk flags objectType inherited =>
      cases objectType <;> cases inherited <;>
        simp [layout, hscope, objectFlags, objectType, inheritedObjectType, ObjectScope.encode]

theorem body_layout (h : Fills bytes ace tail) :
    (ace.layout tail).body = fields ace.mask ace.scope ace.trustee ++ tail := by
  have htrailing : ace.applicationData.getD tail = tail := by
    rw [h.data_eq]
    split_ifs <;> rfl
  rw [Layout.body, scopeBytes_layout h.scope_fits, fields]
  simp [layout, htrailing]

/-- The size of what is laid out is the declared size, so it fits its field. -/
theorem encode_layout (h : Fills bytes ace tail) :
    (ace.layout tail).encode = .ok (ace.extent bytes) := by
  have hlength : (ace.layout tail).length = ace.size.toNat := by
    rw [Layout.length, body_layout h, List.length_append, ← h.length_fields_add, Nat.add_assoc]
  have hlt : (ace.layout tail).length < ByteOrder.capacity 2 := by
    rw [hlength]
    exact ace.size.toNat_lt
  rw [Layout.encode, if_pos hlt, h.extent_eq, front_append, body_layout h, hlength,
    UInt16.ofNat_toNat]
  rfl

/-- Under a strict policy nothing has to be put in place of slack. -/
theorem encode_layout_of_strict (h : decode options bytes = .ok ace)
    (hstrict : options.sizePolicy = .strict) :
    (ace.layout []).encode = .ok (ace.extent bytes) := by
  obtain ⟨tail, hfills, hexact⟩ := fills_of_decode h
  have hlayout : ace.layout [] = ace.layout tail := by
    cases hcarries : ace.type.carriesData with
    | true => simp [layout, hfills.data_eq, hcarries]
    | false => rw [hexact hstrict hcarries]
  rw [hlayout, encode_layout hfills]

/-! ## Telling inputs apart -/

namespace Fills

theorem applicationData_eq_some (h : Fills bytes ace tail) (hcarries : ace.type.carriesData = true) :
    ace.applicationData = some tail := by
  rw [h.data_eq, if_pos hcarries]

theorem getElem?_extent_of_lt (h : Fills bytes ace tail) {i : Nat} (hi : i < ace.fieldsLength) :
    (ace.extent bytes)[i]? = ace.front[i]? := by
  rw [h.extent_eq]
  apply List.getElem?_append_left
  rw [length_front_eq_fieldsLength h.countable]
  exact hi

/-- Outside slack the bytes can be told from the entry. -/
theorem getElem?_extent_eq (h : Fills bytes ace tail) (h' : Fills bytes' ace tail') {i : Nat}
    (hi : ¬ ace.IsSlack i) : (ace.extent bytes)[i]? = (ace.extent bytes')[i]? := by
  by_cases hcarries : ace.type.carriesData = true
  · have htail : some tail = some tail' :=
      (h.applicationData_eq_some hcarries).symm.trans (h'.applicationData_eq_some hcarries)
    cases htail
    rw [h.extent_eq, h'.extent_eq]
  · have hlt : i < ace.fieldsLength := by
      apply Nat.lt_of_not_le
      intro hle
      exact hi ⟨by simpa using hcarries, hle⟩
    rw [h.getElem?_extent_of_lt hlt, h'.getElem?_extent_of_lt hlt]

/-- An input that agrees with the bytes of an entry outside slack is filled by it too. -/
theorem of_agree (h : Fills bytes ace tail) (hsize : ace.size.toNat ≤ bytes'.length)
    (hagree : ∀ i, ¬ ace.IsSlack i → (ace.extent bytes)[i]? = (ace.extent bytes')[i]?) :
    ∃ tail', Fills bytes' ace tail' := by
  by_cases hcarries : ace.type.carriesData = true
  · have hextent : ace.extent bytes = ace.extent bytes' := by
      apply List.ext_getElem?
      intro i
      apply hagree
      simp [IsSlack, hcarries]
    exact ⟨tail, { h with size_le := hsize, extent_eq := hextent ▸ h.extent_eq }⟩
  · have hfront : (ace.extent bytes').take ace.fieldsLength = ace.front := by
      calc
        (ace.extent bytes').take ace.fieldsLength = (ace.extent bytes).take ace.fieldsLength := by
          apply List.ext_getElem?
          intro i
          rw [List.getElem?_take, List.getElem?_take]
          split_ifs with hi
          · exact (hagree i fun hslack => Nat.not_le.mpr hi hslack.2).symm
          · rfl
        _ = ace.front := by
          rw [h.extent_eq]
          exact List.take_left' (length_front_eq_fieldsLength h.countable)
    refine ⟨(ace.extent bytes').drop ace.fieldsLength, hsize, ?_, h.scope_fits, h.countable, ?_⟩
    · rw [← hfront, List.take_append_drop]
    · rw [h.data_eq, if_neg hcarries, if_neg hcarries]

theorem eq_iff_agree (h : Fills bytes ace tail) (h' : Fills bytes' ace' tail') :
    ace = ace' ↔ (ace.extent bytes).length = (ace'.extent bytes').length ∧
      ∀ i, ¬ ace.IsSlack i → (ace.extent bytes)[i]? = (ace'.extent bytes')[i]? := by
  constructor
  · rintro rfl
    refine ⟨by rw [h.length_extent, h'.length_extent], ?_⟩
    intro i hi
    exact h.getElem?_extent_eq h' hi
  · rintro ⟨hlength, hagree⟩
    rw [h.length_extent, h'.length_extent] at hlength
    have hextent : ace.extent bytes' = ace'.extent bytes' := by rw [extent, extent, hlength]
    obtain ⟨tail'', hace⟩ := h.of_agree (hlength ▸ h'.size_le) (hextent ▸ hagree)
    exact hace.unique h'

end Fills

/-- An entry laid out again gives back the declared extent, so two inputs are decoded to equal
entries exactly when their extents agree outside slack, which a strict policy excludes. -/
theorem encode_layout_and_eq_iff_of_decode (h : decode options bytes = .ok ace) :
    (ace.layout (ace.slack bytes)).encode = .ok (ace.extent bytes) ∧
      ∀ {options' : DecodeOptions} {bytes' : List UInt8} {ace' : Ace},
        decode options' bytes' = .ok ace' →
          (ace = ace' ↔ (ace.extent bytes).length = (ace'.extent bytes').length ∧
            ∀ i, ¬ ace.IsSlack i → (ace.extent bytes)[i]? = (ace'.extent bytes')[i]?) ∧
          (options.sizePolicy = .strict →
            (ace = ace' ↔ ace.extent bytes = ace'.extent bytes')) := by
  obtain ⟨tail, hfills, hstrict⟩ := fills_of_decode h
  refine ⟨?_, ?_⟩
  · rw [hfills.slack_eq]
    exact encode_layout hfills
  · intro options' bytes' ace' h'
    obtain ⟨tail', hfills', -⟩ := fills_of_decode h'
    have hagree := hfills.eq_iff_agree hfills'
    refine ⟨hagree, ?_⟩
    intro hpolicy
    rw [hagree]
    constructor
    · rintro ⟨hlength, hagree⟩
      apply List.ext_getElem?
      intro i
      by_cases hi : ace.IsSlack i
      · have hend : (ace.extent bytes).length ≤ i := by
          rw [hfills.length_extent, ← hfills.length_front_add, hstrict hpolicy hi.1,
            length_front_eq_fieldsLength hfills.countable]
          exact hi.2
        rw [List.getElem?_eq_none hend, List.getElem?_eq_none (hlength ▸ hend)]
      · exact hagree i hi
    · intro hextent
      refine ⟨congrArg List.length hextent, ?_⟩
      intro i _
      rw [hextent]

/-- A scope with a bit without a name, flags with one, and a last byte that is slack. -/
def slackEnding (last : UInt8) : List UInt8 :=
  [5, 0x32, 41, 0, 0, 0x0F, 1, 0xFF, 2, 0, 0, 0x80] ++ List.replicate 16 7 ++
    [1, 1, 0, 0, 0, 0, 0, 1, 0, 0, 0, 9, last]

theorem decode_slackEnding : ∃ ace, decode {} (slackEnding 1) = .ok ace ∧
    decode {} (slackEnding 2 ++ [3]) = .ok ace ∧
    (ace.layout (ace.slack (slackEnding 1))).encode = .ok (ace.extent (slackEnding 1)) ∧
    ∀ i, ¬ ace.IsSlack i →
      (ace.extent (slackEnding 1))[i]? = (ace.extent (slackEnding 2 ++ [3]))[i]? := by
  obtain ⟨ace, h, h'⟩ : ∃ ace, decode {} (slackEnding 1) = .ok ace ∧
      decode {} (slackEnding 2 ++ [3]) = .ok ace :=
    ⟨⟨.accessAllowedObject, ⟨0x32⟩, 0x0F01FF, some ⟨⟨0x80000002⟩, none,
      some ⟨List.replicate 16 7, rfl⟩⟩, ⟨1, 1, [0x09000000]⟩, none, 41⟩, rfl, rfl⟩
  obtain ⟨hencode, hiff⟩ := encode_layout_and_eq_iff_of_decode h
  exact ⟨ace, h, h', hencode, ((hiff h').1.mp rfl).2⟩

end Ace
end AccessControl
