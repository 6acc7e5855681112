import AccessControl.Proofs.Descriptor.Extent
import AccessControl.Proofs.Descriptor.RoundTrip
import AccessControl.Proofs.Sid.Text

/-!
# Normalizing descriptors

However the components of a decoded descriptor lie, they can be laid out anew, behind the header
and behind each other, from the texts of the trustees and the bytes of the lists. All offsets
fit, the new bytes are decoded to the same descriptor, and laying it out once more gives the same
bytes.
-/

namespace AccessControl

open ByteOrder (capacity)

namespace Component

/-- No component takes up more bytes: sub-authorities are counted in a byte, entries and their
sizes in two. -/
def maxLength : Component → Nat
  | .owner | .group => Sid.headerLength + Sid.subAuthorityLength * 255
  | .sacl | .dacl => Acl.headerLength + 65535 * 65535

variable {options : DecodeOptions} {offset : Nat} {bytes : List UInt8}

theorem length_le_maxLength {which : Component} {v : which.Value}
    (h : which.decode options offset bytes = .ok v) : which.length v ≤ which.maxLength := by
  have hsid : ∀ {sid : Sid}, Sid.decode bytes = .ok sid →
      sid.encodedLength ≤ Sid.headerLength + Sid.subAuthorityLength * 255 := by
    intro sid h
    obtain ⟨hcountable, -⟩ := Sid.decode_eq_ok_iff.mp h
    exact Nat.add_le_add_left (Nat.mul_le_mul_left _ hcountable) _
  have hacl : ∀ {acl : Acl}, Acl.decode options bytes = .ok acl →
      acl.consumedLength ≤ Acl.headerLength + 65535 * 65535 := by
    intro acl h
    obtain ⟨entries, hfills⟩ := Acl.decode_eq_ok_iff_fills.mp h
    have hcount : acl.aces.length ≤ 65535 := Nat.le_of_lt_succ hfills.count_lt
    exact Nat.le_trans (Acl.endOffset_le _ _) (Nat.add_le_add_left (Nat.mul_le_mul_left _ hcount) _)
  cases which with
  | owner => exact hsid (mapError_eq_ok_iff.mp h)
  | group => exact hsid (mapError_eq_ok_iff.mp h)
  | sacl => exact hacl h
  | dacl => exact hacl h

/-- Where a component stands is only told by its errors. -/
theorem decode_at {which : Component} {v : which.Value}
    (h : which.decode options offset bytes = .ok v) (offset' : Nat) :
    which.decode options offset' bytes = .ok v := by
  cases which with
  | owner => exact mapError_eq_ok_iff.mpr (mapError_eq_ok_iff.mp h)
  | group => exact mapError_eq_ok_iff.mpr (mapError_eq_ok_iff.mp h)
  | sacl => exact h
  | dacl => exact h

end Component

namespace Descriptor

namespace Layout

def component (l : Layout) : Component → Option (List UInt8)
  | .owner => l.owner
  | .group => l.group
  | .sacl => l.sacl
  | .dacl => l.dacl

variable {l : Layout} {bytes : List UInt8}

/-- How long the last component is does not matter to the offsets. -/
theorem le_of_mem_offsets {start offset : Nat} {components : List (Option (List UInt8))}
    {last : Option (List UInt8)} (h : offset ∈ offsets start (components ++ [last])) :
    offset ≤ start + (components.flatMap fun c => c.getD []).length := by
  induction components generalizing start with
  | nil =>
    cases last with
    | none =>
      rw [List.mem_singleton.mp h]
      exact Nat.zero_le _
    | some _ => exact Nat.le_of_eq (List.mem_singleton.mp h)
  | cons component components ih =>
    cases component with
    | none =>
      rcases List.mem_cons.mp h with rfl | h
      · exact Nat.zero_le _
      · exact ih h
    | some bytes =>
      rcases List.mem_cons.mp h with rfl | h
      · exact Nat.le_add_right _ _
      · have hle := ih h
        rw [List.flatMap_cons, Option.getD_some, List.length_append]
        omega

theorem exists_encode (h : headerLength +
    ([l.owner, l.group, l.sacl].flatMap fun c => c.getD []).length < capacity 4) :
    ∃ bytes, l.encode = .ok bytes := by
  have hplaces : ((offsets headerLength l.components).all fun offset =>
      decide (offset < capacity 4)) = true := by
    rw [List.all_eq_true]
    intro offset hoffset
    exact decide_eq_true (Nat.lt_of_le_of_lt (le_of_mem_offsets hoffset) h)
  exact ⟨_, if_pos hplaces⟩

/-- What is written has the header of the layout, and its components at their offsets. -/
theorem exists_headerStands_of_encode (h : l.encode = .ok bytes) :
    headerLength ≤ bytes.length ∧
      ∃ header, HeaderStands bytes header ∧ header.revision = l.revision ∧ header.sbz1 = 0 ∧
        header.control = ⟨l.writtenControl.toBitVec⟩ ∧
        ∀ which, Placed bytes (offsetAt bytes which) (l.component which) := by
  obtain ⟨header, hrevision, hsbz1, hcontrol, hoffsets, hbytes⟩ := exists_header_of_encode h
  have hread : readHeader bytes = .ok header := by
    rw [hbytes]
    exact readHeader_encode_append header _
  obtain ⟨hlength, hstands⟩ := headerStands_of_readHeader hread
  have hfront : 0 < header.encode.length := by
    rw [Header.length_encode]
    decide
  have hplaced := placed_offsets hfront l.components []
  rw [Header.length_encode, hoffsets, List.append_nil, ← hbytes] at hplaced
  simp only [components, List.map_cons, List.map_nil, List.forall₂_cons, hstands.offset_eq]
    at hplaced
  obtain ⟨howner, hgroup, hsacl, hdacl, -⟩ := hplaced
  exact ⟨hlength, header, hstands, hrevision, hsbz1, hcontrol,
    Component.forall_iff.mpr ⟨howner, hgroup, hsacl, hdacl⟩⟩

end Layout

/-- Trustees are laid out from their texts, and lists from the bytes that they take up. -/
def layout (d : Descriptor) (bytes : List UInt8) : Except LayoutError Layout := do
  let owner ← d.owner.mapM fun sid => Sid.wireOfText sid.text
  let group ← d.group.mapM fun sid => Sid.wireOfText sid.text
  return {
    revision := d.revision
    control := some (UInt16.ofBitVec d.control.raw)
    owner
    group
    sacl := d.sacl.map fun acl => stretch bytes (offsetAt bytes .sacl) acl.consumedLength
    dacl := d.dacl.map fun acl => stretch bytes (offsetAt bytes .dacl) acl.consumedLength }

/-- The bytes that a component takes up. -/
def piece (d : Descriptor) (bytes : List UInt8) (which : Component) : Option (List UInt8) :=
  (d.value which).map fun v => stretch bytes (offsetAt bytes which) (which.length v)

/-- All components are laid out from the bytes that they take up. -/
def pieces (d : Descriptor) (bytes : List UInt8) : Layout where
  revision := d.revision
  control := some (UInt16.ofBitVec d.control.raw)
  owner := d.piece bytes .owner
  group := d.piece bytes .group
  sacl := d.piece bytes .sacl
  dacl := d.piece bytes .dacl

/-- Both trustees can be named by a text. -/
def Nameable (d : Descriptor) : Prop :=
  ∀ sid, d.owner = some sid ∨ d.group = some sid → sid.subAuthorities.length ≤ 15

variable {options : DecodeOptions} {bytes rebuilt : List UInt8} {d : Descriptor}
  {which : Component}

theorem component_pieces (d : Descriptor) (bytes : List UInt8) (which : Component) :
    (d.pieces bytes).component which = d.piece bytes which := by
  cases which <;> rfl

theorem piece_of_value {v : which.Value} (h : d.value which = some v) :
    d.piece bytes which = some (stretch bytes (offsetAt bytes which) (which.length v)) := by
  rw [piece, h]
  rfl

theorem mapM_wireOfText {value : Option Sid} {image : Sid → List UInt8}
    (h : ∀ sid, value = some sid → Sid.wireOfText sid.text = .ok (image sid)) :
    value.mapM (fun sid => Sid.wireOfText sid.text) = .ok (value.map image) := by
  cases value with
  | none => rfl
  | some sid =>
    rw [Option.mapM_some, h sid rfl]
    rfl

/-- The text of a trustee stands for the bytes that it came from. -/
theorem layout_eq (hdescribes : Describes options bytes d) (hnameable : d.Nameable) :
    d.layout bytes = .ok (d.pieces bytes) := by
  have htext : ∀ {offset : Nat} {sid : Sid}, Sid.decode (bytes.drop offset) = .ok sid →
      sid.subAuthorities.length ≤ 15 →
      Sid.wireOfText sid.text = .ok (stretch bytes offset sid.encodedLength) := by
    intro offset sid h hsubs
    rw [Sid.wireOfText_text hsubs, Sid.encode_eq_take_of_decode h, stretch]
  have howner : d.owner.mapM (fun sid => Sid.wireOfText sid.text) =
      .ok (d.piece bytes .owner) := by
    apply mapM_wireOfText
    intro sid hsid
    obtain ⟨-, hdecode⟩ := (hdescribes.holds .owner).standsAt hsid
    exact htext (mapError_eq_ok_iff.mp hdecode) (hnameable sid (.inl hsid))
  have hgroup : d.group.mapM (fun sid => Sid.wireOfText sid.text) =
      .ok (d.piece bytes .group) := by
    apply mapM_wireOfText
    intro sid hsid
    obtain ⟨-, hdecode⟩ := (hdescribes.holds .group).standsAt hsid
    exact htext (mapError_eq_ok_iff.mp hdecode) (hnameable sid (.inr hsid))
  rw [layout, howner, hgroup]
  rfl

theorem StandsAt.decode_stretch {v : which.Value} (h : StandsAt options bytes which v)
    (offset : Nat) (rest : List UInt8) :
    which.decode options offset
      (stretch bytes (offsetAt bytes which) (which.length v) ++ rest) = .ok v := by
  have hcut := (Component.endsWithValue options (offsetAt bytes which) which).cut_behind h.2
    (which.length v) (Nat.le_refl _) (Component.length_le_of_decode h.2)
  exact Component.decode_append (Component.decode_at hcut offset) rest

theorem length_piece_le (hholds : Holds options bytes which (d.value which)) :
    ((d.piece bytes which).getD []).length ≤ which.maxLength := by
  cases hvalue : d.value which with
  | none =>
    rw [piece, hvalue]
    exact Nat.zero_le _
  | some v =>
    rw [piece_of_value hvalue]
    exact Nat.le_trans (List.length_take_le _ _)
      (Component.length_le_maxLength (hholds.standsAt hvalue).2)

/-- Two trustees and a list at their longest leave room for the offset of the other list. -/
theorem exists_encode_pieces (hdescribes : Describes options bytes d) :
    ∃ rebuilt, (d.pieces bytes).encode = .ok rebuilt := by
  have howner := length_piece_le (hdescribes.holds .owner)
  have hgroup := length_piece_le (hdescribes.holds .group)
  have hsacl := length_piece_le (hdescribes.holds .sacl)
  have hroom : headerLength + (Component.maxLength .owner +
      (Component.maxLength .group + Component.maxLength .sacl)) < capacity 4 := by
    decide
  apply Layout.exists_encode
  simp only [pieces, List.flatMap_cons, List.flatMap_nil, List.append_nil, List.length_append]
  omega

/-- A component that is placed anew is selected and decoded as before. -/
theorem Holds.of_placed {value : Option which.Value} (hholds : Holds options bytes which value)
    (hadmitted : admittedAt rebuilt which = admittedAt bytes which)
    (hplaced : Placed rebuilt (offsetAt rebuilt which)
      (value.map fun v => stretch bytes (offsetAt bytes which) (which.length v))) :
    Holds options rebuilt which value := by
  cases hholds with
  | absent =>
    have hzero : offsetAt rebuilt which = 0 := hplaced
    exact .absent (by simp [selectedAt, hzero])
  | @present v hselected hstands =>
    obtain ⟨hpositive, rest, hdrop⟩ := hplaced
    have hadmits : admittedAt bytes which = true := (Bool.and_eq_true_iff.mp hselected).1
    have hlength : 0 < (rebuilt.drop (offsetAt rebuilt which)).length := by
      rw [hdrop, List.length_append, length_stretch hstands.end_le]
      exact Nat.lt_of_lt_of_le (which.length_pos v) (Nat.le_add_right _ _)
    refine .present ?_ ⟨?_, ?_⟩
    · simp [selectedAt, hadmitted, hadmits, Nat.ne_of_gt hpositive]
    · rw [List.length_drop] at hlength
      omega
    · rw [hdrop]
      exact hstands.decode_stretch _ rest

/-- What was laid out from the pieces has the same pieces. -/
theorem piece_eq_of_placed (hholds : Holds options bytes which (d.value which))
    (hplaced : Placed rebuilt (offsetAt rebuilt which) (d.piece bytes which)) :
    d.piece rebuilt which = d.piece bytes which := by
  cases hvalue : d.value which with
  | none =>
    rw [piece, piece, hvalue]
    rfl
  | some v =>
    have hend := (hholds.standsAt hvalue).end_le
    rw [piece_of_value hvalue] at hplaced
    obtain ⟨-, rest, hdrop⟩ := hplaced
    rw [piece_of_value hvalue, piece_of_value hvalue, stretch, hdrop,
      List.take_left' (length_stretch hend)]

section Rebuilt

variable (hdescribes : Describes options bytes d)
  (hencode : (d.pieces bytes).encode = .ok rebuilt)
include hdescribes hencode

theorem describes_rebuilt : Describes options rebuilt { d with sbz1 := 0 } := by
  obtain ⟨hlength, header, hstands, hrevision, hsbz1, hcontrol, hplaced⟩ :=
    Layout.exists_headerStands_of_encode hencode
  have hword : header.control.raw = d.control.raw := by
    rw [hcontrol]
    rfl
  have hcontrolAt : controlAt rebuilt = controlAt bytes := by
    rw [← hstands.control_eq, hword, hdescribes.control_eq]
  -- An absent component has offset zero now, so its bit alone does not select it.
  refine ⟨hlength, hrevision.symm.trans hstands.revision_eq, hsbz1.symm.trans hstands.sbz1_eq,
    hdescribes.control_eq.trans hcontrolAt.symm, ?_⟩
  intro which
  have hadmitted : admittedAt rebuilt which = admittedAt bytes which := by
    cases which <;> simp only [admittedAt, hcontrolAt]
  have hpiece := hplaced which
  rw [component_pieces] at hpiece
  exact (hdescribes.holds which).of_placed hadmitted hpiece

theorem pieces_rebuilt :
    { d with sbz1 := 0 }.pieces rebuilt = d.pieces bytes := by
  obtain ⟨-, -, -, -, -, -, hplaced⟩ := Layout.exists_headerStands_of_encode hencode
  have hpiece : ∀ which, d.piece rebuilt which = d.piece bytes which := by
    intro which
    have hplaced := hplaced which
    rw [component_pieces] at hplaced
    exact piece_eq_of_placed (hdescribes.holds which) hplaced
  have hpieces : d.pieces rebuilt = d.pieces bytes := by simp only [pieces, hpiece]
  exact hpieces

end Rebuilt

/-- A decoded descriptor whose trustees have texts is laid out anew without fail. The new bytes
are decoded to it, with the reserved byte cleared, and are laid out as themselves. -/
theorem decode_rebuilt (h : decode options bytes = .ok d) (hnameable : d.Nameable) :
    ∃ rebuilt, d.layout bytes >>= Layout.encode = .ok rebuilt ∧
      decode options rebuilt = .ok { d with sbz1 := 0 } ∧
      { d with sbz1 := 0 }.layout rebuilt >>= Layout.encode = .ok rebuilt := by
  have hdescribes := decode_eq_ok_iff_describes.mp h
  obtain ⟨rebuilt, hencode⟩ := exists_encode_pieces hdescribes
  have hrebuilt := describes_rebuilt hdescribes hencode
  have hpieces := pieces_rebuilt hdescribes hencode
  refine ⟨rebuilt, ?_, decode_eq_ok_iff_describes.mpr hrebuilt, ?_⟩
  · rw [layout_eq hdescribes hnameable, ok_bind, hencode]
  · rw [layout_eq hrebuilt hnameable, ok_bind, hpieces, hencode]

/-- One list for both purposes, one identifier for both trustees, and a reserved byte. -/
def sharedParts : List UInt8 :=
  [1, 7, 0x14, 0x80, 28, 0, 0, 0, 28, 0, 0, 0, 20, 0, 0, 0, 20, 0, 0, 0] ++
    [2, 0, 8, 0, 0, 0, 0, 0] ++ [1, 1, 0, 0, 0, 0, 0, 5, 18, 0, 0, 0]

theorem decode_rebuilt_sharedParts : ∃ d rebuilt, decode .strict sharedParts = .ok d ∧
    d.Nameable ∧ d.sbz1 = 7 ∧ d.layout sharedParts >>= Layout.encode = .ok rebuilt ∧
    decode .strict rebuilt = .ok { d with sbz1 := 0 } := by
  obtain ⟨d, h, howner, hgroup, hsbz1⟩ : ∃ d, decode .strict sharedParts = .ok d ∧
      d.owner = some ⟨1, 5, [18]⟩ ∧ d.group = some ⟨1, 5, [18]⟩ ∧ d.sbz1 = 7 :=
    ⟨⟨1, 7, ⟨0x8014⟩, some ⟨1, 5, [18]⟩, some ⟨1, 5, [18]⟩, some ⟨.standard, 0, 8, 0, []⟩,
      some ⟨.standard, 0, 8, 0, []⟩⟩, rfl, rfl, rfl, rfl⟩
  have hnameable : d.Nameable := by
    intro sid hsid
    rw [howner, hgroup, or_self, Option.some.injEq] at hsid
    rw [← hsid]
    decide
  obtain ⟨rebuilt, hlayout, hdecode, -⟩ := decode_rebuilt h hnameable
  exact ⟨d, rebuilt, h, hnameable, hsbz1, hlayout, hdecode⟩

end Descriptor
end AccessControl
