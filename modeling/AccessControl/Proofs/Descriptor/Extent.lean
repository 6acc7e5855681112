import AccessControl.Proofs.Descriptor.Components
import AccessControl.Proofs.Failures

/-!
# The extent of a descriptor

A descriptor reaches to the end of its header or of the component that ends last, in whatever
order they lie. Bytes behind that extent do not matter, and a cut anywhere inside it is noticed:
the header, an offset or a component then lacks its bytes.
-/

namespace AccessControl

/-! ## Components -/

/-- The error of an identifier blames the end of the input. -/
def DecodeError.isShortTrustee : DecodeError → Bool
  | .sid _ _ => true
  | _ => false

theorem Sid.endsWithValue (offset : Nat) :
    EndsWithValue (fun bytes => (decode bytes).mapError (.sid offset)) DecodeError.isShortTrustee
      encodedLength := by
  refine .of_append ?_ ?_ ?_ ?_
  · intro bytes suffix h
    cases hsid : decode bytes with
    | ok sid => rw [decode_append hsid]
    | error e =>
      rw [hsid] at h
      exact absurd (isShort_error_iff.mpr rfl) h
  · intro bytes sid h
    exact encodedLength_le_of_decode (mapError_eq_ok_iff.mp h)
  · intro bytes sid h
    exact mapError_eq_ok_iff.mpr (decode_take (mapError_eq_ok_iff.mp h))
  · intro e h
    cases e with
    | sid => rfl
    | _ => cases h

namespace Component

/-- The number of bytes that a component takes up. -/
def length : (which : Component) → which.Value → Nat
  | .owner, sid | .group, sid => sid.encodedLength
  | .sacl, acl | .dacl, acl => acl.consumedLength

/-- The errors of a component that blame the end of the input. -/
def isShort : Component → DecodeError → Bool
  | .owner | .group => DecodeError.isShortTrustee
  | .sacl | .dacl => DecodeError.isShortList

variable {options : DecodeOptions} {offset : Nat} {bytes : List UInt8}

theorem length_pos (which : Component) (v : which.Value) : 0 < which.length v := by
  have hsid : ∀ sid : Sid, 0 < sid.encodedLength := by
    intro sid
    unfold Sid.encodedLength Sid.headerLength
    omega
  have hacl : ∀ acl : Acl, 0 < acl.consumedLength := by
    intro acl
    exact Nat.lt_of_lt_of_le (by decide) (Acl.le_endOffset Acl.headerLength acl.aces)
  cases which with
  | owner => exact hsid v
  | group => exact hsid v
  | sacl => exact hacl v
  | dacl => exact hacl v

theorem length_le_of_decode {which : Component} {v : which.Value}
    (h : which.decode options offset bytes = .ok v) : which.length v ≤ bytes.length := by
  cases which with
  | owner => exact Sid.encodedLength_le_of_decode (mapError_eq_ok_iff.mp h)
  | group => exact Sid.encodedLength_le_of_decode (mapError_eq_ok_iff.mp h)
  | sacl => exact Acl.consumedLength_le_of_decode h
  | dacl => exact Acl.consumedLength_le_of_decode h

theorem endsWithValue (options : DecodeOptions) (offset : Nat) (which : Component) :
    EndsWithValue (which.decode options offset) which.isShort which.length := by
  cases which with
  | owner => exact Sid.endsWithValue offset
  | group => exact Sid.endsWithValue offset
  | sacl => exact Acl.endsWithValue options
  | dacl => exact Acl.endsWithValue options

/-- What was decoded is decoded again when bytes are added. -/
theorem decode_append {which : Component} {v : which.Value}
    (h : which.decode options offset bytes = .ok v) (suffix : List UInt8) :
    which.decode options offset (bytes ++ suffix) = .ok v := by
  have hlong : ¬ IsShort which.isShort (which.decode options offset bytes) := by
    rw [h]
    rintro ⟨_, ⟨⟩, _⟩
  rw [(endsWithValue options offset which).append bytes suffix hlong, h]

end Component

namespace Descriptor

variable {options : DecodeOptions} {bytes : List UInt8} {d : Descriptor} {n : Nat}
  {which : Component}

/-- Where a component of a decoded descriptor ends in its bytes. -/
def componentEnd (d : Descriptor) (bytes : List UInt8) (which : Component) : Nat :=
  (d.value which).elim 0 fun v => offsetAt bytes which + which.length v

/-- The end of the header or of the component that ends last. -/
def extent (d : Descriptor) (bytes : List UInt8) : Nat :=
  max headerLength (max (max (d.componentEnd bytes .owner) (d.componentEnd bytes .group))
    (max (d.componentEnd bytes .sacl) (d.componentEnd bytes .dacl)))

theorem extent_le_iff : d.extent bytes ≤ n ↔
    headerLength ≤ n ∧ ∀ which, d.componentEnd bytes which ≤ n := by
  simp only [extent, Nat.max_le, Component.forall_iff, and_assoc]

theorem componentEnd_of_value {v : which.Value} (h : d.value which = some v) :
    d.componentEnd bytes which = offsetAt bytes which + which.length v := by
  rw [componentEnd, h]
  rfl

/-! ## Cuts behind the header -/

theorem offsetAt_take (hn : headerLength ≤ n) (which : Component) :
    offsetAt (bytes.take n) which = offsetAt bytes which := by
  have hposition : which.offsetPosition + 4 ≤ headerLength := by cases which <;> decide
  rw [offsetAt, stretch_take (Nat.le_trans hposition hn), offsetAt]

theorem take_four_take (hn : headerLength ≤ n) : (bytes.take n).take 4 = bytes.take 4 := by
  have hfour : 4 ≤ n := Nat.le_trans (by decide) hn
  rw [List.take_take, Nat.min_eq_left hfour]

theorem selectedAt_take (hn : headerLength ≤ n) (which : Component) :
    selectedAt (bytes.take n) which = selectedAt bytes which := by
  have hadmitted : admittedAt (bytes.take n) which = admittedAt bytes which := by
    cases which <;> simp only [admittedAt, controlAt_eq_of_front (take_four_take hn)]
  rw [selectedAt, selectedAt, hadmitted, offsetAt_take hn]

theorem selectedAt_append (hlength : headerLength ≤ bytes.length) (suffix : List UInt8)
    (which : Component) : selectedAt (bytes ++ suffix) which = selectedAt bytes which := by
  have htake : (bytes ++ suffix).take bytes.length = bytes := List.take_left
  rw [← selectedAt_take hlength, htake]

theorem componentEnd_take (hn : headerLength ≤ n) (which : Component) :
    d.componentEnd (bytes.take n) which = d.componentEnd bytes which := by
  rw [componentEnd, componentEnd, offsetAt_take hn]

theorem drop_offset_take (n : Nat) (which : Component) :
    (bytes.take n).drop (offsetAt bytes which) =
      (bytes.drop (offsetAt bytes which)).take (n - offsetAt bytes which) :=
  List.drop_take

theorem StandsAt.end_le {v : which.Value} (h : StandsAt options bytes which v) :
    offsetAt bytes which + which.length v ≤ bytes.length := by
  obtain ⟨hinside, hdecode⟩ := h
  have hlength := Component.length_le_of_decode hdecode
  rw [List.length_drop] at hlength
  omega

theorem StandsAt.take {v : which.Value} (h : StandsAt options bytes which v)
    (hn : headerLength ≤ n) (hend : offsetAt bytes which + which.length v ≤ n)
    (hle : n ≤ bytes.length) : StandsAt options (bytes.take n) which v := by
  have hpos := which.length_pos v
  have hcut := (Component.endsWithValue options (offsetAt bytes which) which).cut_behind h.2
    (n - offsetAt bytes which) (by omega) (by rw [List.length_drop]; omega)
  rw [StandsAt, offsetAt_take hn, List.length_take, drop_offset_take]
  exact ⟨by omega, hcut⟩

theorem StandsAt.append {v : which.Value} (h : StandsAt options bytes which v)
    (hlength : headerLength ≤ bytes.length) (suffix : List UInt8) :
    StandsAt options (bytes ++ suffix) which v := by
  have hoffset : offsetAt (bytes ++ suffix) which = offsetAt bytes which := by
    rw [← offsetAt_take hlength, List.take_left]
  rw [StandsAt, hoffset, List.length_append, List.drop_append_of_le_length (Nat.le_of_lt h.1)]
  exact ⟨Nat.lt_of_lt_of_le h.1 (Nat.le_add_right _ _), Component.decode_append h.2 suffix⟩

/-! ## Descriptors -/

theorem extent_le_length (h : decode options bytes = .ok d) : d.extent bytes ≤ bytes.length := by
  have hdescribes := decode_eq_ok_iff_describes.mp h
  refine extent_le_iff.mpr ⟨hdescribes.header, ?_⟩
  intro which
  cases hvalue : d.value which with
  | none =>
    rw [componentEnd, hvalue]
    exact Nat.zero_le _
  | some v =>
    rw [componentEnd_of_value hvalue]
    exact ((hdescribes.holds which).standsAt hvalue).end_le

theorem decode_take (h : decode options bytes = .ok d) (hn : d.extent bytes ≤ n)
    (hle : n ≤ bytes.length) : decode options (bytes.take n) = .ok d := by
  have hdescribes := decode_eq_ok_iff_describes.mp h
  obtain ⟨hheader, hends⟩ := extent_le_iff.mp hn
  refine decode_eq_ok_iff_describes.mpr
    (hdescribes.of_front ?_ (take_four_take hheader).symm ?_)
  · rw [List.length_take]
    exact Nat.le_min.mpr ⟨hheader, hdescribes.header⟩
  · intro which
    refine (hdescribes.holds which).transfer (selectedAt_take hheader which).symm ?_
    intro v hvalue _ hstands
    exact hstands.take hheader (componentEnd_of_value hvalue ▸ hends which) hle

theorem decode_append (h : decode options bytes = .ok d) (suffix : List UInt8) :
    decode options (bytes ++ suffix) = .ok d := by
  have hdescribes := decode_eq_ok_iff_describes.mp h
  have hheader := hdescribes.header
  refine decode_eq_ok_iff_describes.mpr (hdescribes.of_front ?_ ?_ ?_)
  · rw [List.length_append]
    exact Nat.le_trans hheader (Nat.le_add_right _ _)
  · exact (List.take_append_of_le_length (Nat.le_trans (by decide) hheader)).symm
  · intro which
    exact (hdescribes.holds which).transfer (selectedAt_append hheader suffix which).symm
      fun v _ _ hstands => hstands.append hheader suffix

/-- If the bytes that are left were enough, the descriptor would end in them. -/
theorem not_decode_take (h : decode options bytes = .ok d) (hn : n < d.extent bytes)
    (d' : Descriptor) : decode options (bytes.take n) ≠ .ok d' := by
  intro hcut
  have hsame := decode_append hcut (bytes.drop n)
  rw [List.take_append_drop, h] at hsame
  cases hsame
  have hend := extent_le_length hcut
  have hheader := (decode_eq_ok_iff_describes.mp hcut).header
  rw [List.length_take] at hend hheader
  have hextent : d.extent (bytes.take n) = d.extent bytes := by
    simp only [extent, componentEnd_take (Nat.le_trans hheader (Nat.min_le_left _ _))]
  omega

/-- Behind the header a cut leaves the offsets as they are, so it blames what they point to. -/
theorem kind_of_cut (h : decode options bytes = .ok d) {e : DecodeError}
    (he : decode options (bytes.take n) = .error e) : e.kind = .malformedStructure := by
  rcases header_or_component_error he with hread | ⟨hlength, which, hcomponent⟩
  · have hfails : Fails (fun e => e.kind = .malformedStructure) (readHeader (bytes.take n)) :=
      fails_readHeader (fun _ _ _ _ _ => rfl) _
    exact hfails e hread
  have hheader : headerLength ≤ n := by
    rw [List.length_take] at hlength
    exact Nat.le_trans hlength (Nat.min_le_left _ _)
  obtain ⟨hselected, source, rfl, hsource⟩ := exists_of_component_error hcomponent
  rw [selectedAt_take hheader] at hselected
  rw [offsetAt_take hheader, drop_offset_take] at hsource
  rcases hsource with ⟨-, rfl⟩ | ⟨-, hsource⟩
  · rfl
  · obtain ⟨v, -, hstands⟩ :=
      ((decode_eq_ok_iff_describes.mp h).holds which).exists_standsAt hselected
    have hends := Component.endsWithValue options (offsetAt bytes which) which
    show source.kind = .malformedStructure
    exact hends.kind_of_cut hstands.2 hsource

/-- A descriptor lies inside its bytes, needs all of its extent and nothing behind it. -/
theorem decode_depends_on_extent (h : decode options bytes = .ok d) :
    d.extent bytes ≤ bytes.length ∧
      (∀ n, d.extent bytes ≤ n → n ≤ bytes.length → decode options (bytes.take n) = .ok d) ∧
      (∀ suffix : List UInt8, decode options (bytes ++ suffix) = .ok d) ∧
      ∀ n < d.extent bytes, ∃ e, decode options (bytes.take n) = .error e ∧
        e.kind = .malformedStructure := by
  refine ⟨extent_le_length h, fun n hn hle => decode_take h hn hle, decode_append h, ?_⟩
  intro n hn
  cases hcut : decode options (bytes.take n) with
  | ok d' => exact absurd hcut (not_decode_take h hn d')
  | error e => exact ⟨e, rfl, kind_of_cut h hcut⟩

/-- A list in front of the owner, and three bytes behind it that nothing points to. -/
def listFirst : List UInt8 :=
  [1, 0, 4, 0x80, 28, 0, 0, 0, 0, 0, 0, 0, 0, 0, 0, 0, 20, 0, 0, 0] ++
    [2, 0, 8, 0, 0, 0, 0, 0] ++ [1, 1, 0, 0, 0, 0, 0, 5, 18, 0, 0, 0] ++ [7, 7, 7]

theorem decode_listFirst : ∃ d, decode .strict listFirst = .ok d ∧ d.extent listFirst = 40 ∧
    decode .strict (listFirst.take 40) = .ok d ∧
    ∃ e, decode .strict (listFirst.take 39) = .error e ∧ e.kind = .malformedStructure := by
  obtain ⟨d, h, hextent⟩ : ∃ d, decode .strict listFirst = .ok d ∧ d.extent listFirst = 40 :=
    ⟨⟨1, 0, ⟨0x8004⟩, some ⟨1, 5, [18]⟩, none, none, some ⟨.standard, 0, 8, 0, []⟩⟩, rfl, rfl⟩
  obtain ⟨-, hbehind, -, hinside⟩ := decode_depends_on_extent h
  exact ⟨d, h, hextent, hbehind 40 (Nat.le_of_eq hextent) (by decide),
    hinside 39 (by rw [hextent]; decide)⟩

end Descriptor
end AccessControl
