import AccessControl.Proofs.Ace.Lossless
import AccessControl.Proofs.Acl.RoundTrip

/-!
# Lists without loss

A decoded list stands in its bytes as a header and one entry behind the other, each to its
last byte. Under the strict options no entry has slack, so the list, laid out again from what
was decoded of it, gives back its bytes, and no two stretches of bytes are decoded alike.
-/

namespace AccessControl
namespace Acl

variable {options : DecodeOptions} {bytes : List UInt8} {acl : Acl}

/-- The bytes that header and entries take up. -/
def extent (acl : Acl) (bytes : List UInt8) : List UInt8 := bytes.take acl.consumedLength

/-- The header of the decoded list, with the true count. -/
def header (acl : Acl) : Header where
  revision := acl.revision
  sbz1 := acl.sbz1
  size := acl.size
  count := UInt16.ofNat acl.aces.length
  sbz2 := acl.sbz2

/-- The entries are laid out from what was decoded of them, and the declared size is kept. -/
def layout (acl : Acl) : Except LayoutError Layout := do
  let entries ← acl.aces.mapM fun ace => (ace.layout []).encode
  return {
    revision := acl.revision.value
    sbz1 := acl.sbz1
    sbz2 := acl.sbz2
    entries
    declaredSize := some acl.size }

/-- The bytes begin with the header of the list and then its entries. -/
structure Fills (options : DecodeOptions) (bytes : List UInt8) (acl : Acl)
    (entries : List (List UInt8)) : Prop where
  whole : List.Forall₂ (Whole options) entries acl.aces
  count_lt : acl.aces.length < ByteOrder.capacity 2
  bytes_eq : ∃ rest, bytes = acl.header.encode ++ (entries.flatten ++ rest)
  size_checked : options.checkAclSize = true → acl.consumedLength ≤ acl.size.toNat

/-- The entries that were read stand one behind the other. -/
theorem exists_entries_of_readEntries {count index offset : Nat} {aces : List Ace}
    (h : (readEntries options count index offset bytes).result = .ok aces) :
    aces.length = count ∧ ∃ entries rest,
      List.Forall₂ (Whole options) entries aces ∧ bytes = entries.flatten ++ rest := by
  induction count generalizing index offset bytes aces with
  | zero =>
    cases h
    exact ⟨rfl, [], bytes, .nil, rfl⟩
  | succ count ih =>
    obtain ⟨ace, aces, hace, haces, rfl⟩ := result_readEntries_succ_eq_ok_iff.mp h
    obtain ⟨hlength, entries, rest, hwhole, hrest⟩ := ih haces
    obtain ⟨-, hsize⟩ := Ace.size_of_decode hace
    have hentry : Whole options (ace.extent bytes) ace :=
      ⟨Ace.decode_take hace (Nat.le_refl _), (List.length_take_of_le hsize).symm⟩
    refine ⟨congrArg (· + 1) hlength, ace.extent bytes :: entries, rest, .cons hentry hwhole, ?_⟩
    rw [List.flatten_cons, List.append_assoc, ← hrest, Ace.extent, List.take_append_drop]

theorem decode_eq_ok_iff_fills :
    decode options bytes = .ok acl ↔ ∃ entries, Fills options bytes acl entries := by
  rw [decode_eq_ok_iff]
  constructor
  · rintro ⟨header, aces, hheader, hentries, hcheck⟩
    obtain ⟨hchecked, rfl⟩ := checkSize_eq_ok_iff.mp hcheck
    obtain ⟨rest, rfl⟩ := readHeader_eq_ok_iff.mp hheader
    rw [List.drop_left' (Header.length_encode header)] at hentries
    obtain ⟨hlength, entries, rest', hwhole, rfl⟩ := exists_entries_of_readEntries hentries
    refine ⟨entries, hwhole, hlength ▸ header.count.toNat_lt, ⟨rest', ?_⟩, hchecked⟩
    simp only [Acl.header, hlength, UInt16.ofNat_toNat]
  · rintro ⟨entries, h⟩
    obtain ⟨rest, rfl⟩ := h.bytes_eq
    refine ⟨acl.header, acl.aces, readHeader_encode_append _ _, ?_,
      checkSize_eq_ok_iff.mpr ⟨h.size_checked, rfl⟩⟩
    have hcount : acl.header.count.toNat = entries.length := by
      rw [h.whole.length_eq]
      exact UInt16.toNat_ofNat_of_lt' h.count_lt
    rw [hcount, List.drop_left' (Header.length_encode _)]
    exact readEntries_flatten h.whole 0 headerLength rest

namespace Fills

variable {entries : List (List UInt8)}

theorem consumedLength_eq (h : Fills options bytes acl entries) :
    acl.consumedLength = headerLength + entries.flatten.length :=
  endOffset_eq h.whole headerLength

theorem extent_eq (h : Fills options bytes acl entries) :
    acl.extent bytes = acl.header.encode ++ entries.flatten := by
  obtain ⟨rest, rfl⟩ := h.bytes_eq
  rw [extent, ← List.append_assoc]
  apply List.take_left'
  rw [h.consumedLength_eq, List.length_append, Header.length_encode]

/-- What stands behind the last entry does not matter. -/
theorem of_extent (h : Fills options bytes acl entries) :
    Fills options (acl.extent bytes) acl entries :=
  { h with bytes_eq := ⟨[], by rw [List.append_nil, h.extent_eq]⟩ }

end Fills

theorem decode_extent (h : decode options bytes = .ok acl) :
    decode options (acl.extent bytes) = .ok acl := by
  obtain ⟨entries, hfills⟩ := decode_eq_ok_iff_fills.mp h
  exact decode_eq_ok_iff_fills.mpr ⟨entries, hfills.of_extent⟩

theorem consumedLength_le_of_decode (h : decode options bytes = .ok acl) :
    acl.consumedLength ≤ bytes.length := by
  obtain ⟨entries, hfills⟩ := decode_eq_ok_iff_fills.mp h
  obtain ⟨rest, rfl⟩ := hfills.bytes_eq
  rw [hfills.consumedLength_eq, List.length_append, List.length_append, Header.length_encode]
  omega

/-- Entries without slack are laid out as the bytes that they came from. -/
theorem mapM_encode_layout {entries : List (List UInt8)} {aces : List Ace}
    (hstrict : options.sizePolicy = .strict) (h : List.Forall₂ (Whole options) entries aces) :
    aces.mapM (fun ace => (ace.layout []).encode) = .ok entries := by
  induction h with
  | nil => rfl
  | @cons entry ace entries aces hentry _ ih =>
    obtain ⟨hdecode, hsize⟩ := hentry
    have hextent : ace.extent entry = entry := List.take_of_length_le (Nat.le_of_eq hsize.symm)
    rw [List.mapM_cons, Ace.encode_layout_of_strict hdecode hstrict, hextent, ih]
    rfl

/-- The declared size bounds what header and entries take up, so size and count fit. -/
theorem encode_layout (h : decode .strict bytes = .ok acl) :
    acl.layout >>= Layout.encode = .ok (acl.extent bytes) := by
  obtain ⟨entries, hfills⟩ := decode_eq_ok_iff_fills.mp h
  have hlength : ¬ ByteOrder.capacity 2 ≤ headerLength + entries.flatten.length := by
    rw [← hfills.consumedLength_eq]
    exact Nat.not_le.mpr (Nat.lt_of_le_of_lt (hfills.size_checked rfl) acl.size.toNat_lt)
  have hcount : ¬ ByteOrder.capacity 2 ≤ entries.length := by
    rw [hfills.whole.length_eq]
    exact Nat.not_le.mpr hfills.count_lt
  have hlayout : acl.layout = .ok ⟨acl.revision.value, acl.sbz1, acl.sbz2, entries,
      some acl.size, none⟩ := by
    rw [layout, mapM_encode_layout rfl hfills.whole]
    rfl
  rw [hlayout, ok_bind, Layout.encode, Layout.length, Layout.body, if_neg hlength, if_neg hcount,
    hfills.extent_eq, Header.encode, header, ← hfills.whole.length_eq]
  simp

/-- A strictly decoded list, laid out again, gives back its bytes. So two inputs are decoded to
equal lists exactly when they begin with the same bytes as far as the lists reach. -/
theorem encode_layout_and_eq_iff_of_strict (h : decode .strict bytes = .ok acl) :
    acl.layout >>= Layout.encode = .ok (acl.extent bytes) ∧
      ∀ {bytes' : List UInt8} {acl' : Acl}, decode .strict bytes' = .ok acl' →
        (acl = acl' ↔ acl.consumedLength = acl'.consumedLength ∧
          acl.extent bytes = acl'.extent bytes') := by
  refine ⟨encode_layout h, ?_⟩
  intro bytes' acl' h'
  constructor
  · rintro rfl
    exact ⟨rfl, Except.ok.inj ((encode_layout h).symm.trans (encode_layout h'))⟩
  · rintro ⟨-, hextent⟩
    have hdecode := decode_extent h
    rw [hextent, decode_extent h'] at hdecode
    exact (Except.ok.inj hdecode).symm

/-- Reserved fields, an entry with data, one without, and more bytes declared than there are. -/
def roomy : List UInt8 :=
  [4, 7, 100, 0, 2, 0, 9, 0] ++ [9, 0, 18, 0, 0, 0, 0, 1, 1, 0, 0, 0, 0, 0, 0, 5, 0xAA, 0xBB] ++
    [0, 2, 16, 0, 0, 0, 0, 1, 1, 0, 0, 0, 0, 0, 0, 5]

theorem decode_roomy : ∃ acl, decode .strict (roomy ++ [1]) = .ok acl ∧
    decode .strict (roomy ++ [2, 3]) = .ok acl ∧ acl.layout >>= Layout.encode = .ok roomy ∧
    acl.extent (roomy ++ [1]) = acl.extent (roomy ++ [2, 3]) := by
  obtain ⟨acl, h, h', hextent⟩ : ∃ acl, decode .strict (roomy ++ [1]) = .ok acl ∧
      decode .strict (roomy ++ [2, 3]) = .ok acl ∧ acl.extent (roomy ++ [1]) = roomy :=
    ⟨⟨.directoryService, 7, 100, 9,
      [⟨.accessAllowedCallback, ⟨0⟩, 1, none, ⟨1, 5, []⟩, some [0xAA, 0xBB], 18⟩,
        ⟨.accessAllowed, ⟨2⟩, 1, none, ⟨1, 5, []⟩, none, 16⟩]⟩, rfl, rfl, rfl⟩
  obtain ⟨hencode, hiff⟩ := encode_layout_and_eq_iff_of_strict h
  exact ⟨acl, h, h', hextent ▸ hencode, ((hiff h').mp rfl).2⟩

end Acl
end AccessControl
