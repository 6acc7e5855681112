import AccessControl.Acl.Layout
import AccessControl.Proofs.Acl.Reading
import Mathlib.Data.List.Forall2

/-!
# Lists that were laid out

A list whose entries are each decoded to their last byte is decoded to those entries, in
order, whatever follows. The offset of an entry is the length of everything before it.
-/

namespace AccessControl
namespace Acl

variable {options : DecodeOptions}

/-- The bytes are this entry, with none left over. -/
def Whole (options : DecodeOptions) (bytes : List UInt8) (ace : Ace) : Prop :=
  Ace.decode options bytes = .ok ace ∧ ace.size.toNat = bytes.length

/-- Every entry leaves what is behind it to the next. -/
theorem readEntries_flatten {entries : List (List UInt8)} {aces : List Ace}
    (h : List.Forall₂ (Whole options) entries aces) (index offset : Nat) (rest : List UInt8) :
    (readEntries options entries.length index offset (entries.flatten ++ rest)).result =
      .ok aces := by
  induction h generalizing index offset with
  | nil => rfl
  | @cons entry ace entries aces hentry _ ih =>
    obtain ⟨hdecode, hsize⟩ := hentry
    rw [List.length_cons, result_readEntries_succ_eq_ok_iff, List.flatten_cons, List.append_assoc]
    refine ⟨ace, aces, Ace.decode_append hdecode _, ?_, rfl⟩
    rw [hsize, List.drop_left]
    exact ih (index + 1) (offset + entry.length)

theorem le_endOffset (offset : Nat) (aces : List Ace) : offset ≤ endOffset offset aces := by
  induction aces generalizing offset with
  | nil => exact Nat.le_refl offset
  | cons ace aces ih => exact Nat.le_trans (Nat.le_add_right _ _) (ih _)

/-- The size of an entry fits two bytes. -/
theorem endOffset_le (offset : Nat) (aces : List Ace) :
    endOffset offset aces ≤ offset + 65535 * aces.length := by
  induction aces generalizing offset with
  | nil => exact Nat.le_add_right _ _
  | cons ace aces ih =>
    have hsize : ace.size.toNat ≤ 65535 := Nat.le_of_lt_succ ace.size.toNat_lt
    have hrest := ih (offset + ace.size.toNat)
    rw [endOffset, List.length_cons, Nat.mul_succ]
    omega

theorem endOffset_eq {entries : List (List UInt8)} {aces : List Ace}
    (h : List.Forall₂ (Whole options) entries aces) (offset : Nat) :
    endOffset offset aces = offset + entries.flatten.length := by
  induction h generalizing offset with
  | nil => rfl
  | cons hentry _ ih =>
    rw [endOffset, ih, hentry.2, List.flatten_cons, List.length_append, Nat.add_assoc]

/-- No entry is empty, so a list has no more entries than bytes. -/
theorem length_le_length_flatten {entries : List (List UInt8)} {aces : List Ace}
    (h : List.Forall₂ (Whole options) entries aces) :
    entries.length ≤ entries.flatten.length := by
  induction h with
  | nil => exact Nat.le_refl 0
  | cons hentry _ ih =>
    obtain ⟨hdecode, hsize⟩ := hentry
    obtain ⟨hheader, -⟩ := Ace.size_of_decode hdecode
    unfold Ace.headerLength at hheader
    rw [List.flatten_cons, List.length_append, List.length_cons]
    omega

namespace Layout

/-- A known revision, entries that are whole, and the true size and count. -/
structure Coherent (options : DecodeOptions) (l : Layout) (aces : List Ace) : Prop where
  revision_eq : l.revision = 2 ∨ l.revision = 4
  entries_whole : List.Forall₂ (Whole options) l.entries aces
  declaredSize_eq : l.declaredSize = none
  declaredCount_eq : l.declaredCount = none
  length_le : l.length ≤ 65535

/-- The list of these entries that is laid out. -/
def list (l : Layout) (revision : AclRevision) (aces : List Ace) : Acl where
  revision
  sbz1 := l.sbz1
  size := UInt16.ofNat l.length
  sbz2 := l.sbz2
  aces

/-- The header that is written when nothing else is declared. -/
def header (l : Layout) (revision : AclRevision) : Header where
  revision
  sbz1 := l.sbz1
  size := UInt16.ofNat l.length
  count := UInt16.ofNat l.entries.length
  sbz2 := l.sbz2

variable {l : Layout} {aces : List Ace}

theorem Coherent.exists_revision (h : l.Coherent options aces) :
    ∃ revision : AclRevision, revision.value = l.revision := by
  rcases h.revision_eq with hstandard | hdirectory
  · exact ⟨.standard, hstandard.symm⟩
  · exact ⟨.directoryService, hdirectory.symm⟩

theorem Coherent.count_lt (h : l.Coherent options aces) : l.entries.length < 65536 := by
  have hentries := length_le_length_flatten h.entries_whole
  have hlength := h.length_le
  unfold length body at hlength
  omega

theorem Coherent.encode_eq (h : l.Coherent options aces) {revision : AclRevision}
    (hrevision : revision.value = l.revision) :
    l.encode = .ok ((l.header revision).encode ++ l.entries.flatten) := by
  have hlength : ¬ ByteOrder.capacity 2 ≤ l.length :=
    Nat.not_le.mpr (Nat.lt_succ_of_le h.length_le)
  have hcount : ¬ ByteOrder.capacity 2 ≤ l.entries.length := Nat.not_le.mpr h.count_lt
  rw [encode, if_neg hlength, if_neg hcount, h.declaredSize_eq, h.declaredCount_eq,
    Header.encode, body]
  simp [header, hrevision]

/-- The size that is written is the size that the entries consume, so no option refuses it. -/
theorem decode_encoded_list (h : l.Coherent options aces) :
    ∃ bytes revision, l.encode = .ok bytes ∧ revision.value = l.revision ∧
      (l.list revision aces).size.toNat = l.length ∧
      (l.list revision aces).consumedLength = l.length ∧
      ∀ suffix : List UInt8, decode options (bytes ++ suffix) = .ok (l.list revision aces) := by
  obtain ⟨revision, hrevision⟩ := h.exists_revision
  have hsize : (l.list revision aces).size.toNat = l.length :=
    UInt16.toNat_ofNat_of_lt' (Nat.lt_succ_of_le h.length_le)
  have hconsumed : (l.list revision aces).consumedLength = l.length :=
    endOffset_eq h.entries_whole headerLength
  have hcount : (l.header revision).count.toNat = l.entries.length :=
    UInt16.toNat_ofNat_of_lt' h.count_lt
  refine ⟨_, revision, h.encode_eq hrevision, hrevision, hsize, hconsumed, ?_⟩
  intro suffix
  rw [decode_eq_ok_iff, List.append_assoc]
  refine ⟨l.header revision, aces, readHeader_encode_append _ _, ?_, ?_⟩
  · rw [hcount, List.drop_left' (Header.length_encode _)]
    exact readEntries_flatten h.entries_whole 0 headerLength suffix
  · refine checkSize_eq_ok_iff.mpr ⟨?_, rfl⟩
    intro _
    exact Nat.le_of_eq (hconsumed.trans hsize.symm)

/-- Two entries, each with two bytes of slack. -/
def slack : Layout where
  revision := 2
  sbz1 := 7
  sbz2 := 9
  entries := List.replicate 2 [0, 2, 18, 0, 0, 0, 0, 1, 1, 0, 0, 0, 0, 0, 0, 5, 0xAA, 0xBB]

theorem decode_encoded_slack :
    ∃ ace bytes revision, slack.Coherent {} [ace, ace] ∧ slack.encode = .ok bytes ∧
      decode {} (bytes ++ [1, 2, 3]) = .ok (slack.list revision [ace, ace]) := by
  obtain ⟨ace, hace⟩ : ∃ ace, Whole {}
      [0, 2, 18, 0, 0, 0, 0, 1, 1, 0, 0, 0, 0, 0, 0, 5, 0xAA, 0xBB] ace :=
    ⟨⟨.accessAllowed, ⟨2⟩, 1, none, ⟨1, 5, []⟩, none, 18⟩, rfl, rfl⟩
  have h : slack.Coherent {} [ace, ace] :=
    ⟨.inl rfl, .cons hace (.cons hace .nil), rfl, rfl, by decide⟩
  obtain ⟨bytes, revision, hencode, -, -, -, hdecode⟩ := decode_encoded_list h
  exact ⟨ace, bytes, revision, h, hencode, hdecode [1, 2, 3]⟩

end Layout
end Acl
end AccessControl
