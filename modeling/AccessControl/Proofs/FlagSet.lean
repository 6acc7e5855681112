import AccessControl.Ace.Flags
import AccessControl.Ace.ObjectFlags
import AccessControl.Ace.Rights
import AccessControl.Descriptor.Control
import AccessControl.Proofs.Numerals
import AccessControl.Proofs.Text.Separation
import Mathlib.Data.List.Nodup
import Mathlib.Tactic.SplitIfs

/-!
# Flag sets and their texts

A set is determined by its members and by the bits that have no name. Its text names the members
and shows the other bits as one number, so that two sets of the same kind have the same text only
when they are the same word. The members alone are the word without its unnamed bits.
-/

namespace AccessControl

/-! ## Names -/

namespace Flag

/-- A character of a name. -/
def isLetter (c : Char) : Bool := c.isUpper || c == '_'

/-- The names tell the flags apart, and are words of capital letters. -/
structure Legible (F : Type) {width : Nat} [Flag F width] : Prop where
  nodup_names : ((all : List F).map name).Nodup
  letters : ∀ f ∈ (all : List F), (name f).toList.all isLetter = true

variable {F : Type} {width : Nat} [Flag F width]

theorem Legible.name_injective (h : Legible F) : Function.Injective (name : F → String) := by
  intro f g hname
  exact List.inj_on_of_nodup_map h.nodup_names (mem_all f) (mem_all g) hname

theorem Legible.isLetter_of_mem_name (h : Legible F) (f : F) :
    ∀ c ∈ (name f).toList, isLetter c = true :=
  List.all_eq_true.mp (h.letters f (mem_all f))

end Flag

theorem AceFlag.legible : Flag.Legible AceFlag := ⟨by decide, by decide⟩

theorem ObjectFlag.legible : Flag.Legible ObjectFlag := ⟨by decide, by decide⟩

theorem AccessRight.legible : Flag.Legible AccessRight := ⟨by decide, by decide⟩

theorem ControlFlag.legible : Flag.Legible ControlFlag := ⟨by decide, by decide⟩

namespace FlagSet

variable {F : Type} {width : Nat} [Flag F width] {a b s : FlagSet F}

/-! ## Members and bits -/

theorem getLsbD_mask (f : F) (i : Nat) :
    (Flag.mask f).getLsbD i = decide (Flag.position f = i) := by
  have hlt : Flag.position f < width := Flag.position_lt f (Flag.mem_all f)
  simp [Flag.mask, BitVec.getLsbD_twoPow, hlt]

theorem getLsbD_foldl_mask (flags : List F) (bits : BitVec width) (i : Nat) :
    (flags.foldl (fun bits f => bits ||| Flag.mask f) bits).getLsbD i =
      (bits.getLsbD i || flags.any fun f => decide (Flag.position f = i)) := by
  induction flags generalizing bits with
  | nil => simp
  | cons f flags ih =>
    simp only [List.foldl_cons, List.any_cons, ih, BitVec.getLsbD_or, getLsbD_mask, Bool.or_assoc]

/-- The known bits are those of the flags. -/
theorem getLsbD_known_iff (i : Nat) :
    (known (F := F)).getLsbD i = true ↔ ∃ f : F, Flag.position f = i := by
  rw [known, getLsbD_foldl_mask]
  simp [Flag.mem_all]

theorem contains_eq_of_members_eq (h : a.members = b.members) (f : F) :
    a.contains f = b.contains f := by
  have hmem : f ∈ a.members ↔ f ∈ b.members := by rw [h]
  rw [mem_members, mem_members] at hmem
  exact Bool.eq_iff_iff.mpr hmem

/-- Every bit has a name or has none. -/
theorem eq_of_members_of_unknown (hmembers : a.members = b.members)
    (hunknown : a.unknown = b.unknown) : a = b := by
  apply eq_iff_raw_eq.mpr
  apply BitVec.eq_of_getLsbD_eq
  intro i hi
  -- The members decide the bits of flags, and the unknown bits all others.
  by_cases hknown : (known (F := F)).getLsbD i = true
  · obtain ⟨f, rfl⟩ := (getLsbD_known_iff i).mp hknown
    exact contains_eq_of_members_eq hmembers f
  · have hbit := congrArg (BitVec.getLsbD · i) hunknown
    have hunnamed : (known (F := F)).getLsbD i = false := by simpa using hknown
    simpa only [unknown, BitVec.getLsbD_and, BitVec.getLsbD_not, hi, hunnamed, decide_true,
      Bool.not_false, Bool.and_true] using hbit

/-- The set without its unnamed bits. -/
def named (s : FlagSet F) : FlagSet F := ⟨s.raw &&& known (F := F)⟩

@[simp] theorem contains_named (s : FlagSet F) (f : F) : s.named.contains f = s.contains f := by
  have hknown : (known (F := F)).getLsbD (Flag.position f) = true :=
    (getLsbD_known_iff _).mpr ⟨f, rfl⟩
  simp [named, contains, hknown]

@[simp] theorem members_named (s : FlagSet F) : s.named.members = s.members := by
  have hcontains : s.named.contains = s.contains := funext (contains_named s)
  rw [members, members, hcontains]

@[simp] theorem unknown_named (s : FlagSet F) : s.named.unknown = 0 := by
  simp [named, unknown, BitVec.and_assoc]

theorem members_eq_iff_named_eq : a.members = b.members ↔ a.named = b.named := by
  constructor
  · intro h
    apply eq_of_members_of_unknown
    · rw [members_named, members_named, h]
    · rw [unknown_named, unknown_named]
  · intro h
    rw [← members_named a, h, members_named]

theorem names_eq_iff (h : Flag.Legible F) : a.names = b.names ↔ a.named = b.named := by
  rw [← members_eq_iff_named_eq]
  exact List.map_inj_right fun _ _ hname => h.name_injective hname

/-! ## Text -/

/-- The number for the bits without a name, if there are any. -/
def numberParts (s : FlagSet F) : List String :=
  if s.unknown = 0 then [] else [Numeral.marked s.unknown.toNat]

theorem parts_eq (s : FlagSet F) : s.parts = s.names ++ s.numberParts := rfl

/-- A number begins with a digit, and no name does. -/
def isName (part : String) : Bool := part.toList.head?.all Flag.isLetter

theorem isName_of_mem_names (h : Flag.Legible F) {part : String} (hpart : part ∈ s.names) :
    isName part = true := by
  obtain ⟨f, -, rfl⟩ := List.mem_map.mp hpart
  have hfirst := h.isLetter_of_mem_name f
  unfold isName
  cases hname : (Flag.name f).toList with
  | nil => rfl
  | cons c cs => exact hfirst c (hname ▸ List.mem_cons_self)

theorem isName_marked (n : Nat) : isName (Numeral.marked n) = false := by
  simp [isName, Numeral.marked, Flag.isLetter]

theorem endsRun_numberParts (s : FlagSet F) : Text.EndsRun isName s.numberParts := by
  unfold numberParts
  split
  · exact Text.endsRun_nil
  · exact Text.endsRun_cons (isName_marked _) _

theorem unknown_eq_of_numberParts_eq (h : a.numberParts = b.numberParts) :
    a.unknown = b.unknown := by
  unfold numberParts at h
  split_ifs at h with ha hb
  · rw [ha, hb]
  · simp only [List.cons.injEq, and_true] at h
    exact BitVec.eq_of_toNat_eq (Numeral.marked_injective h)

theorem eq_of_parts_eq (h : Flag.Legible F) (hparts : a.parts = b.parts) : a = b := by
  -- The number stands behind the names, and begins with a digit.
  obtain ⟨hnames, hnumber⟩ := Text.run_inj (fun _ => isName_of_mem_names h)
    (fun _ => isName_of_mem_names h) (endsRun_numberParts a) (endsRun_numberParts b) hparts
  apply eq_of_members_of_unknown
  · exact members_eq_iff_named_eq.mpr ((names_eq_iff h).mp hnames)
  · exact unknown_eq_of_numberParts_eq hnumber

/-- A character of a name or of a number. -/
def isPartChar (c : Char) : Bool :=
  Flag.isLetter c || c == 'x' || (Numeral.digitValue? 16 c).isSome

theorem isPartChar_of_mem_marked {n : Nat} {c : Char} (hc : c ∈ (Numeral.marked n).toList) :
    isPartChar c = true := by
  have hmark : ∀ c ∈ "0x".toList, isPartChar c = true := List.all_eq_true.mp (by decide)
  have hdigits : ∀ d < 16, isPartChar (Nat.digitChar d) = true := by decide
  rw [Numeral.marked, Numeral.hex, String.toList_append, Numeral.toList_text] at hc
  rcases List.mem_append.mp hc with hc | hc
  · exact hmark c hc
  · obtain ⟨d, hd, rfl⟩ := Numeral.exists_digit_of_mem_toDigits (by decide) hc
    exact hdigits d hd

theorem isPartChar_of_mem_parts (h : Flag.Legible F) {part : String} (hpart : part ∈ s.parts) :
    ∀ c ∈ part.toList, isPartChar c = true := by
  intro c hc
  rw [parts_eq] at hpart
  rcases List.mem_append.mp hpart with hname | hnumber
  · obtain ⟨f, -, rfl⟩ := List.mem_map.mp hname
    simp [isPartChar, h.isLetter_of_mem_name f c hc]
  · unfold numberParts at hnumber
    split_ifs at hnumber
    · cases hnumber
    · rw [List.mem_singleton.mp hnumber] at hc
      exact isPartChar_of_mem_marked hc

theorem toList_text_of_ne_nil (h : s.parts ≠ []) :
    s.text.toList = [' ', '|', ' '].intercalate (s.parts.map String.toList) := by
  have hseparator : " | ".toList = [' ', '|', ' '] := rfl
  rw [text, if_neg (by simpa using h), String.toList_intercalate, hseparator]

theorem text_of_eq_nil (h : s.parts = []) : s.text = "-" := by
  rw [text, h]
  rfl

theorem isPartChar_of_mem_map_parts (h : Flag.Legible F) (s : FlagSet F) :
    ∀ part ∈ s.parts.map String.toList, ∀ c ∈ part, isPartChar c = true := by
  intro part hpart
  obtain ⟨part, hmem, rfl⟩ := List.mem_map.mp hpart
  exact isPartChar_of_mem_parts h hmem

/-- A character of the text of a set that is not empty. -/
def isJoinedChar (c : Char) : Bool := isPartChar c || c == ' ' || c == '|'

theorem isJoinedChar_of_mem_text (h : Flag.Legible F) (hparts : s.parts ≠ []) :
    ∀ c ∈ s.text.toList, isJoinedChar c = true := by
  rw [toList_text_of_ne_nil hparts]
  apply Text.forall_mem_intercalate
  · exact List.all_eq_true.mp (by decide)
  · intro part hpart c hc
    simp [isJoinedChar, isPartChar_of_mem_map_parts h s part hpart c hc]

/-- Every character of a text belongs to a name, a number or a separator, or is the dash. -/
theorem not_mem_text (h : Flag.Legible F) {c : Char} (hjoined : isJoinedChar c = false)
    (hdash : c ≠ '-') : c ∉ s.text.toList := by
  intro hc
  by_cases hparts : s.parts = []
  · rw [text_of_eq_nil hparts] at hc
    exact hdash (List.mem_singleton.mp hc)
  · exact absurd (isJoinedChar_of_mem_text h hparts c hc) (ne_true_of_eq_false hjoined)

theorem text_ne_dash (h : Flag.Legible F) (hparts : s.parts ≠ []) : s.text ≠ "-" := by
  intro hdash
  have hjoined := isJoinedChar_of_mem_text h hparts
  rw [hdash] at hjoined
  exact absurd (hjoined '-' (List.mem_singleton_self '-')) (by decide)

theorem text_injective (h : Flag.Legible F) : Function.Injective (text : FlagSet F → String) := by
  intro a b htext
  apply eq_of_parts_eq h
  by_cases ha : a.parts = []
  · by_cases hb : b.parts = []
    · rw [ha, hb]
    · exact absurd (htext.symm.trans (text_of_eq_nil ha)) (text_ne_dash h hb)
  · by_cases hb : b.parts = []
    · exact absurd (htext.trans (text_of_eq_nil hb)) (text_ne_dash h ha)
    · have hlist := congrArg String.toList htext
      rw [toList_text_of_ne_nil ha, toList_text_of_ne_nil hb] at hlist
      have hblank : isPartChar ' ' = false := by decide
      have hmap := Text.intercalate_inj hblank (isPartChar_of_mem_map_parts h a)
        (isPartChar_of_mem_map_parts h b) (by simpa using ha) (by simpa using hb) hlist
      exact Text.map_toList_inj hmap

end FlagSet
end AccessControl
