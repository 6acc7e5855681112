import AccessControl.Proofs.FlagSet
import Mathlib.Data.List.Perm.Basic
import Mathlib.Data.List.Range

/-!
# Members of flag sets

A set contains the flags that were put in and those whose bit was set before, and its unnamed bits
are carried along. Its size is counted on the word while its members are filtered from a table;
the two agree because every flag has a bit of its own. The set without its unnamed bits is
collected again from its members in any order, however often each of them is given.
-/

namespace AccessControl

namespace Flag

variable {F : Type} {width : Nat} [Flag F width]

theorem position_injective : Function.Injective (position : F → Nat) := by
  intro f g hposition
  exact List.inj_on_of_nodup_map nodup_positions (mem_all f) (mem_all g) hposition

theorem nodup_all : (all : List F).Nodup := List.Nodup.of_map position nodup_positions

end Flag

namespace FlagSet

variable {F : Type} {width : Nat} [Flag F width] {s : FlagSet F} {f g : F}

/-! ## Putting flags in -/

theorem contains_iff_and_mask_ne_zero :
    s.contains f = true ↔ s.raw &&& Flag.mask f ≠ 0 := by
  have hbit : (s.raw &&& Flag.mask f).getLsbD (Flag.position f) = s.contains f := by
    simp [contains, getLsbD_mask]
  constructor
  · intro hcontains hzero
    rw [hzero, hcontains] at hbit
    simp at hbit
  · intro hne
    by_contra hcontains
    apply hne
    apply BitVec.eq_of_getLsbD_eq
    intro i hi
    -- The mask has no other bit than that of the flag.
    by_cases hposition : Flag.position f = i
    · subst hposition
      simpa [hbit] using hcontains
    · simp [getLsbD_mask, hposition]

theorem contains_foldl_insert (flags : List F) (s : FlagSet F) :
    (flags.foldl insert s).contains f = true ↔ f ∈ flags ∨ s.contains f = true := by
  induction flags generalizing s with
  | nil => simp
  | cons g flags ih =>
    have hsame : Flag.position g = Flag.position f ↔ f = g := by
      rw [Flag.position_injective.eq_iff, eq_comm]
    simp only [List.foldl_cons, ih, contains_insert, Bool.or_eq_true, decide_eq_true_eq, hsame,
      List.mem_cons]
    tauto

theorem unknown_insert (s : FlagSet F) (f : F) : (s.insert f).unknown = s.unknown := by
  apply BitVec.eq_of_getLsbD_eq
  intro i hi
  by_cases hposition : Flag.position f = i
  · have hknown : (known (F := F)).getLsbD i = true := (getLsbD_known_iff i).mpr ⟨f, hposition⟩
    simp [unknown, hknown]
  · simp [unknown, insert, getLsbD_mask, hposition]

theorem unknown_foldl_insert (flags : List F) (s : FlagSet F) :
    (flags.foldl insert s).unknown = s.unknown := by
  induction flags generalizing s with
  | nil => rfl
  | cons f flags ih => rw [List.foldl_cons, ih, unknown_insert]

/-! ## Counting members -/

theorem members_sublist (s : FlagSet F) : s.members.Sublist Flag.all := List.filter_sublist

theorem nodup_members (s : FlagSet F) : s.members.Nodup := Flag.nodup_all.filter _

theorem toNat_cpop_eq_countP (bits : BitVec width) :
    bits.cpop.toNat = (List.range width).countP bits.getLsbD := by
  have hbelow : ∀ n, bits.cpopNatRec n 0 = (List.range n).countP bits.getLsbD := by
    intro n
    induction n with
    | zero => rfl
    | succ n ih =>
      rw [BitVec.cpopNatRec_succ, BitVec.cpopNatRec_add, ih, List.range_succ, List.countP_append]
      cases hbit : bits.getLsbD n <;> simp [hbit]
  rw [BitVec.toNat_cpop, hbelow]

theorem getLsbD_raw_named_iff (i : Nat) :
    s.named.raw.getLsbD i = true ↔ i ∈ s.members.map Flag.position := by
  simp only [named, BitVec.getLsbD_and, Bool.and_eq_true, getLsbD_known_iff, List.mem_map,
    mem_members]
  constructor
  · rintro ⟨hbit, f, rfl⟩
    exact ⟨f, hbit, rfl⟩
  · rintro ⟨f, hbit, rfl⟩
    exact ⟨hbit, f, rfl⟩

/-- The named bits that are set are the positions of the members, each once. -/
theorem perm_positions (s : FlagSet F) :
    ((List.range width).filter s.named.raw.getLsbD).Perm (s.members.map Flag.position) := by
  have hmap : (s.members.map Flag.position).Nodup :=
    (nodup_members s).map Flag.position_injective
  apply (List.perm_ext_iff_of_nodup (List.nodup_range.filter _) hmap).mpr
  intro i
  rw [List.mem_filter, getLsbD_raw_named_iff, List.mem_range, and_iff_right_iff_imp]
  intro hmem
  obtain ⟨f, -, rfl⟩ := List.mem_map.mp hmem
  exact Flag.position_lt f (Flag.mem_all f)

theorem size_eq_length_members (s : FlagSet F) : s.size = s.members.length := by
  calc s.size = (List.range width).countP s.named.raw.getLsbD := toNat_cpop_eq_countP _
    _ = ((List.range width).filter s.named.raw.getLsbD).length := List.countP_eq_length_filter
    _ = (s.members.map Flag.position).length := (perm_positions s).length_eq
    _ = s.members.length := List.length_map _

/-- Of three set bits one has no name. -/
example : (⟨0x31⟩ : AceFlags).size = 2 := by decide

theorem isEmpty_iff : s.isEmpty = true ↔ s.members = [] := by
  have hempty : (empty : FlagSet F).members = [] := by simp [members, contains, empty]
  have hnamed : (empty : FlagSet F).named.raw = 0 := BitVec.zero_and
  rw [← hempty, members_eq_iff_named_eq, eq_iff_raw_eq, hnamed]
  exact beq_iff_eq

/-! ## Collecting members -/

theorem raw_named_or_unknown (s : FlagSet F) : s.named.raw ||| s.unknown = s.raw := by
  rw [named, unknown, ← BitVec.and_or_distrib_left, BitVec.or_not_self, BitVec.and_allOnes]

theorem ofList_eq_named {flags : List F} (h : ∀ f, f ∈ flags ↔ f ∈ s.members) :
    ofList flags = s.named := by
  apply eq_of_members_of_unknown
  · apply List.filter_congr
    intro f _
    rw [Bool.eq_iff_iff, ofList, contains_foldl_insert, contains_named, h, mem_members]
    simp [contains, empty]
  · rw [ofList, unknown_foldl_insert, unknown_named]
    exact BitVec.zero_and

/-! ## All flags of a kind -/

/-- Sets of these flags are faithful: nothing gets lost of what is put in, counted, listed,
collected again or shown. -/
structure Faithful (F : Type) {width : Nat} [Flag F width] : Prop where
  contains_iff : ∀ (raw : BitVec width) (flags : List F) (f : F),
    (flags.foldl insert ⟨raw⟩).contains f = true ↔ f ∈ flags ∨ raw &&& Flag.mask f ≠ 0
  unknown_eq : ∀ (raw : BitVec width) (flags : List F),
    (flags.foldl insert ⟨raw⟩).unknown = raw &&& ~~~known (F := F)
  mem_members_iff : ∀ (s : FlagSet F) (f : F), f ∈ s.members ↔ s.contains f = true
  members_ordered : ∀ s : FlagSet F, s.members.Sublist Flag.all ∧ s.members.Nodup
  size_eq : ∀ s : FlagSet F, s.size = s.members.length
  isEmpty_iff : ∀ s : FlagSet F, s.isEmpty = true ↔ ∀ f, s.contains f = false
  collected : ∀ (s : FlagSet F) (flags : List F), (∀ f, f ∈ flags ↔ f ∈ s.members) →
    (ofList flags).raw = s.raw &&& known (F := F) ∧ (ofList flags).raw ||| s.unknown = s.raw
  text_eq_iff : ∀ a b : FlagSet F, a.text = b.text ↔ a.raw = b.raw

theorem faithful (h : Flag.Legible F) : Faithful F where
  contains_iff raw flags f := by
    rw [contains_foldl_insert, contains_iff_and_mask_ne_zero]
  unknown_eq raw flags := unknown_foldl_insert flags ⟨raw⟩
  mem_members_iff s f := mem_members
  members_ordered s := ⟨members_sublist s, nodup_members s⟩
  size_eq := size_eq_length_members
  isEmpty_iff s := by
    simp [FlagSet.isEmpty_iff, List.eq_nil_iff_forall_not_mem, mem_members]
  collected s flags hflags := by
    rw [ofList_eq_named hflags]
    exact ⟨rfl, raw_named_or_unknown s⟩
  text_eq_iff a b := by
    rw [(text_injective h).eq_iff, eq_iff_raw_eq]

end FlagSet

/-- Entry flags, access rights, object flags and control words are faithful sets of flags. -/
theorem flag_sets_faithful : FlagSet.Faithful AceFlag ∧ FlagSet.Faithful AccessRight ∧
    FlagSet.Faithful ObjectFlag ∧ FlagSet.Faithful ControlFlag :=
  ⟨FlagSet.faithful AceFlag.legible, FlagSet.faithful AccessRight.legible,
    FlagSet.faithful ObjectFlag.legible, FlagSet.faithful ControlFlag.legible⟩

end AccessControl
