import AccessControl.Proofs.Report.Entry

/-!
# What the lines of a descriptor tell

A descriptor is printed line by line, each entry on a line of its own. Two descriptors are printed
alike exactly when they agree in everything that a line shows. What the lines leave out are the
reserved fields, the object flags, the contents of application data and the sizes of entries.
-/

namespace AccessControl

open Numeral (decimal markedPadded)

/-! ## Lists -/

namespace Acl

/-- Agreement in what the lines of a list show. -/
structure SamePrinted (a b : Acl) : Prop where
  revision : a.revision = b.revision
  size : a.size = b.size
  aces : List.Forall₂ Ace.SamePrinted a.aces b.aces

theorem entryLines_inj {index : Nat} {aces aces' : List Ace}
    (h : entryLines index aces = entryLines index aces') :
    List.Forall₂ Ace.SamePrinted aces aces' := by
  induction aces generalizing index aces' with
  | nil =>
    cases aces' with
    | nil => exact .nil
    | cons ace' aces' => cases h
  | cons ace aces ih =>
    cases aces' with
    | nil => cases h
    | cons ace' aces' =>
      rw [entryLines, entryLines, List.cons.injEq] at h
      exact .cons (Ace.line_inj h.1) (ih h.2)

theorem entryLines_eq_of_samePrinted {aces aces' : List Ace}
    (h : List.Forall₂ Ace.SamePrinted aces aces') (index : Nat) :
    entryLines index aces = entryLines index aces' := by
  induction h generalizing index with
  | nil => rfl
  | cons hace _ ih => rw [entryLines, entryLines, hace.line_eq, ih]

theorem headLine_eq (label : String) (acl : Acl) :
    acl.headLine label = label ++ (": " ++ (acl.revision.name ++ (" size=" ++
      (decimal acl.size.toNat ++ (" entries=" ++ decimal acl.aces.length))))) := by
  unfold headLine
  simp only [String.append_assoc]

theorem headLine_inj {label : String} {a b : Acl} (h : a.headLine label = b.headLine label) :
    a.revision = b.revision ∧ a.size = b.size := by
  rw [headLine_eq, headLine_eq] at h
  have hrest := (String.append_right_inj _).mp ((String.append_right_inj _).mp h)
  obtain ⟨hrevision, hrest⟩ := (AclRevision.word_name _).inj (AclRevision.word_name _) rfl hrest
  obtain ⟨hsize, -⟩ := (Numeral.word_decimal _).inj (Numeral.word_decimal _) rfl hrest
  exact ⟨AclRevision.name_injective hrevision,
    UInt16.toNat_inj.mp (Numeral.decimal_injective hsize)⟩

theorem lines_eq_iff {label : String} {a b : Acl} :
    a.lines label = b.lines label ↔ a.SamePrinted b := by
  rw [lines, lines, List.cons.injEq]
  constructor
  · rintro ⟨hhead, hentries⟩
    obtain ⟨hrevision, hsize⟩ := headLine_inj hhead
    exact ⟨hrevision, hsize, entryLines_inj hentries⟩
  · intro h
    constructor
    · rw [headLine, headLine, h.revision, h.size, h.aces.length_eq]
    · exact entryLines_eq_of_samePrinted h.aces 0

theorem unbroken_of_mem_entryLines {index : Nat} {aces : List Ace} :
    ∀ line ∈ entryLines index aces, Unbroken line := by
  induction aces generalizing index with
  | nil => exact List.forall_mem_nil _
  | cons ace aces ih => exact List.forall_mem_cons.mpr ⟨ace.unbroken_line index, ih⟩

theorem unbroken_headLine {label : String} (hlabel : Unbroken label) (acl : Acl) :
    Unbroken (acl.headLine label) := by
  have hliterals : Unbroken ": " ∧ Unbroken " size=" ∧ Unbroken " entries=" := by decide
  simp only [headLine, unbroken_append, hliterals, hlabel, true_and, and_true]
  exact ⟨⟨acl.revision.word_name.unbroken, (Numeral.word_decimal _).unbroken⟩,
    (Numeral.word_decimal _).unbroken⟩

/-- Entries are numbered from zero in the order of the list. -/
theorem entryLines_eq_mapIdx (index : Nat) (aces : List Ace) :
    entryLines index aces = aces.mapIdx fun i ace => ace.line (index + i) := by
  induction aces generalizing index with
  | nil => rfl
  | cons ace aces ih =>
    rw [entryLines, ih, List.mapIdx_cons]
    simp only [Nat.add_zero, Nat.add_assoc, Nat.add_comm 1]

end Acl

namespace Descriptor

/-- Agreement in what the lines of a descriptor show. -/
structure SamePrinted (a b : Descriptor) : Prop where
  revision : a.revision = b.revision
  control : a.control = b.control
  owner : a.owner = b.owner
  group : a.group = b.group
  sacl : Option.Rel Acl.SamePrinted a.sacl b.sacl
  dacl : Option.Rel Acl.SamePrinted a.dacl b.dacl

/-- An owner or a group, as its line shows it. -/
def holderText (holder : Option Sid) : String := holder.elim "none" Sid.text

theorem sid_text_ne_none (sid : Sid) : sid.text ≠ "none" := by
  intro h
  have hhead := sid.head?_text
  rw [h] at hhead
  exact absurd hhead (by decide)

theorem holderText_injective : Function.Injective holderText := by
  intro a b h
  cases a with
  | none =>
    cases b with
    | none => rfl
    | some sid => exact absurd h.symm (sid_text_ne_none sid)
  | some sid =>
    cases b with
    | none => exact absurd h (sid_text_ne_none sid)
    | some sid' => rw [Sid.text_injective h]

theorem unbroken_holderText (holder : Option Sid) : Unbroken (holderText holder) := by
  cases holder with
  | none => decide
  | some sid => exact sid.word_text.unbroken

theorem headLine_ne_none (label : String) (acl : Acl) : acl.headLine label ≠ label ++ ": none" := by
  intro h
  rw [Acl.headLine_eq] at h
  have hlist := congrArg String.toList ((String.append_right_inj _).mp h)
  cases hrevision : acl.revision <;> simp [hrevision, AclRevision.name] at hlist

theorem listLines_eq_iff {label : String} {a b : Option Acl} :
    listLines label a = listLines label b ↔ Option.Rel Acl.SamePrinted a b := by
  cases a with
  | none =>
    cases b with
    | none => exact iff_of_true rfl .none
    | some acl =>
      apply iff_of_false
      · intro h
        exact headLine_ne_none label acl (List.head_eq_of_cons_eq h).symm
      · nofun
  | some acl =>
    cases b with
    | none =>
      apply iff_of_false
      · intro h
        exact headLine_ne_none label acl (List.head_eq_of_cons_eq h)
      · nofun
    | some acl' => exact Acl.lines_eq_iff.trans Option.rel_some_some.symm

/-- The four lines before the lists. -/
def heading (d : Descriptor) : List String :=
  ["revision: " ++ decimal d.revision.toNat,
    "control: " ++ markedPadded 4 d.control.raw.toNat ++ " (" ++ d.control.text ++ ")",
    "owner: " ++ holderText d.owner,
    "group: " ++ holderText d.group]

theorem lines_eq (d : Descriptor) :
    d.lines = d.heading ++ (listLines "sacl" d.sacl ++ listLines "dacl" d.dacl) := by
  unfold lines
  rw [List.append_assoc]
  rfl

theorem heading_eq_iff {a b : Descriptor} :
    a.heading = b.heading ↔ a.revision = b.revision ∧ a.control = b.control ∧
      a.owner = b.owner ∧ a.group = b.group := by
  constructor
  · intro h
    simp only [heading, List.cons.injEq, and_true, String.append_assoc] at h
    obtain ⟨hrevision, hcontrol, howner, hgroup⟩ := h
    obtain ⟨hraw, -⟩ := (Numeral.word_markedPadded _ _).inj (Numeral.word_markedPadded _ _) rfl
      ((String.append_right_inj _).mp hcontrol)
    refine ⟨?_, ?_, ?_, ?_⟩
    · exact UInt8.toNat_inj.mp
        (Numeral.decimal_injective ((String.append_right_inj _).mp hrevision))
    · exact FlagSet.eq_iff_raw_eq.mpr
        (BitVec.eq_of_toNat_eq (Numeral.markedPadded_injective 4 hraw))
    · exact holderText_injective ((String.append_right_inj _).mp howner)
    · exact holderText_injective ((String.append_right_inj _).mp hgroup)
  · rintro ⟨hrevision, hcontrol, howner, hgroup⟩
    rw [heading, heading, hrevision, hcontrol, howner, hgroup]

theorem startsWith_of_mem_entryLines {index : Nat} {aces : List Ace} :
    ∀ line ∈ Acl.entryLines index aces, startsWith ' ' line = true := by
  induction aces generalizing index with
  | nil => exact List.forall_mem_nil _
  | cons ace aces ih =>
    intro line hline
    rcases List.mem_cons.mp hline with rfl | hrest
    · rw [Ace.line_eq, Ace.bracketed, String.append_assoc, String.append_assoc,
        startsWith_append rfl]
      rfl
    · exact ih line hrest

/-- A list begins with a line that is labelled, and goes on with lines that are indented. -/
theorem listLines_eq_cons (label : String) (acl : Option Acl) :
    ∃ text : String, ∃ entries : List String,
      listLines label acl = (label ++ text) :: entries ∧
        ∀ line ∈ entries, startsWith ' ' line = true := by
  cases acl with
  | none => exact ⟨": none", [], rfl, List.forall_mem_nil _⟩
  | some acl =>
    have hhead := Acl.headLine_eq label acl
    exact ⟨_, Acl.entryLines 0 acl.aces, congrArg (· :: _) hhead, startsWith_of_mem_entryLines⟩

/-- The lines of the second list begin with the one that starts with its letter. -/
theorem lists_inj {sacl dacl sacl' dacl' : Option Acl}
    (h : listLines "sacl" sacl ++ listLines "dacl" dacl =
      listLines "sacl" sacl' ++ listLines "dacl" dacl') :
    listLines "sacl" sacl = listLines "sacl" sacl' ∧
      listLines "dacl" dacl = listLines "dacl" dacl' := by
  -- Entries are indented, so of all lines only the first of the second list begins with a `d`.
  have hfirst (acl : Option Acl) :
      ∀ line ∈ listLines "sacl" acl, (!startsWith 'd' line) = true := by
    obtain ⟨text, entries, heq, hentries⟩ := listLines_eq_cons "sacl" acl
    rw [heq]
    intro line hline
    rcases List.mem_cons.mp hline with rfl | hrest
    · rw [startsWith_append rfl]
      rfl
    · have hblank := hentries line hrest
      simp only [startsWith, beq_iff_eq] at hblank
      simp [startsWith, hblank]
  have hsecond (acl : Option Acl) :
      Text.EndsRun (fun line => !startsWith 'd' line) (listLines "dacl" acl) := by
    obtain ⟨text, entries, heq, -⟩ := listLines_eq_cons "dacl" acl
    rw [heq]
    apply Text.endsRun_cons
    rw [startsWith_append rfl]
    rfl
  exact Text.run_inj (hfirst sacl) (hfirst sacl') (hsecond dacl) (hsecond dacl') h

theorem lines_eq_iff {a b : Descriptor} : a.lines = b.lines ↔ a.SamePrinted b := by
  rw [lines_eq, lines_eq]
  constructor
  · intro h
    obtain ⟨hheading, hlists⟩ := List.append_inj h rfl
    obtain ⟨hrevision, hcontrol, howner, hgroup⟩ := heading_eq_iff.mp hheading
    obtain ⟨hsacl, hdacl⟩ := lists_inj hlists
    exact ⟨hrevision, hcontrol, howner, hgroup, listLines_eq_iff.mp hsacl,
      listLines_eq_iff.mp hdacl⟩
  · intro h
    rw [heading_eq_iff.mpr ⟨h.revision, h.control, h.owner, h.group⟩,
      listLines_eq_iff.mpr h.sacl, listLines_eq_iff.mpr h.dacl]

theorem unbroken_of_mem_lines (d : Descriptor) : ∀ line ∈ d.lines, Unbroken line := by
  have hlist {label : String} (hlabel : Unbroken label) (acl : Option Acl) :
      ∀ line ∈ listLines label acl, Unbroken line := by
    cases acl with
    | none => exact List.forall_mem_singleton.mpr (unbroken_append.mpr ⟨hlabel, by decide⟩)
    | some acl =>
      exact List.forall_mem_cons.mpr
        ⟨Acl.unbroken_headLine hlabel acl, Acl.unbroken_of_mem_entryLines⟩
  have hheading : ∀ line ∈ d.heading, Unbroken line := by
    have hliterals : Unbroken "revision: " ∧ Unbroken "control: " ∧ Unbroken " (" ∧
        Unbroken ")" ∧ Unbroken "owner: " ∧ Unbroken "group: " := by decide
    simp only [heading, List.forall_mem_cons, unbroken_append, hliterals, true_and, and_true]
    exact ⟨(Numeral.word_decimal _).unbroken, ⟨(Numeral.word_markedPadded _ _).unbroken,
      FlagSet.unbroken_text ControlFlag.legible _⟩, unbroken_holderText _, unbroken_holderText _,
      List.forall_mem_nil _⟩
  rw [lines_eq]
  exact List.forall_mem_append.mpr ⟨hheading,
    List.forall_mem_append.mpr ⟨hlist (by decide) _, hlist (by decide) _⟩⟩

/-- One line for a list that is absent; else its head and one line for each entry, numbered from
zero. -/
def rows (label : String) : Option Acl → List String
  | none => [label ++ ": none"]
  | some acl => acl.headLine label :: acl.aces.mapIdx Ace.line

theorem listLines_eq_rows (label : String) (acl : Option Acl) :
    listLines label acl = rows label acl := by
  cases acl with
  | none => rfl
  | some acl =>
    rw [listLines, Option.elim_some, Acl.lines, Acl.entryLines_eq_mapIdx, rows]
    simp only [Nat.zero_add]

end Descriptor

/-- The text of a descriptor falls apart at its line breaks into the four lines of the header and
the rows of both lists, since no line has a line break of its own. Every entry has one row with its
index in brackets. Descriptors have the same text exactly when they agree in what the lines
show. -/
theorem text_lines_faithful :
    (∀ d : Descriptor,
      (textOfLines d.lines).toList.splitOn '\n' =
          (d.heading ++ Descriptor.rows "sacl" d.sacl ++ Descriptor.rows "dacl" d.dacl).map
            String.toList ++ [[]] ∧
        ∀ line ∈ d.lines, '\n' ∉ line.toList) ∧
      (∀ (index : Nat) (ace : Ace),
        ("  [" ++ decimal index ++ "] ").toList <+: (ace.line index).toList) ∧
      ∀ d d' : Descriptor, textOfLines d.lines = textOfLines d'.lines ↔ d.SamePrinted d' := by
  refine ⟨fun d => ⟨?_, d.unbroken_of_mem_lines⟩, fun index ace => ?_, fun d d' => ?_⟩
  · rw [splitOn_textOfLines d.unbroken_of_mem_lines, Descriptor.lines_eq,
      Descriptor.listLines_eq_rows, Descriptor.listLines_eq_rows, List.append_assoc]
  · exact ace.bracketed_prefix_line index
  · constructor
    · intro h
      exact Descriptor.lines_eq_iff.mp
        (textOfLines_inj d.unbroken_of_mem_lines d'.unbroken_of_mem_lines h)
    · intro h
      rw [Descriptor.lines_eq_iff.mpr h]

/-- A list of one entry with these bits for flags. -/
def flagged (raw : BitVec 8) : Descriptor :=
  ⟨1, 0, ⟨0x8004⟩, none, none, none,
    some ⟨.standard, 0, 24, 0, [⟨.accessAllowed, ⟨raw⟩, 1, none, ⟨1, 5, []⟩, none, 16⟩]⟩⟩

/-- A bit without a name is seen in the text. -/
theorem text_lines_faithful_flagged :
    '\n' ∉ ("owner: " ++ "none").toList ∧
      textOfLines (flagged 0x20).lines ≠ textOfLines (flagged 0).lines := by
  obtain ⟨hlines, -, hsame⟩ := text_lines_faithful
  constructor
  · have hmem : (flagged 0).lines[2]? = some ("owner: " ++ "none") := rfl
    exact (hlines (flagged 0)).2 _ (List.mem_of_getElem? hmem)
  · intro htext
    cases ((hsame _ _).mp htext).dacl with
    | some hacl =>
      cases hacl.aces with
      | cons hace _ => exact absurd hace.flags (by decide)

end AccessControl
