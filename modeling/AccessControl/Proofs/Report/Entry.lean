import AccessControl.Proofs.FlagSet
import AccessControl.Proofs.Text.Words
import AccessControl.Report.Text

/-!
# What the line of an entry tells

No line has a line break of its own, so a text falls apart into its lines again. The line of an
entry falls apart at its labels: in front of each of them stands something that cannot hold the
character with which the label begins. The fields at the end are there or not, and are told apart by
their names.
-/

namespace AccessControl

open Numeral (decimal markedPadded)
open Text (Word)

/-! ## Lines -/

theorem toList_textOfLines (lines : List String) :
    (textOfLines lines).toList = lines.flatMap fun line => line.toList ++ ['\n'] := by
  simp [textOfLines, List.flatMap_map]

theorem toList_textOfLines_eq_intercalate (lines : List String) :
    (textOfLines lines).toList = ['\n'].intercalate (lines.map String.toList ++ [[]]) := by
  rw [toList_textOfLines]
  induction lines with
  | nil => rfl
  | cons line lines ih =>
    rw [List.flatMap_cons, ih, List.map_cons, List.cons_append]
    cases lines <;> simp

/-- A line without a line break of its own. -/
def Unbroken (line : String) : Prop := '\n' ∉ line.toList

instance (line : String) : Decidable (Unbroken line) :=
  inferInstanceAs (Decidable ('\n' ∉ line.toList))

/-- Behind the last line break nothing is left. -/
theorem splitOn_textOfLines {lines : List String} (h : ∀ line ∈ lines, Unbroken line) :
    (textOfLines lines).toList.splitOn '\n' = lines.map String.toList ++ [[]] := by
  rw [toList_textOfLines_eq_intercalate]
  apply List.splitOn_intercalate
  · intro part hpart
    rcases List.mem_append.mp hpart with hline | hlast
    · obtain ⟨line, hmem, rfl⟩ := List.mem_map.mp hline
      exact h line hmem
    · rw [List.mem_singleton.mp hlast]
      exact List.not_mem_nil
  · simp

theorem textOfLines_inj {lines lines' : List String} (h : ∀ line ∈ lines, Unbroken line)
    (h' : ∀ line ∈ lines', Unbroken line) (heq : textOfLines lines = textOfLines lines') :
    lines = lines' := by
  have hsplit := splitOn_textOfLines h
  rw [heq, splitOn_textOfLines h'] at hsplit
  have hmap := List.append_cancel_right hsplit
  exact Text.map_toList_inj hmap.symm

@[simp] theorem unbroken_append {a b : String} : Unbroken (a ++ b) ↔ Unbroken a ∧ Unbroken b := by
  simp [Unbroken]

theorem Text.Word.unbroken {text : String} (h : Word text) : Unbroken text := by
  intro hmem
  exact absurd (h _ hmem) (by decide)

theorem FlagSet.unbroken_text {F : Type} {width : Nat} [Flag F width] (h : Flag.Legible F)
    (s : FlagSet F) : Unbroken s.text :=
  not_mem_text h (by decide) (by decide)

/-- A line or a field, told by its first character. -/
def startsWith (first : Char) (text : String) : Bool := text.toList.head? == some first

theorem startsWith_append {label : String} {first : Char} (h : label.toList.head? = some first)
    (rest : String) (c : Char) : startsWith c (label ++ rest) = (first == c) := by
  simp [startsWith, List.head?_append, h]

/-! ## Entries -/

namespace Ace

/-- Agreement in what the line of an entry shows. -/
structure SamePrinted (a b : Ace) : Prop where
  type : a.type = b.type
  flags : a.flags = b.flags
  mask : a.mask = b.mask
  trustee : a.trustee = b.trustee
  objectType : a.objectType = b.objectType
  inheritedObjectType : a.inheritedObjectType = b.inheritedObjectType
  /-- Presence and length of the data. -/
  dataLength : a.applicationData.map List.length = b.applicationData.map List.length

/-! ### Fields behind the trustee -/

/-- A field, if there is something to show in it. -/
def namedField (name : String) (value : Option String) : List String :=
  value.toList.map fun s => name ++ "=" ++ s

theorem toList_optionalField (name : String) (value : Option String) :
    (optionalField name value).toList =
      ((namedField name value).map String.toList).flatMap ([' '] ++ ·) := by
  cases value with
  | none => rfl
  | some s => simp [optionalField, namedField]

theorem startsWith_of_mem_namedField {name field : String} {first : Char} {value : Option String}
    (hname : name.toList.head? = some first) (hfield : field ∈ namedField name value) (c : Char) :
    startsWith c field = (first == c) := by
  obtain ⟨s, -, rfl⟩ := List.mem_map.mp hfield
  rw [String.append_assoc]
  exact startsWith_append hname _ c

theorem namedField_inj {name : String} {value value' : Option String}
    (h : namedField name value = namedField name value') : value = value' := by
  have htoList : value.toList = value'.toList :=
    (List.map_inj_right fun _ _ => (String.append_right_inj _).mp).mp h
  cases value <;> cases value' <;> simp_all

/-- A field that is there or not is found again in front of fields with other names. -/
theorem namedField_append_inj {name : String} {first : Char} {value value' : Option String}
    {r s : List String} (hname : name.toList.head? = some first)
    (hr : ∀ field ∈ r, startsWith first field = false)
    (hs : ∀ field ∈ s, startsWith first field = false)
    (h : namedField name value ++ r = namedField name value' ++ s) : value = value' ∧ r = s := by
  have hrun (value : Option String) :
      ∀ field ∈ namedField name value, startsWith first field = true := by
    intro field hfield
    rw [startsWith_of_mem_namedField hname hfield]
    exact beq_self_eq_true first
  obtain ⟨hfields, hrest⟩ := Text.run_inj (hrun value) (hrun value') (Text.endsRun_of_forall hr)
    (Text.endsRun_of_forall hs) h
  exact ⟨namedField_inj hfields, hrest⟩

def objectTypeField (ace : Ace) : List String :=
  namedField "object_type" (ace.objectType.map Guid.text)

def inheritedObjectTypeField (ace : Ace) : List String :=
  namedField "inherited_object_type" (ace.inheritedObjectType.map Guid.text)

def dataField (ace : Ace) : List String :=
  namedField "application_data" (ace.applicationData.map fun data => decimal data.length ++ "B")

def optionalFields (ace : Ace) : List String :=
  ace.objectTypeField ++ (ace.inheritedObjectTypeField ++ ace.dataField)

/-- The fields are told apart by the first letters of their names. -/
theorem eq_of_optionalFields_eq {a b : Ace} (h : a.optionalFields = b.optionalFields) :
    a.objectType = b.objectType ∧ a.inheritedObjectType = b.inheritedObjectType ∧
      a.applicationData.map List.length = b.applicationData.map List.length := by
  have hdata (ace : Ace) {c : Char} (hc : c ≠ 'a') :
      ∀ field ∈ ace.dataField, startsWith c field = false := by
    intro field hfield
    rw [startsWith_of_mem_namedField rfl hfield]
    exact beq_false_of_ne hc.symm
  have hinherited (ace : Ace) :
      ∀ field ∈ ace.inheritedObjectTypeField ++ ace.dataField, startsWith 'o' field = false := by
    intro field hfield
    rcases List.mem_append.mp hfield with hfield | hfield
    · exact startsWith_of_mem_namedField rfl hfield _
    · exact hdata ace (by decide) field hfield
  obtain ⟨hobject, h⟩ := namedField_append_inj rfl (hinherited a) (hinherited b) h
  obtain ⟨hinherited, h⟩ :=
    namedField_append_inj rfl (hdata a (by decide)) (hdata b (by decide)) h
  have htext : Function.Injective (Option.map Guid.text) :=
    Option.map_injective Guid.text_injective
  refine ⟨htext hobject, htext hinherited, ?_⟩
  have hlength : Function.Injective fun length => decimal length ++ "B" := by
    intro m n hmn
    exact Numeral.decimal_injective ((String.append_left_inj _).mp hmn)
  apply Option.map_injective hlength
  rw [Option.map_map, Option.map_map]
  exact namedField_inj h

theorem word_of_mem_namedField {name field : String} {value : Option String} (hname : Word name)
    (hvalue : ∀ s ∈ value, Word s) (hfield : field ∈ namedField name value) : Word field := by
  obtain ⟨s, hs, rfl⟩ := List.mem_map.mp hfield
  exact (hname.append (by decide)).append (hvalue s (Option.mem_toList.mp hs))

theorem word_of_mem_optionalFields {ace : Ace} {field : String}
    (h : field ∈ ace.optionalFields) : Word field := by
  have hguid (guid : Option Guid) : ∀ s ∈ guid.map Guid.text, Word s := by
    intro s hs
    obtain ⟨guid, -, rfl⟩ := Option.map_eq_some_iff.mp hs
    exact guid.word_text
  rcases List.mem_append.mp h with hobject | hrest
  · exact word_of_mem_namedField (by decide) (hguid _) hobject
  · rcases List.mem_append.mp hrest with hinherited | hdata
    · exact word_of_mem_namedField (by decide) (hguid _) hinherited
    · apply word_of_mem_namedField (by decide) _ hdata
      intro s hs
      obtain ⟨data, -, rfl⟩ := Option.map_eq_some_iff.mp hs
      exact (Numeral.word_decimal _).append (by decide)

/-! ### Whole lines -/

/-- The part of a line before the type. -/
def bracketed (index : Nat) : String := "  [" ++ decimal index ++ "] "

/-- The part of a line from the trustee on. -/
def ending (ace : Ace) : String :=
  ace.trustee.text ++ (optionalField "object_type" (ace.objectType.map Guid.text) ++
    (optionalField "inherited_object_type" (ace.inheritedObjectType.map Guid.text) ++
      optionalField "application_data"
        (ace.applicationData.map fun data => decimal data.length ++ "B")))

theorem line_eq (index : Nat) (ace : Ace) :
    ace.line index = bracketed index ++ (ace.type.name ++ (" flags=" ++ ((ace.flags.text ++ " ") ++
      ("mask=" ++ (markedPadded 8 ace.mask.toNat ++ (" rights=" ++ (ace.rights.text ++
        (" trustee=" ++ ace.ending)))))))) := by
  have hmask (rest : String) : " mask=" ++ rest = " " ++ ("mask=" ++ rest) := by
    rw [← String.append_assoc]
    simp
  unfold line bracketed ending
  simp only [String.append_assoc]
  rw [hmask]

theorem bracketed_prefix_line (index : Nat) (ace : Ace) :
    (bracketed index).toList <+: (ace.line index).toList := by
  rw [line_eq, String.toList_append]
  exact List.prefix_append _ _

theorem toList_ending (ace : Ace) :
    ace.ending.toList =
      [' '].intercalate ((ace.trustee.text :: ace.optionalFields).map String.toList) := by
  rw [List.map_cons, Text.intercalate_cons]
  simp only [ending, String.toList_append, toList_optionalField, optionalFields, List.map_append,
    List.flatMap_append, objectTypeField, inheritedObjectTypeField, dataField]

theorem eq_of_ending_eq {a b : Ace} (h : a.ending = b.ending) :
    a.trustee = b.trustee ∧ a.optionalFields = b.optionalFields := by
  have hwords (ace : Ace) : ∀ word ∈ ace.trustee.text :: ace.optionalFields, Word word :=
    List.forall_mem_cons.mpr ⟨ace.trustee.word_text, fun _ => word_of_mem_optionalFields⟩
  have hlist := congrArg String.toList h
  rw [toList_ending, toList_ending] at hlist
  have hcons := Text.words_inj (hwords a) (hwords b) (List.cons_ne_nil _ _) (List.cons_ne_nil _ _)
    hlist
  rw [List.cons.injEq] at hcons
  exact ⟨Sid.text_injective hcons.1, hcons.2⟩

/-- Names of flags are in capital letters. -/
theorem ne_m_of_mem_flags (ace : Ace) : ∀ c ∈ (ace.flags.text ++ " ").toList, (c != 'm') = true := by
  intro c hc
  have hm : 'm' ∉ ace.flags.text.toList :=
    FlagSet.not_mem_text AceFlag.legible (by decide) (by decide)
  rw [String.toList_append] at hc
  rcases List.mem_append.mp hc with hc | hc
  · exact bne_iff_ne.mpr fun heq => hm (heq ▸ hc)
  · rw [List.mem_singleton.mp hc]
    rfl

theorem line_inj {index : Nat} {a b : Ace} (h : a.line index = b.line index) :
    a.SamePrinted b := by
  rw [line_eq, line_eq] at h
  have hrest := (String.append_right_inj _).mp h
  obtain ⟨hname, hrest⟩ := (AceType.word_name _).inj (AceType.word_name _) rfl hrest
  -- There are blanks between the flags, so what ends them is the first letter of the next label.
  obtain ⟨hset, hrest⟩ :=
    Text.before_label_inj a.ne_m_of_mem_flags b.ne_m_of_mem_flags rfl rfl hrest
  obtain ⟨hmask, hrest⟩ :=
    (Numeral.word_markedPadded _ _).inj (Numeral.word_markedPadded _ _) rfl hrest
  have hmask : a.mask = b.mask := UInt32.toNat_inj.mp (Numeral.markedPadded_injective 8 hmask)
  have hending : a.ending = b.ending := by
    -- The rights are the mask in another form and tell nothing new.
    have hrights : a.rights = b.rights := by rw [rights, rights, hmask]
    rw [hrights] at hrest
    exact (String.append_right_inj _).mp ((String.append_right_inj _).mp hrest)
  obtain ⟨htrustee, hfields⟩ := eq_of_ending_eq hending
  obtain ⟨hobject, hinherited, hdata⟩ := eq_of_optionalFields_eq hfields
  exact ⟨AceType.name_injective hname, FlagSet.text_injective AceFlag.legible
    ((String.append_left_inj _).mp hset), hmask, htrustee, hobject, hinherited, hdata⟩

theorem SamePrinted.line_eq {a b : Ace} (h : a.SamePrinted b) (index : Nat) :
    a.line index = b.line index := by
  have hdata : (a.applicationData.map fun data => decimal data.length ++ "B") =
      b.applicationData.map fun data => decimal data.length ++ "B" := by
    have hlength := congrArg (Option.map fun length => decimal length ++ "B") h.dataLength
    rw [Option.map_map, Option.map_map] at hlength
    exact hlength
  unfold line rights
  rw [h.type, h.flags, h.mask, h.trustee, h.objectType, h.inheritedObjectType, hdata]

theorem unbroken_ending (ace : Ace) : Unbroken ace.ending := by
  have hword : ∀ word ∈ ace.trustee.text :: ace.optionalFields, Unbroken word :=
    List.forall_mem_cons.mpr
      ⟨ace.trustee.word_text.unbroken, fun _ hfield => (word_of_mem_optionalFields hfield).unbroken⟩
  have hall : ∀ c ∈ ace.ending.toList, c ≠ '\n' := by
    rw [toList_ending]
    apply Text.forall_mem_intercalate
    · exact List.forall_mem_singleton.mpr (by decide)
    · intro part hpart c hc hbreak
      obtain ⟨word, hmem, rfl⟩ := List.mem_map.mp hpart
      exact hword word hmem (hbreak ▸ hc)
  intro hmem
  exact hall _ hmem rfl

theorem unbroken_line (index : Nat) (ace : Ace) : Unbroken (ace.line index) := by
  have hliterals : Unbroken "  [" ∧ Unbroken "] " ∧ Unbroken " flags=" ∧ Unbroken " " ∧
      Unbroken "mask=" ∧ Unbroken " rights=" ∧ Unbroken " trustee=" := by decide
  simp only [Ace.line_eq, bracketed, unbroken_append, hliterals, true_and, and_true]
  exact ⟨(Numeral.word_decimal _).unbroken, ace.type.word_name.unbroken,
    FlagSet.unbroken_text AceFlag.legible _, (Numeral.word_markedPadded _ _).unbroken,
    FlagSet.unbroken_text AccessRight.legible _, ace.unbroken_ending⟩

end Ace

end AccessControl
