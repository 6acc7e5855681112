import AccessControl.Proofs.Json.Readable
import AccessControl.Report.Text

/-!
# Reports in pieces

A report is not written at once. Each line of text is written field by field, entry after entry, and
JSON mark by mark, with the blanks of an indentation and the characters of a string one by one. Put
together, the pieces are the text of the report.
-/

namespace AccessControl

open Numeral (decimal markedPadded)

/-! ## Text -/

namespace Ace

/-- A field that is left out when there is nothing to show. -/
def optionalWrites (name : String) (value : Option (List String)) : List String :=
  value.elim [] fun pieces => " " :: name :: "=" :: pieces

def lineWrites (index : Nat) (ace : Ace) : List String :=
  ["  [", decimal index, "] ", ace.type.name, " flags=", ace.flags.text, " mask=",
      markedPadded 8 ace.mask.toNat, " rights=", ace.rights.text, " trustee=", ace.trustee.text] ++
    optionalWrites "object_type" (ace.objectType.map fun guid => [guid.text]) ++
    optionalWrites "inherited_object_type"
      (ace.inheritedObjectType.map fun guid => [guid.text]) ++
    optionalWrites "application_data"
      (ace.applicationData.map fun data => [decimal data.length, "B"]) ++ ["\n"]

theorem join_optionalWrites {α : Type} (name : String) (value : Option α)
    (pieces : α → List String) :
    String.join (optionalWrites name (value.map pieces)) =
      optionalField name (value.map fun a => String.join (pieces a)) := by
  cases value with
  | none => rfl
  | some a => simp [optionalWrites, optionalField, String.append_assoc]

theorem join_lineWrites (index : Nat) (ace : Ace) :
    String.join (ace.lineWrites index) = ace.line index ++ "\n" := by
  rw [lineWrites, String.join_append, String.join_append, String.join_append, String.join_append,
    join_optionalWrites, join_optionalWrites, join_optionalWrites]
  unfold line
  simp only [String.join_cons, String.join_nil, String.append_empty, String.append_assoc]

end Ace

theorem textOfLines_cons (line : String) (lines : List String) :
    textOfLines (line :: lines) = line ++ ("\n" ++ textOfLines lines) := by
  rw [textOfLines, List.map_cons, String.join_cons, String.append_assoc]
  rfl

theorem textOfLines_append (lines lines' : List String) :
    textOfLines (lines ++ lines') = textOfLines lines ++ textOfLines lines' := by
  rw [textOfLines, List.map_append, String.join_append]
  rfl

namespace Acl

def entryWrites : (index : Nat) → List Ace → List String
  | _, [] => []
  | index, ace :: aces => ace.lineWrites index ++ entryWrites (index + 1) aces

def writes (label : String) (acl : Acl) : List String :=
  [label, ": ", acl.revision.name, " size=", decimal acl.size.toNat, " entries=",
    decimal acl.aces.length, "\n"] ++ entryWrites 0 acl.aces

theorem join_entryWrites (index : Nat) (aces : List Ace) :
    String.join (entryWrites index aces) = textOfLines (entryLines index aces) := by
  induction aces generalizing index with
  | nil => rfl
  | cons ace aces ih =>
    rw [entryWrites, String.join_append, Ace.join_lineWrites, ih, entryLines, textOfLines_cons,
      String.append_assoc]

theorem join_writes (label : String) (acl : Acl) :
    String.join (acl.writes label) = textOfLines (acl.lines label) := by
  rw [writes, String.join_append, join_entryWrites, lines, textOfLines_cons]
  unfold headLine
  simp only [String.join_cons, String.join_nil, String.append_empty, String.append_assoc]

end Acl

namespace Descriptor

def sidWrites (label : String) (sid : Option Sid) : List String :=
  sid.elim [label ++ "none\n"] fun sid => [label, sid.text, "\n"]

def listWrites (label : String) (acl : Option Acl) : List String :=
  acl.elim [label, ": none\n"] (Acl.writes label)

def writes (d : Descriptor) : List String :=
  ["revision: ", decimal d.revision.toNat, "\n", "control: ", markedPadded 4 d.control.raw.toNat,
      " (", d.control.text, ")\n"] ++
    sidWrites "owner: " d.owner ++ sidWrites "group: " d.group ++
    listWrites "sacl" d.sacl ++ listWrites "dacl" d.dacl

theorem join_sidWrites (label : String) (sid : Option Sid) :
    String.join (sidWrites label sid) = label ++ (sid.elim "none" Sid.text ++ "\n") := by
  cases sid with
  | none => simp [sidWrites]
  | some sid => simp [sidWrites]

theorem join_listWrites (label : String) (acl : Option Acl) :
    String.join (listWrites label acl) = textOfLines (listLines label acl) := by
  cases acl with
  | none => simp [listWrites, listLines, textOfLines, String.append_assoc]
  | some acl => exact acl.join_writes label

theorem join_writes (d : Descriptor) : String.join d.writes = textOfLines d.lines := by
  rw [writes, lines, String.join_append, String.join_append, String.join_append,
    String.join_append, join_sidWrites, join_sidWrites, join_listWrites, join_listWrites,
    textOfLines_append, textOfLines_append]
  have hclosing : ")\n" = ")" ++ "\n" := rfl
  have hempty : textOfLines [] = "" := rfl
  simp only [hclosing, hempty, textOfLines_cons, String.join_cons, String.join_nil,
    String.append_empty, String.append_assoc]

end Descriptor

/-! ## JSON -/

namespace Json

def stringWrites (s : String) : List String := "\"" :: (s.toList.map escapedChar ++ ["\""])

/-- A line break, and two blanks for each level. -/
def lineStart (depth : Nat) : List String := "\n" :: List.replicate depth "  "

/-- Items in pieces, each on a line of its own between the brackets. -/
def bracketWrites (depth : Nat) (opening closing : String) : List (List String) → List String
  | [] => [opening, closing]
  | item :: items =>
    opening :: (lineStart (depth + 1) ++ item ++
      items.flatMap (fun item => "," :: (lineStart (depth + 1) ++ item)) ++
      lineStart depth ++ [closing])

mutual

def writes (depth : Nat) : Json → List String
  | null => ["null"]
  | number n => [Numeral.decimal n]
  | string s => stringWrites s
  | array elements => bracketWrites depth "[" "]" (elementWrites (depth + 1) elements)
  | object members => bracketWrites depth "\x7b" "\x7d" (memberWrites (depth + 1) members)

def elementWrites (depth : Nat) : List Json → List (List String)
  | [] => []
  | value :: rest => writes depth value :: elementWrites depth rest

def memberWrites (depth : Nat) : List (String × Json) → List (List String)
  | [] => []
  | (name, value) :: rest =>
    (stringWrites name ++ ": " :: writes depth value) :: memberWrites depth rest

end

theorem join_stringWrites (s : String) : String.join (stringWrites s) = quoted s := by
  simp [stringWrites, quoted, String.append_assoc]

theorem join_lineStart (depth : Nat) : String.join (lineStart depth) = newline depth := by
  have hblanks : (List.replicate depth "  ").flatMap String.toList =
      List.replicate (2 * depth) ' ' := by
    induction depth with
    | zero => rfl
    | succ depth ih =>
      rw [List.replicate_succ, List.flatMap_cons, ih, Nat.mul_succ, List.replicate_succ,
        List.replicate_succ]
      rfl
  rw [← String.toList_inj, toList_newline, lineStart, String.toList_join, List.flatMap_cons,
    hblanks]
  rfl

theorem join_bracketWrites (depth : Nat) (opening closing : Char) (items : List (List String)) :
    String.join (bracketWrites depth (String.singleton opening) (String.singleton closing) items) =
      indented depth (String.singleton opening) (String.singleton closing)
        (items.map String.join) := by
  rw [← String.toList_inj, toList_indented]
  cases items with
  | nil => simp [bracketWrites, bracketed]
  | cons item items =>
    have hstart : ∀ depth, (lineStart depth).flatMap String.toList = (newline depth).toList := by
      intro depth
      rw [← String.toList_join, join_lineStart]
    have hcomma : ",".toList = [','] := rfl
    simp [bracketWrites, bracketed, List.flatMap_assoc, List.flatMap_map, hstart, hcomma]

theorem elementWrites_eq_map (depth : Nat) (elements : List Json) :
    elementWrites depth elements = elements.map (writes depth) := by
  induction elements with
  | nil => rfl
  | cons value rest ih => rw [elementWrites, ih, List.map_cons]

theorem memberWrites_eq_map (depth : Nat) (members : List (String × Json)) :
    memberWrites depth members =
      members.map fun m => stringWrites m.1 ++ ": " :: writes depth m.2 := by
  induction members with
  | nil => rfl
  | cons member rest ih =>
    obtain ⟨name, value⟩ := member
    rw [memberWrites, ih, List.map_cons]

/-- The pieces of a value, at any depth, make up its indented text. -/
theorem join_writes (depth : Nat) (j : Json) : String.join (j.writes depth) = j.pretty depth := by
  induction j using induct generalizing depth with
  | null => simp [writes, pretty]
  | number n => simp [writes, pretty]
  | string s => rw [writes, pretty, join_stringWrites]
  | array elements ih =>
    have hitems : (elementWrites (depth + 1) elements).map String.join =
        prettyElements (depth + 1) elements := by
      rw [elementWrites_eq_map, prettyElements_eq_map, List.map_map]
      exact List.map_congr_left fun value hvalue => ih value hvalue (depth + 1)
    rw [writes, pretty, ← hitems]
    exact join_bracketWrites depth '[' ']' _
  | object members ih =>
    have hitems : (memberWrites (depth + 1) members).map String.join =
        prettyMembers (depth + 1) members := by
      rw [memberWrites_eq_map, prettyMembers_eq_map, List.map_map]
      refine List.map_congr_left fun member hmember => ?_
      rw [Function.comp_apply, String.join_append, join_stringWrites, String.join_cons,
        ih member hmember, String.append_assoc]
    rw [writes, pretty, ← hitems]
    exact join_bracketWrites depth '\x7b' '\x7d' _

end Json

end AccessControl
