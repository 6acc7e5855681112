import AccessControl.Descriptor.Basic

/-!
# Structures as lines of text

A descriptor is four lines followed by its two lists; a list is a line followed by one
line for each of its entries, numbered from zero.
-/

namespace AccessControl

open Numeral (decimal markedPadded)

namespace Ace

/-- A field that is left out when there is nothing to show. -/
def optionalField (name : String) (value : Option String) : String :=
  value.elim "" fun s => " " ++ name ++ "=" ++ s

def line (index : Nat) (ace : Ace) : String :=
  "  [" ++ decimal index ++ "] " ++ ace.type.name ++ " flags=" ++ ace.flags.text ++
    " mask=" ++ markedPadded 8 ace.mask.toNat ++ " rights=" ++ ace.rights.text ++
    " trustee=" ++ ace.trustee.text ++
    optionalField "object_type" (ace.objectType.map Guid.text) ++
    optionalField "inherited_object_type" (ace.inheritedObjectType.map Guid.text) ++
    optionalField "application_data"
      (ace.applicationData.map fun data => decimal data.length ++ "B")

end Ace

namespace Acl

def headLine (label : String) (acl : Acl) : String :=
  label ++ ": " ++ acl.revision.name ++ " size=" ++ decimal acl.size.toNat ++
    " entries=" ++ decimal acl.aces.length

/-- Lines for entries of which the first has the given index. -/
def entryLines : (index : Nat) → List Ace → List String
  | _, [] => []
  | index, ace :: aces => ace.line index :: entryLines (index + 1) aces

@[simp] theorem length_entryLines (index : Nat) (aces : List Ace) :
    (entryLines index aces).length = aces.length := by
  induction aces generalizing index with
  | nil => rfl
  | cons ace aces ih => simp [entryLines, ih]

def lines (label : String) (acl : Acl) : List String :=
  acl.headLine label :: entryLines 0 acl.aces

end Acl

namespace Descriptor

def listLines (label : String) (acl : Option Acl) : List String :=
  acl.elim [label ++ ": none"] (Acl.lines label)

def lines (d : Descriptor) : List String :=
  ["revision: " ++ decimal d.revision.toNat,
    "control: " ++ markedPadded 4 d.control.raw.toNat ++ " (" ++ d.control.text ++ ")",
    "owner: " ++ d.owner.elim "none" Sid.text,
    "group: " ++ d.group.elim "none" Sid.text] ++
    listLines "sacl" d.sacl ++ listLines "dacl" d.dacl

end Descriptor

/-- Every line ends in a line break. -/
def textOfLines (lines : List String) : String :=
  String.join (lines.map fun line => line ++ "\n")

end AccessControl
