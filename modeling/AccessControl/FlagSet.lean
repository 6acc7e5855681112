import AccessControl.Numeral

/-!
# Flag sets

A field of bits some of which have names. The raw word is kept whole, so bits without a
name survive; the members of a set are its named bits, in the order in which the names
are declared.
-/

namespace AccessControl

/-- Names for single bits of a word. No two names share a bit. -/
class Flag (F : Type) (width : outParam Nat) where
  all : List F
  position : F → Nat
  name : F → String
  mem_all : ∀ f, f ∈ all
  nodup_positions : (all.map position).Nodup
  position_lt : ∀ f ∈ all, position f < width

/-- A word of bits read through the names of its flags. -/
structure FlagSet (F : Type) {width : Nat} [Flag F width] where
  raw : BitVec width

namespace Flag

variable {F : Type} {width : Nat} [Flag F width]

/-- The word in which only this flag is set. -/
def mask (f : F) : BitVec width := BitVec.twoPow width (position f)

def ofName? (text : String) : Option F := (all : List F).find? fun f => name f = text

/-- Flags in the order of declaration; one that is given twice stays twice. -/
def sort (flags : List F) : List F :=
  (all : List F).flatMap fun f => flags.filter fun g => position g = position f

/-- The name in mixed case: each word of it with a capital and no mark between them. -/
def label (f : F) : String :=
  let word : List Char → List Char
    | [] => []
    | c :: cs => c :: cs.map Char.toLower
  String.ofList (((name f).toList.splitOn '_').flatMap word)

end Flag

namespace FlagSet

variable {F : Type} {width : Nat} [Flag F width]

theorem eq_iff_raw_eq {a b : FlagSet F} : a = b ↔ a.raw = b.raw := by
  cases a
  cases b
  simp

instance : DecidableEq (FlagSet F) := fun _ _ => decidable_of_iff _ eq_iff_raw_eq.symm

def empty : FlagSet F := ⟨0⟩

/-- Every named bit. -/
def known : BitVec width := (Flag.all : List F).foldl (fun bits f => bits ||| Flag.mask f) 0

def insert (s : FlagSet F) (f : F) : FlagSet F := ⟨s.raw ||| Flag.mask f⟩

def singleton (f : F) : FlagSet F := empty.insert f

def ofList (flags : List F) : FlagSet F := flags.foldl insert empty

def contains (s : FlagSet F) (f : F) : Bool := s.raw.getLsbD (Flag.position f)

@[simp] theorem contains_insert (s : FlagSet F) (f g : F) :
    (s.insert f).contains g = (s.contains g || decide (Flag.position f = Flag.position g)) := by
  simp [insert, contains, Flag.mask, BitVec.getLsbD_twoPow, Flag.position_lt f (Flag.mem_all f)]

def members (s : FlagSet F) : List F := Flag.all.filter s.contains

theorem mem_members {s : FlagSet F} {f : F} : f ∈ s.members ↔ s.contains f = true := by
  simp [members, Flag.mem_all]

/-- The number of named bits that are set; bits without a name do not count. -/
def size (s : FlagSet F) : Nat := (s.raw &&& known (F := F)).cpop.toNat

def isEmpty (s : FlagSet F) : Bool := s.raw &&& known (F := F) == 0

/-- The set bits that have no name. -/
def unknown (s : FlagSet F) : BitVec width := s.raw &&& ~~~(known (F := F))

def names (s : FlagSet F) : List String := s.members.map Flag.name

/-- Bits without a name follow the names as one hexadecimal number. -/
def parts (s : FlagSet F) : List String :=
  s.names ++ if s.unknown = 0 then [] else [Numeral.marked s.unknown.toNat]

/-- A dash stands for the word without any bit. -/
def text (s : FlagSet F) : String :=
  if s.parts.isEmpty then "-" else " | ".intercalate s.parts

/-- The members by their mixed-case names, as a set. -/
def labels (s : FlagSet F) : String :=
  "\x7b" ++ ", ".intercalate (s.members.map Flag.label) ++ "\x7d"

end FlagSet
end AccessControl
