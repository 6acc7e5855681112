import AccessControl.Proofs.Sid.Text
import AccessControl.Proofs.Text.Parts
import AccessControl.Sid.Parse
import Mathlib.Data.List.Forall2

/-!
# The grammar of identifiers

Which texts name an identifier, and what is wrong with the others. The parts of a text are judged
from left to right, and a part that is wrong is blamed whatever stands behind it.
-/

namespace AccessControl
namespace Sid

open Numeral (Number unsignedBelow?)
open ByteOrder (capacity)

/-! ## Names -/

def Letter (part : List Char) : Prop := part = ['S'] ∨ part = ['s']

/-- Revisions have eight bits. -/
def Revision (part : List Char) (n : Nat) : Prop := Number 10 part n ∧ n < 0x100

/-- An authority is hexadecimal behind its marker, and decimal without it. -/
inductive AuthorityNumber : List Char → Nat → Prop
  | lower {digits : List Char} {n : Nat} (h : Number 16 digits n) :
      AuthorityNumber ('0' :: 'x' :: digits) n
  | upper {digits : List Char} {n : Nat} (h : Number 16 digits n) :
      AuthorityNumber ('0' :: 'X' :: digits) n
  | decimal {digits : List Char} {n : Nat} (h : Number 10 digits n) : AuthorityNumber digits n

/-- Authorities have 48 bits. -/
def Authority (part : List Char) (n : Nat) : Prop :=
  AuthorityNumber part n ∧ n < 0x1000000000000

/-- Sub-authorities have 32 bits. -/
def SubAuthority (part : List Char) (n : Nat) : Prop := Number 10 part n ∧ n < 0x100000000

/-- The letter, a revision, an authority and at most fifteen sub-authorities, with the values that
the identifier has. -/
inductive Names : List (List Char) → Sid → Prop
  | intro {letter revision authority : List Char} {subs : List (List Char)} {sid : Sid}
      (hletter : Letter letter) (hrevision : Revision revision sid.revision.toNat)
      (hauthority : Authority authority sid.authority.toNat)
      (hsubs : List.Forall₂ (fun part sub => SubAuthority part sub.toNat) subs sid.subAuthorities)
      (hfew : subs.length ≤ 15) :
      Names (letter :: revision :: authority :: subs) sid

/-! ## Violations -/

/-- A part that has to be there is not, or is empty. -/
def Missing (parts : List (List Char)) : Prop := parts = [] ∨ parts.head? = some []

/-- Among the sub-authorities one that there is room for is wrong, or they are all good and there
is one more. -/
inductive SubViolates (room : Nat) : List (List Char) → Flaw → Prop
  | wrong {good rest : List (List Char)} {part : List Char}
      (hgood : ∀ sub ∈ good, ∃ n, SubAuthority sub n) (hfew : good.length < room)
      (hwrong : ∀ n, ¬ SubAuthority part n) : SubViolates room (good ++ part :: rest) .invalidNumber
  | tooMany {good rest : List (List Char)} {part : List Char}
      (hgood : ∀ sub ∈ good, ∃ n, SubAuthority sub n) (hfull : good.length = room) :
      SubViolates room (good ++ part :: rest) .tooManySubAuthorities

/-- The first part from the left that stands against a name, with all parts before it in order. -/
inductive Violates : List (List Char) → Flaw → Prop
  | letter {part : List Char} {rest : List (List Char)} (hwrong : ¬ Letter part) :
      Violates (part :: rest) .missingPrefix
  | noRevision {letter : List Char} {rest : List (List Char)} (hletter : Letter letter)
      (hmissing : Missing rest) : Violates (letter :: rest) .missingComponent
  | revision {letter part : List Char} {rest : List (List Char)} (hletter : Letter letter)
      (hsome : part ≠ []) (hwrong : ∀ n, ¬ Revision part n) :
      Violates (letter :: part :: rest) .invalidNumber
  | noAuthority {letter revision : List Char} {rest : List (List Char)} (hletter : Letter letter)
      (hrevision : ∃ n, Revision revision n) (hmissing : Missing rest) :
      Violates (letter :: revision :: rest) .missingComponent
  | authority {letter revision part : List Char} {rest : List (List Char)}
      (hletter : Letter letter) (hrevision : ∃ n, Revision revision n) (hsome : part ≠ [])
      (hwrong : ∀ n, ¬ Authority part n) :
      Violates (letter :: revision :: part :: rest) .invalidNumber
  | subAuthorities {letter revision authority : List Char} {subs : List (List Char)} {flaw : Flaw}
      (hletter : Letter letter) (hrevision : ∃ n, Revision revision n)
      (hauthority : ∃ n, Authority authority n) (hsubs : SubViolates 15 subs flaw) :
      Violates (letter :: revision :: authority :: subs) flaw

/-! ## Reading by the grammar -/

/-- What is read is what the grammar has. -/
def Reads (read? : List Char → Option Nat) (Means : List Char → Nat → Prop) : Prop :=
  ∀ part n, read? part = some n ↔ Means part n

variable {read? : List Char → Option Nat} {Means : List Char → Nat → Prop} {part : List Char}
  {parts rest : List (List Char)} {flaw : Flaw} {sid : Sid}

theorem Reads.eq_none_iff (h : Reads read? Means) : read? part = none ↔ ∀ n, ¬ Means part n := by
  simp only [Option.eq_none_iff_forall_ne_some, ne_eq, h part]

theorem reads_number {base : Nat} (hbase : base ≤ 16) (limit : Nat) :
    Reads (unsignedBelow? base limit) fun part n => Number base part n ∧ n < limit :=
  fun _ _ => Numeral.unsignedBelow?_iff_number hbase

theorem reads_revision : Reads (unsignedBelow? 10 (capacity 1)) Revision :=
  reads_number (by decide) _

theorem reads_subAuthority : Reads (unsignedBelow? 10 (capacity 4)) SubAuthority :=
  reads_number (by decide) _

theorem reads_authority : Reads authority? Authority := by
  have hmarked := @reads_number 16 (by decide) (capacity 6)
  have hplain := @reads_number 10 (by decide) (capacity 6)
  intro part n
  constructor
  · intro h
    unfold authority? at h
    split at h
    · obtain ⟨h, hlimit⟩ := (hmarked _ n).mp h
      exact ⟨.lower h, hlimit⟩
    · obtain ⟨h, hlimit⟩ := (hmarked _ n).mp h
      exact ⟨.upper h, hlimit⟩
    · obtain ⟨h, hlimit⟩ := (hplain _ n).mp h
      exact ⟨.decimal h, hlimit⟩
  · rintro ⟨hnumber, hlimit⟩
    cases hnumber with
    | lower h => exact (hmarked _ n).mpr ⟨h, hlimit⟩
    | upper h => exact (hmarked _ n).mpr ⟨h, hlimit⟩
    | decimal h =>
      have hread := (hplain part n).mpr ⟨h, hlimit⟩
      -- The letter of a marker is no decimal digit.
      unfold authority?
      split
      · cases hread
      · cases hread
      · exact hread

/-! ## Required parts -/

theorem required_of_missing (h : Missing parts) :
    required read? parts = .error .missingComponent := by
  cases parts with
  | nil => rfl
  | cons part rest =>
    obtain rfl : part = [] := by simpa [Missing] using h
    rfl

theorem required_of_ne_nil (hsome : part ≠ []) (rest : List (List Char)) :
    required read? (part :: rest) =
      match read? part with
      | some value => .ok (value, rest)
      | none => .error .invalidNumber := by
  cases part with
  | nil => exact absurd rfl hsome
  | cons c part => rfl

theorem missing_or_cons (parts : List (List Char)) :
    Missing parts ∨ ∃ part rest, parts = part :: rest ∧ part ≠ [] := by
  cases parts with
  | nil => exact .inl (.inl rfl)
  | cons part rest =>
    by_cases hsome : part = []
    · exact .inl (.inr (congrArg some hsome))
    · exact .inr ⟨part, rest, rfl, hsome⟩

namespace Reads

variable (h : Reads read? Means) {value : Nat}
include h

theorem required_good (hsome : part ≠ []) (hmeans : Means part value)
    (rest : List (List Char)) : required read? (part :: rest) = .ok (value, rest) :=
  required_cons hsome ((h part value).mpr hmeans) rest

theorem required_wrong (hsome : part ≠ []) (hwrong : ∀ n, ¬ Means part n)
    (rest : List (List Char)) : required read? (part :: rest) = .error .invalidNumber := by
  rw [required_of_ne_nil hsome, h.eq_none_iff.mpr hwrong]

theorem of_required_eq_ok (hread : required read? parts = .ok (value, rest)) :
    ∃ part, parts = part :: rest ∧ Means part value := by
  rcases missing_or_cons parts with hmissing | ⟨part, rest', rfl, hsome⟩
  · rw [required_of_missing hmissing] at hread
    cases hread
  · rw [required_of_ne_nil hsome] at hread
    split at hread
    · next value' hvalue =>
      cases hread
      exact ⟨part, rfl, (h part value).mp hvalue⟩
    · cases hread

theorem of_required_eq_error (hread : required read? parts = .error flaw) :
    Missing parts ∧ flaw = .missingComponent ∨
      ∃ part rest, parts = part :: rest ∧ part ≠ [] ∧ (∀ n, ¬ Means part n) ∧
        flaw = .invalidNumber := by
  rcases missing_or_cons parts with hmissing | ⟨part, rest, rfl, hsome⟩
  · rw [required_of_missing hmissing] at hread
    cases hread
    exact .inl ⟨hmissing, rfl⟩
  · rw [required_of_ne_nil hsome] at hread
    split at hread
    · cases hread
    · next hnone =>
      cases hread
      exact .inr ⟨part, rest, rfl, hsome, h.eq_none_iff.mp hnone, rfl⟩

end Reads

/-! ## Sub-authorities -/

theorem toNat_ofNat_sub {n : Nat} (h : SubAuthority part n) : (UInt32.ofNat n).toNat = n :=
  UInt32.toNat_ofNat_of_lt' h.2

theorem subNumbers_eq_ok_iff {room : Nat} {subs : List UInt32} :
    subNumbers room parts = .ok subs ↔
      List.Forall₂ (fun part sub => SubAuthority part sub.toNat) parts subs ∧
        parts.length ≤ room := by
  induction parts generalizing room subs with
  | nil =>
    have hread : subNumbers room [] = .ok [] := by cases room <;> rfl
    simp [hread, eq_comm]
  | cons part parts ih =>
    cases room with
    | zero => simp [subNumbers]
    | succ room =>
      rw [subNumbers, List.forall₂_cons_left_iff, List.length_cons, Nat.add_le_add_iff_right]
      constructor
      · intro h
        split at h
        · cases h
        · next n hpart =>
          obtain ⟨subs, hrest, rfl⟩ := map_eq_ok_iff.mp h
          have hpart := (reads_subAuthority part n).mp hpart
          obtain ⟨hsubs, hroom⟩ := ih.mp hrest
          exact ⟨⟨_, subs, by rwa [toNat_ofNat_sub hpart], hsubs, rfl⟩, hroom⟩
      · rintro ⟨⟨sub, subs, hpart, hsubs, rfl⟩, hroom⟩
        rw [(reads_subAuthority part _).mpr hpart]
        simp only [UInt32.ofNat_toNat]
        exact map_eq_ok_iff.mpr ⟨subs, ih.mpr ⟨hsubs, hroom⟩, rfl⟩

/-- Good parts take up room, and the parts behind them are judged in what is left of it. -/
theorem subNumbers_append_of_error {good : List (List Char)} {room : Nat}
    (hgood : ∀ sub ∈ good, ∃ n, SubAuthority sub n) (h : subNumbers room rest = .error flaw) :
    subNumbers (good.length + room) (good ++ rest) = .error flaw := by
  induction good with
  | nil => rwa [List.length_nil, Nat.zero_add, List.nil_append]
  | cons part good ih =>
    rw [List.forall_mem_cons] at hgood
    obtain ⟨⟨n, hpart⟩, hgood⟩ := hgood
    rw [List.length_cons, Nat.add_right_comm, List.cons_append, subNumbers,
      (reads_subAuthority part n).mpr hpart, ih hgood]
    rfl

theorem SubViolates.cons {room : Nat} (hpart : ∃ n, SubAuthority part n)
    (h : SubViolates room parts flaw) : SubViolates (room + 1) (part :: parts) flaw := by
  cases h with
  | wrong hgood hfew hwrong =>
    exact .wrong (List.forall_mem_cons.mpr ⟨hpart, hgood⟩) (Nat.succ_lt_succ hfew) hwrong
  | tooMany hgood hfull =>
    exact .tooMany (List.forall_mem_cons.mpr ⟨hpart, hgood⟩) (congrArg (· + 1) hfull)

theorem subNumbers_eq_error_iff {room : Nat} :
    subNumbers room parts = .error flaw ↔ SubViolates room parts flaw := by
  constructor
  · intro h
    -- On the parts: one that is good leaves the others with less room.
    induction parts generalizing room with
    | nil => cases room <;> cases h
    | cons part parts ih =>
      cases room with
      | zero =>
        cases h
        exact @SubViolates.tooMany 0 [] parts part nofun rfl
      | succ room =>
        rw [subNumbers] at h
        split at h
        · next hnone =>
          cases h
          have hwrong := reads_subAuthority.eq_none_iff.mp hnone
          exact @SubViolates.wrong (room + 1) [] parts part nofun (Nat.succ_pos room) hwrong
        · next n hpart =>
          have hrest := exceptMap_eq_error_iff.mp h
          exact (ih hrest).cons ⟨n, (reads_subAuthority part n).mp hpart⟩
  · intro h
    cases h with
    | @wrong good rest part hgood hfew hwrong =>
      have hroom : room = good.length + (room - good.length - 1 + 1) := by omega
      rw [hroom]
      apply subNumbers_append_of_error hgood
      rw [subNumbers, reads_subAuthority.eq_none_iff.mpr hwrong]
    | @tooMany good rest part hgood hfull =>
      have hnext : subNumbers 0 (part :: rest) = .error .tooManySubAuthorities := rfl
      rw [← hfull]
      exact subNumbers_append_of_error hgood hnext

/-! ## Parts from left to right -/

theorem Revision.ne_nil {n : Nat} (h : Revision part n) : part ≠ [] := h.1.ne_nil

theorem Authority.ne_nil {n : Nat} (h : Authority part n) : part ≠ [] := by
  cases h.1 with
  | lower => exact List.cons_ne_nil _ _
  | upper => exact List.cons_ne_nil _ _
  | decimal h => exact h.ne_nil

section Steps

variable {letter revision authority : List Char} {n m : Nat} {subs : List (List Char)}

theorem ofComponents_of_letter (hletter : Letter letter) (parts : List (List Char)) :
    ofComponents (letter :: parts) = (do
      let (revision, parts) ← required (unsignedBelow? 10 (capacity 1)) parts
      let (authority, parts) ← required authority? parts
      let subs ← subNumbers maxSubAuthorities parts
      return ofParts (UInt8.ofNat revision) authority subs) :=
  if_pos hletter

theorem ofComponents_of_revision (hletter : Letter letter) (hrevision : Revision revision n)
    (parts : List (List Char)) :
    ofComponents (letter :: revision :: parts) = (do
      let (authority, parts) ← required authority? parts
      let subs ← subNumbers maxSubAuthorities parts
      return ofParts (UInt8.ofNat n) authority subs) := by
  rw [ofComponents_of_letter hletter, reads_revision.required_good hrevision.ne_nil hrevision]
  rfl

theorem ofComponents_of_authority (hletter : Letter letter) (hrevision : Revision revision n)
    (hauthority : Authority authority m) (subs : List (List Char)) :
    ofComponents (letter :: revision :: authority :: subs) =
      ofParts (UInt8.ofNat n) m <$> subNumbers maxSubAuthorities subs := by
  rw [ofComponents_of_revision hletter hrevision,
    reads_authority.required_good hauthority.ne_nil hauthority, ok_bind]
  dsimp only
  cases subNumbers maxSubAuthorities subs with
  | error flaw => rfl
  | ok numbers => rfl

/-- Numbers in their limits are the values of the identifier that is made of them. -/
theorem names_ofParts {numbers : List UInt32} (hletter : Letter letter)
    (hrevision : Revision revision n) (hauthority : Authority authority m)
    (hsubs : List.Forall₂ (fun part sub => SubAuthority part sub.toNat) subs numbers)
    (hfew : subs.length ≤ 15) :
    Names (letter :: revision :: authority :: subs) (ofParts (UInt8.ofNat n) m numbers) := by
  have hn : (UInt8.ofNat n).toNat = n := UInt8.toNat_ofNat_of_lt' hrevision.2
  have hm : (BitVec.ofNat 48 m).toNat = m := Nat.mod_eq_of_lt hauthority.2
  refine .intro hletter ?_ ?_ hsubs hfew
  · rwa [ofParts, hn]
  · rwa [ofParts, hm]

end Steps

theorem ofComponents_eq_ok_iff : ofComponents parts = .ok sid ↔ Names parts sid := by
  constructor
  · intro h
    cases parts with
    | nil => cases h
    | cons letter parts =>
      by_cases hletter : Letter letter
      · rw [ofComponents_of_letter hletter] at h
        obtain ⟨⟨n, rest⟩, hn, h⟩ := bind_eq_ok_iff.mp h
        obtain ⟨⟨m, subs⟩, hm, h⟩ := bind_eq_ok_iff.mp h
        obtain ⟨numbers, hnumbers, h⟩ := bind_eq_ok_iff.mp h
        cases h
        obtain ⟨revision, rfl, hrevision⟩ := reads_revision.of_required_eq_ok hn
        obtain ⟨authority, rfl, hauthority⟩ := reads_authority.of_required_eq_ok hm
        obtain ⟨hsubs, hfew⟩ := subNumbers_eq_ok_iff.mp hnumbers
        exact names_ofParts hletter hrevision hauthority hsubs hfew
      · cases h.symm.trans (if_neg hletter)
  · intro h
    cases h with
    | @intro letter revision authority subs _ hletter hrevision hauthority hsubs hfew =>
      have hnumbers : subNumbers maxSubAuthorities subs = .ok sid.subAuthorities :=
        subNumbers_eq_ok_iff.mpr ⟨hsubs, hfew⟩
      rw [ofComponents_of_authority hletter hrevision hauthority, hnumbers]
      exact congrArg Except.ok (ofParts_toNat sid)

theorem violates_of_ofComponents (hsome : parts ≠ []) (h : ofComponents parts = .error flaw) :
    Violates parts flaw := by
  obtain ⟨letter, parts, rfl⟩ := List.exists_cons_of_ne_nil hsome
  by_cases hletter : Letter letter
  · have hread := (ofComponents_of_letter hletter parts).symm.trans h
    rcases bind_eq_error_iff.mp hread with hrequired | ⟨⟨n, rest⟩, hn, -⟩
    · rcases reads_revision.of_required_eq_error hrequired with
        ⟨hmissing, rfl⟩ | ⟨part, rest, rfl, hpart, hwrong, rfl⟩
      · exact .noRevision hletter hmissing
      · exact .revision hletter hpart hwrong
    obtain ⟨revision, rfl, hrevision⟩ := reads_revision.of_required_eq_ok hn
    have hread := (ofComponents_of_revision hletter hrevision rest).symm.trans h
    rcases bind_eq_error_iff.mp hread with hrequired | ⟨⟨m, subs⟩, hm, -⟩
    · rcases reads_authority.of_required_eq_error hrequired with
        ⟨hmissing, rfl⟩ | ⟨part, rest, rfl, hpart, hwrong, rfl⟩
      · exact .noAuthority hletter ⟨n, hrevision⟩ hmissing
      · exact .authority hletter ⟨n, hrevision⟩ hpart hwrong
    obtain ⟨authority, rfl, hauthority⟩ := reads_authority.of_required_eq_ok hm
    have hread := (ofComponents_of_authority hletter hrevision hauthority subs).symm.trans h
    exact .subAuthorities hletter ⟨n, hrevision⟩ ⟨m, hauthority⟩
      (subNumbers_eq_error_iff.mp (exceptMap_eq_error_iff.mp hread))
  · cases h.symm.trans (if_neg hletter)
    exact .letter hletter

theorem Violates.ofComponents_eq (h : Violates parts flaw) :
    ofComponents parts = .error flaw := by
  cases h with
  | letter hwrong => exact if_neg hwrong
  | noRevision hletter hmissing =>
    rw [ofComponents_of_letter hletter, required_of_missing hmissing]
    rfl
  | revision hletter hpart hwrong =>
    rw [ofComponents_of_letter hletter, reads_revision.required_wrong hpart hwrong]
    rfl
  | noAuthority hletter hrevision hmissing =>
    obtain ⟨n, hrevision⟩ := hrevision
    rw [ofComponents_of_revision hletter hrevision, required_of_missing hmissing]
    rfl
  | authority hletter hrevision hpart hwrong =>
    obtain ⟨n, hrevision⟩ := hrevision
    rw [ofComponents_of_revision hletter hrevision, reads_authority.required_wrong hpart hwrong]
    rfl
  | subAuthorities hletter hrevision hauthority hsubs =>
    obtain ⟨n, hrevision⟩ := hrevision
    obtain ⟨m, hauthority⟩ := hauthority
    rw [ofComponents_of_authority hletter hrevision hauthority, maxSubAuthorities,
      subNumbers_eq_error_iff.mpr hsubs]
    rfl

/-! ## Texts -/

/-- A text has exactly one list of parts: those at the dashes, in the white space around it. It is
read as an identifier when its parts name that identifier, and otherwise refused for the first
violation among its parts; the error has the text as it was given. -/
theorem parse_iff_grammar (text : String) :
    ∃ parts, (∀ other, Text.FallsInto '-' text.toList other ↔ other = parts) ∧
      (∀ sid, parse text = .ok sid ↔ Names parts sid) ∧
      ∀ e, parse text = .error e ↔ Violates parts e.flaw ∧ e.input = text := by
  refine ⟨(Text.trim text.toList).splitOn '-', fun other => Text.fallsInto_iff, ?_, ?_⟩
  · intro sid
    rw [parse, mapError_eq_ok_iff, ofComponents_eq_ok_iff]
  · intro e
    rw [parse, mapError_eq_error_iff]
    constructor
    · rintro ⟨flaw, hflaw, rfl⟩
      exact ⟨violates_of_ofComponents (List.splitOn_ne_nil _ _) hflaw, rfl⟩
    · rintro ⟨hviolates, rfl⟩
      exact ⟨e.flaw, hviolates.ofComponents_eq, rfl⟩

end Sid
end AccessControl
