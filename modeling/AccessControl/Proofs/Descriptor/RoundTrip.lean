import AccessControl.Descriptor.Layout
import AccessControl.Proofs.Descriptor.Reading
import Mathlib.Data.List.Forall2

/-!
# Descriptors that were laid out

A descriptor laid out from identifiers and lists that can be decoded is decoded to them,
whatever follows. Every component but the last is followed by further components, which its
decoder leaves alone.
-/

namespace AccessControl
namespace Descriptor

/-- What a text names is read from its wire form. -/
theorem exists_parsed {text : Option String} {component : Option (List UInt8)}
    (h : Option.Rel (fun text bytes => Sid.wireOfText text = .ok bytes) text component) :
    ∃ sid, Option.Rel (fun text sid => Sid.parse text = .ok sid) text sid ∧
      ∀ offset, Option.Rel (Yields (readSid offset)) component sid := by
  cases h with
  | none => exact ⟨none, .none, fun _ => .none⟩
  | @some text component h =>
    cases hparse : Sid.parse text with
    | error e => simp [Sid.wireOfText, hparse] at h
    | ok sid =>
      have hcomponent : sid.encode = component := by simpa [Sid.wireOfText, hparse] using h
      have hsubs := Sid.length_subAuthorities_le_of_parse hparse
      have hcountable : sid.Countable := Nat.le_trans hsubs (by decide)
      refine ⟨some sid, .some hparse, fun offset => .some ⟨?_, ?_⟩⟩
      · rw [← hcomponent, Sid.encode]
        exact List.cons_ne_nil _ _
      · intro rest
        rw [← hcomponent, readSid, Traced.result_ofExcept, Sid.decode_encode_append hcountable]
        rfl

theorem yields_acl {options : DecodeOptions} {component : Option (List UInt8)} {acl : Option Acl}
    (h : Option.Rel (fun bytes acl => Acl.decode options bytes = .ok acl) component acl) :
    Option.Rel (Yields (Acl.read options)) component acl := by
  cases h with
  | none => exact .none
  | some h =>
    obtain ⟨header, -, hheader, -⟩ := Acl.decode_eq_ok_iff.mp h
    obtain ⟨rest, rfl⟩ := Acl.readHeader_eq_ok_iff.mp hheader
    exact .some ⟨List.cons_ne_nil _ _, Acl.decode_append h⟩

namespace Layout

@[simp] theorem length_offsets (start : Nat) (components : List (Option (List UInt8))) :
    (offsets start components).length = components.length := by
  induction components generalizing start with
  | nil => rfl
  | cons component components ih => cases component <;> simp [offsets, ih]

/-- Components that follow each other behind a header stand at their offsets. -/
theorem placed_offsets {front : List UInt8} (hfront : 0 < front.length)
    (components : List (Option (List UInt8))) (rest : List UInt8) :
    List.Forall₂ (Placed (front ++ (components.flatMap (fun c => c.getD []) ++ rest)))
      (offsets front.length components) components := by
  induction components generalizing front with
  | nil => exact .nil
  | cons component components ih =>
    cases component with
    | none => exact .cons rfl (ih hfront)
    | some bytes =>
      have hlonger : 0 < (front ++ bytes).length := by
        rw [List.length_append]
        omega
      have htail := ih hlonger
      rw [List.append_assoc, List.length_append] at htail
      rw [List.flatMap_cons, Option.getD_some, List.append_assoc]
      refine .cons ⟨hfront, components.flatMap (fun c => c.getD []) ++ rest, ?_⟩ htail
      exact List.drop_left

/-- The texts name the identifiers and the bytes are the lists that are laid out. -/
structure Coherent (options : DecodeOptions) (l : Layout) (ownerText groupText : Option String)
    (sacl dacl : Option Acl) : Prop where
  owner_eq : Option.Rel (fun text bytes => Sid.wireOfText text = .ok bytes) ownerText l.owner
  group_eq : Option.Rel (fun text bytes => Sid.wireOfText text = .ok bytes) groupText l.group
  sacl_eq : Option.Rel (fun bytes acl => Acl.decode options bytes = .ok acl) l.sacl sacl
  dacl_eq : Option.Rel (fun bytes acl => Acl.decode options bytes = .ok acl) l.dacl dacl

/-- The control word that is given, or else self-relative with the bits of the lists that are
there. -/
def writtenControl (l : Layout) : UInt16 :=
  l.control.getD
    (0x8000 + (if l.sacl.isSome then 0x10 else 0) + (if l.dacl.isSome then 0x4 else 0))

/-- The descriptor that is laid out: a list counts when the control word has its bit. -/
def descriptor (l : Layout) (owner group : Option Sid) (sacl dacl : Option Acl) : Descriptor where
  revision := l.revision
  sbz1 := 0
  control := ⟨l.writtenControl.toBitVec⟩
  owner
  group
  sacl := if l.writtenControl.toNat.testBit 4 then sacl else none
  dacl := if l.writtenControl.toNat.testBit 2 then dacl else none

variable {l : Layout} {options : DecodeOptions} {bytes : List UInt8}

theorem controlWord_eq (l : Layout) : l.controlWord = l.writtenControl := by
  have hbits : ∀ sacl dacl : Bool,
      UInt16.ofBitVec (FlagSet.ofList (ControlFlag.selfRelative ::
        ((if sacl then [ControlFlag.saclPresent] else []) ++
          (if dacl then [ControlFlag.daclPresent] else [])))).raw =
        0x8000 + (if sacl then 0x10 else 0) + (if dacl then 0x4 else 0) := by
    decide
  rw [controlWord, impliedControl, hbits, writtenControl]

/-- What is written begins with a header whose offsets are those of the components. -/
theorem exists_header_of_encode (h : l.encode = .ok bytes) :
    ∃ header : Header, header.revision = l.revision ∧ header.sbz1 = 0 ∧
      header.control = ⟨l.writtenControl.toBitVec⟩ ∧
      offsets headerLength l.components =
        [.owner, .group, .sacl, .dacl].map header.offset ∧
      bytes = header.encode ++ l.components.flatMap fun c => c.getD [] := by
  obtain ⟨a, b, c, d, hplaces⟩ : ∃ a b c d, offsets headerLength l.components = [a, b, c, d] := by
    have hlength : (offsets headerLength l.components).length = 4 := length_offsets _ _
    match offsets headerLength l.components, hlength with
    | [a, b, c, d], _ => exact ⟨a, b, c, d, rfl⟩
  simp only [encode, hplaces, List.all_cons, List.all_nil, Bool.and_true, Bool.and_eq_true,
    decide_eq_true_eq] at h
  split at h
  · next hfits =>
    obtain ⟨ha, hb, hc, hd⟩ := hfits
    have hoffset : ∀ {n : Nat}, n < ByteOrder.capacity 4 → (UInt32.ofNat n).toNat = n :=
      fun hn => UInt32.toNat_ofNat_of_lt' hn
    refine ⟨⟨l.revision, 0, ⟨l.writtenControl.toBitVec⟩, .ofNat a, .ofNat b, .ofNat c, .ofNat d⟩,
      rfl, rfl, rfl, ?_, ?_⟩
    · simp [hplaces, Header.offset, hoffset ha, hoffset hb, hoffset hc, hoffset hd]
    · cases h
      simp [Header.encode, controlWord_eq, hoffset ha, hoffset hb, hoffset hc, hoffset hd]
  · cases h

/-- Each of the sixteen choices of components comes back, as far as the control word admits. -/
theorem decode_encoded_descriptor {ownerText groupText : Option String} {sacl dacl : Option Acl}
    (h : l.Coherent options ownerText groupText sacl dacl) (hencode : l.encode = .ok bytes) :
    ∃ owner group, Option.Rel (fun text sid => Sid.parse text = .ok sid) ownerText owner ∧
      Option.Rel (fun text sid => Sid.parse text = .ok sid) groupText group ∧
      ∀ suffix : List UInt8,
        decode options (bytes ++ suffix) = .ok (l.descriptor owner group sacl dacl) := by
  obtain ⟨owner, howner, hreadOwner⟩ := exists_parsed h.owner_eq
  obtain ⟨group, hgroup, hreadGroup⟩ := exists_parsed h.group_eq
  obtain ⟨header, hrevision, hsbz1, hcontrol, hoffsets, hbytes⟩ := exists_header_of_encode hencode
  refine ⟨owner, group, howner, hgroup, ?_⟩
  intro suffix
  have hplaced : List.Forall₂ (Placed (bytes ++ suffix))
      ([.owner, .group, .sacl, .dacl].map header.offset) l.components := by
    have hfront : 0 < header.encode.length := by
      rw [Header.length_encode]
      decide
    have hplaced := placed_offsets hfront l.components suffix
    rw [Header.length_encode, hoffsets, ← List.append_assoc, ← hbytes] at hplaced
    exact hplaced
  simp only [components, List.map_cons, List.map_nil, List.forall₂_cons] at hplaced
  obtain ⟨hownerPlaced, hgroupPlaced, hsaclPlaced, hdaclPlaced, -⟩ := hplaced
  have hheader : readHeader (bytes ++ suffix) = .ok header := by
    rw [hbytes, List.append_assoc]
    exact readHeader_encode_append header _
  simp only [decode, read, Traced.result_bind, Traced.result_liftM, Traced.result_record, hheader,
    ok_bind, result_readComponent hownerPlaced (hreadOwner _),
    result_readComponent hgroupPlaced (hreadGroup _),
    result_readComponent hsaclPlaced (yields_acl h.sacl_eq),
    result_readComponent hdaclPlaced (yields_acl h.dacl_eq), Traced.result_pure]
  simp only [Header.admits, hcontrol, hrevision, hsbz1, descriptor]
  rfl

/-- An owner, and an empty list for access whose presence bit is derived. -/
def ownedAndOpen : Layout where
  owner := some [1, 0, 0, 0, 0, 0, 0, 5]
  dacl := some [2, 0, 8, 0, 0, 0, 0, 0]

theorem decode_encoded_ownedAndOpen :
    ownedAndOpen.Coherent {} (some "S-1-5") none none (some ⟨.standard, 0, 8, 0, []⟩) ∧
      ∃ owner group bytes, ownedAndOpen.encode = .ok bytes ∧
        decode {} (bytes ++ [0xFF]) =
          .ok (ownedAndOpen.descriptor owner group none (some ⟨.standard, 0, 8, 0, []⟩)) := by
  have h : ownedAndOpen.Coherent {} (some "S-1-5") none none
      (some ⟨.standard, 0, 8, 0, []⟩) :=
    ⟨.some rfl, .none, .none, .some rfl⟩
  obtain ⟨bytes, hencode⟩ : ∃ bytes, ownedAndOpen.encode = .ok bytes := ⟨_, rfl⟩
  obtain ⟨owner, group, -, -, hdecode⟩ := decode_encoded_descriptor h hencode
  exact ⟨h, owner, group, bytes, hencode, hdecode [0xFF]⟩

end Layout
end Descriptor
end AccessControl
