import AccessControl.Proofs.Checked.Decoders
import AccessControl.Proofs.Failures

/-!
# Bounds

No input makes a decoder look outside its bytes, take a longer length from a shorter one or
outgrow what it reserves for the entries of a list.
-/

namespace AccessControl
namespace Acl

/-- The scan of a list stays between the header and the end of the bytes, moves on with every
entry and holds no more than what is reserved; it ends behind the list or at an entry that is
not decoded. -/
structure Bounded (options : DecodeOptions) (bytes : List UInt8) : Prop where
  inside : ∀ {header : Header} {s : Scan}, Scan.Reached options bytes header s →
    8 ≤ s.offset ∧ s.offset ≤ bytes.length
  chained : ∀ {header : Header} {s : Scan}, Scan.Reached options bytes header s →
    s.offset = endOffset headerLength s.found
  advances : ∀ {header : Header} {s : Scan} {ace : Ace}, Scan.Reached options bytes header s →
    Ace.decode options (bytes.drop s.offset) = .ok ace → s.offset < (s.push ace).offset
  reserved : ∀ {header : Header} {s : Scan}, Scan.Reached options bytes header s →
    s.found.length ≤ min header.count.toNat ((bytes.length - 8) / 16)
  ends : ∀ {header : Header}, readHeader bytes = .ok header →
    (∃ acl, Scan.Reached options bytes header ⟨acl.consumedLength, acl.aces⟩ ∧
        acl.aces.length = header.count.toNat ∧ decode options bytes = checkSize options acl) ∨
      ∃ s e, Scan.Reached options bytes header s ∧ s.found.length < header.count.toNat ∧
        Ace.decode options (bytes.drop s.offset) = .error e ∧
        decode options bytes = .error (.inAce s.found.length s.offset e)
  decoded : ∀ {acl : Acl}, decode options bytes = .ok acl →
    acl.consumedLength ≤ bytes.length ∧ (∀ ace ∈ acl.aces, 16 ≤ ace.size.toNat) ∧
      ∃ header, Scan.Reached options bytes header ⟨acl.consumedLength, acl.aces⟩

theorem bounded (options : DecodeOptions) (bytes : List UInt8) : Bounded options bytes where
  inside := fun hs => ⟨hs.sound.headerLength_le, hs.sound.inside⟩
  chained := fun hs => hs.sound.offset_eq
  advances := fun _ hace => Scan.offset_lt_push _ hace
  reserved := fun hs => hs.sound.length_le_reservation
  ends := exists_reached_of_readHeader
  decoded := by
    intro acl h
    obtain ⟨header, hreached⟩ := exists_reached_of_decode h
    exact ⟨hreached.sound.inside, hreached.sound.long, header, hreached⟩

end Acl

/-- Checked runs meet no fault, so they are the plain runs with the events that are shown; no
trustee is cut off, no entry is shorter than its fixed fields, and lists are scanned within
bounds. -/
theorem decoders_stay_in_bounds (v : Verbosity) (options : DecodeOptions) (bytes : List UInt8) :
    Sid.decodeChecked bytes = .outcome (pure (Sid.decode bytes)) ∧
      Ace.readChecked v options bytes = .outcome ((Ace.read options bytes).shown v) ∧
      Acl.readChecked v options bytes = .outcome ((Acl.read options bytes).shown v) ∧
      Descriptor.readChecked v options bytes =
        .outcome ((Descriptor.read options bytes).shown v) ∧
      (∀ e, Ace.decode options bytes = .error e ∨ Acl.decode options bytes = .error e ∨
        Descriptor.decode options bytes = .error e → ¬ e.CutsTrustee) ∧
      (∀ ace, Ace.decode options bytes = .ok ace → 16 ≤ ace.size.toNat) ∧
      Acl.Bounded options bytes := by
  refine ⟨Sid.decodeChecked_eq bytes, (Ace.readChecked_follows options bytes).eq_outcome,
    (Acl.readChecked_follows options bytes).eq_outcome,
    (Descriptor.readChecked_follows options bytes).eq_outcome, ?_, ?_,
    Acl.bounded options bytes⟩
  · rintro e (h | h | h)
    · exact (Ace.fails_decode options bytes e h).not_cutsTrustee
    · exact (Acl.fails_decode options bytes e h).not_cutsTrustee
    · exact (Descriptor.fails_decode options bytes e h).not_cutsTrustee
  · intro ace h
    exact Ace.minLength_le_of_decode h

end AccessControl
