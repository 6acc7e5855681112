import AccessControl.ByteOrder
import AccessControl.Extent
import AccessControl.Numeral

/-!
# Security identifiers

A security identifier names a user or group: a revision, a 48-bit identifier authority
and any number of sub-authorities. The wire form has a count byte, the authority with
the most significant byte first and the sub-authorities with it last; the text form
reads `S-1-5-32-544`.
-/

namespace AccessControl

structure Sid where
  revision : UInt8
  authority : BitVec 48
  subAuthorities : List UInt32
deriving DecidableEq

namespace Sid

/-- Revision, count and authority. -/
def headerLength : Nat := 8

def subAuthorityLength : Nat := 4

/-- The most sub-authorities that a text may name. -/
def maxSubAuthorities : Nat := 15

/-- Bits of the authority above the 48th are dropped. -/
def ofParts (revision : UInt8) (authority : Nat) (subAuthorities : List UInt32) : Sid :=
  ⟨revision, BitVec.ofNat 48 authority, subAuthorities⟩

/-- The relative identifier is the last sub-authority. -/
def rid? (sid : Sid) : Option UInt32 := sid.subAuthorities.getLast?

/-- The length of the wire form, as long as the count fits its byte. -/
def encodedLength (sid : Sid) : Nat :=
  headerLength + subAuthorityLength * sid.subAuthorities.length

/-! ## Wire form -/

/-- Too few bytes for the header, or for the sub-authorities that it counts. -/
structure Shortfall where
  needed : Nat
  available : Nat
deriving DecidableEq

def Shortfall.message (e : Shortfall) : String :=
  "SID truncated: expected " ++ Numeral.decimal e.needed ++ " bytes, got " ++
    Numeral.decimal e.available

/-- Words of four bytes, least significant byte first. -/
def readSubAuthorities : (count : Nat) → List UInt8 → List UInt32
  | 0, _ => []
  | count + 1, bytes =>
    UInt32.ofNat (ByteOrder.ofLittle (bytes.take subAuthorityLength)) ::
      readSubAuthorities count (bytes.drop subAuthorityLength)

@[simp] theorem length_readSubAuthorities (count : Nat) (bytes : List UInt8) :
    (readSubAuthorities count bytes).length = count := by
  induction count generalizing bytes with
  | zero => rfl
  | succ count ih => simp [readSubAuthorities, ih]

/-- The number of bytes that a wire form beginning with `bytes` takes up. -/
def announcedLength (bytes : List UInt8) : Nat :=
  headerLength + subAuthorityLength * (bytes.getD 1 0).toNat

/-- Bytes after the last sub-authority are left alone. -/
def decode (bytes : List UInt8) : Except Shortfall Sid :=
  if !reaches headerLength bytes then .error ⟨headerLength, bytes.length⟩
  else if !reaches (announcedLength bytes) bytes then
    .error ⟨announcedLength bytes, bytes.length⟩
  else
    .ok
      { revision := bytes.getD 0 0
        authority := BitVec.ofNat 48 (ByteOrder.ofBig (stretch bytes 2 6))
        subAuthorities :=
          readSubAuthorities (bytes.getD 1 0).toNat (bytes.drop headerLength) }

theorem encodedLength_of_decode {bytes : List UInt8} {sid : Sid} (h : decode bytes = .ok sid) :
    sid.encodedLength = announcedLength bytes := by
  simp only [decode] at h
  split at h
  · cases h
  · split at h
    · cases h
    · cases h
      simp [encodedLength, announcedLength]

theorem encodedLength_le_of_decode {bytes : List UInt8} {sid : Sid}
    (h : decode bytes = .ok sid) : sid.encodedLength ≤ bytes.length := by
  rw [encodedLength_of_decode h]
  simp only [decode] at h
  split at h
  · cases h
  · split at h
    · cases h
    · simp_all

/-- The count is a byte, so sub-authorities from the 256th on are not written. -/
def encode (sid : Sid) : List UInt8 :=
  let written := sid.subAuthorities.take 255
  sid.revision :: UInt8.ofNat written.length ::
    (ByteOrder.toBig 6 sid.authority.toNat ++
      written.flatMap fun sub => ByteOrder.toLittle subAuthorityLength sub.toNat)

/-! ## Text form -/

/-- Authorities that need more than 32 bits are written in hexadecimal. -/
def authorityText (authority : BitVec 48) : String :=
  if ByteOrder.capacity 4 ≤ authority.toNat then Numeral.marked authority.toNat
  else Numeral.decimal authority.toNat

/-- The parts of the text form, without the dashes between them. -/
def components (sid : Sid) : List String :=
  "S" :: Numeral.decimal sid.revision.toNat :: authorityText sid.authority ::
    sid.subAuthorities.map fun sub => Numeral.decimal sub.toNat

def text (sid : Sid) : String := "-".intercalate sid.components

end Sid
end AccessControl
