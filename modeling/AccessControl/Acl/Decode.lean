import AccessControl.Ace.Decode
import AccessControl.Acl.Basic

/-!
# Decoding lists

The count in the header says how many entries follow, and the declared size of each
entry says where the next one stands. The declared size of the list is held against them
only on demand.
-/

namespace AccessControl
namespace Acl

structure Header where
  revision : AclRevision
  sbz1 : UInt8
  size : UInt16
  count : UInt16
  sbz2 : UInt16
deriving DecidableEq

def readHeader (bytes : List UInt8) : Except DecodeError Header := do
  let (value, c) ← (Cursor.ofBytes bytes).byte .aclRevision
  match AclRevision.ofValue? value with
  | none => .error (.unknownAclRevision value)
  | some revision =>
    let (sbz1, c) ← c.byte .aclSbz1
    let (size, c) ← c.wordLittle .aclSize
    let (count, c) ← c.wordLittle .aceCount
    let (sbz2, _) ← c.wordLittle .aclSbz2
    return { revision, sbz1, size, count, sbz2 }

/-- `count` entries, of which the first has this index and stands at this offset, where
`bytes` begins. -/
def readEntries (options : DecodeOptions) :
    (count index offset : Nat) → (bytes : List UInt8) → Traced (List Ace)
  | 0, _, _, _ => return []
  | count + 1, index, offset, bytes => do
    let ace ← (Ace.read options bytes).mapError (.inAce index offset)
    Traced.record (.aclEntry index offset ace)
    (ace :: ·) <$> readEntries options count (index + 1) (offset + ace.size.toNat)
      (bytes.drop ace.size.toNat)

/-- Entries beyond the declared size are refused when the options say so. -/
def checkSize (options : DecodeOptions) (acl : Acl) : Except DecodeError Acl :=
  if options.checkAclSize ∧ acl.size.toNat < acl.consumedLength then
    .error (.aclSizeExceeded acl.size.toNat acl.consumedLength)
  else .ok acl

def read (options : DecodeOptions) (bytes : List UInt8) : Traced Acl := do
  let header ← readHeader bytes
  Traced.record (.aclHeader header.revision header.size header.count)
  let aces ←
    readEntries options header.count.toNat 0 headerLength (bytes.drop headerLength)
  checkSize options
    { revision := header.revision, sbz1 := header.sbz1, size := header.size
      sbz2 := header.sbz2, aces }

def decode (options : DecodeOptions) (bytes : List UInt8) : Except DecodeError Acl :=
  (read options bytes).result

end Acl
end AccessControl
