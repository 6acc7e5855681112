import AccessControl.Cursor
import AccessControl.DecodeOptions
import AccessControl.Traced

/-!
# Decoding entries

An entry announces its size in its header, and every later field is confined to that
extent; bytes after the extent are never looked at, except that the extent has to be
there. What follows the trustee inside the extent is application data for the types that
carry it and slack for the others.
-/

namespace AccessControl
namespace Ace

def readIdentifier (present : Bool) (field : Field) (c : Cursor) :
    Except DecodeError (Option Guid × Cursor) :=
  if present then (c.guid field).map fun (guid, c) => (some guid, c)
  else .ok (none, c)

def readScope (type : AceType) (c : Cursor) : Traced (Option ObjectScope × Cursor) :=
  if type.isObject then do
    let (word, c) ← c.longLittle .objectFlags
    let flags : ObjectFlags := ⟨word.toBitVec⟩
    Traced.record (.objectFlags flags)
    let (objectType, c) ← readIdentifier (flags.contains .objectTypePresent) .objectType c
    let (inherited, c) ←
      readIdentifier (flags.contains .inheritedObjectTypePresent) .inheritedObjectType c
    return (some ⟨flags, objectType, inherited⟩, c)
  else return (none, c)

def readTrustee (c : Cursor) : Except DecodeError (Sid × Cursor) := do
  let trustee ← (Sid.decode c.remaining).mapError (.sid c.position)
  let c ← c.skip trustee.encodedLength .trustee
  return (trustee, c)

/-- What is reported about the bytes after the trustee. -/
def tailEvents (type : AceType) (declared consumed : Nat) : List Event :=
  if type.carriesData then [.applicationData (declared - consumed)]
  else if declared ≠ consumed then [.slack declared consumed]
  else []

/-- A strict policy has no room for slack. -/
def readTail (policy : SizePolicy) (type : AceType) (declared : Nat) (c : Cursor) :
    Traced (Option (List UInt8)) :=
  { events := tailEvents type declared c.position
    result :=
      if type.carriesData then .ok (some c.rest.1)
      else if policy = .strict ∧ c.position ≠ declared then
        .error (.sizeMismatch declared c.position)
      else .ok none }

/-- The fields of the header, in the order in which they are judged. -/
def readHeader (bytes : List UInt8) : Except DecodeError (AceType × AceFlags × UInt16) := do
  let (code, c) ← (Cursor.ofBytes bytes).byte .aceType
  match AceType.ofCode? code with
  | none => .error (.unknownAceType code)
  | some type =>
    let (flags, c) ← c.byte .aceFlags
    let (size, _) ← c.wordLittle .aceSize
    if reaches size.toNat bytes then return (type, ⟨flags.toBitVec⟩, size)
    else .error (.sizeOverrun 0 size.toNat bytes.length)

/-- The fields after the header, in the extent that the header declares. -/
def readBody (policy : SizePolicy) (type : AceType) (flags : AceFlags) (size : UInt16)
    (extent : List UInt8) : Traced Ace := do
  let c ← (Cursor.ofBytes extent).skip headerLength .aceHeader
  let (mask, c) ← c.longBig .accessMask
  let (scope, c) ← readScope type c
  let (trustee, c) ← readTrustee c
  let applicationData ← readTail policy type size.toNat c
  return { type, flags, mask, scope, trustee, applicationData, size }

def read (options : DecodeOptions) (bytes : List UInt8) : Traced Ace := do
  let (type, flags, size) ← readHeader bytes
  readBody options.sizePolicy type flags size (bytes.take size.toNat)

def decode (options : DecodeOptions) (bytes : List UInt8) : Except DecodeError Ace :=
  (read options bytes).result

end Ace
end AccessControl
