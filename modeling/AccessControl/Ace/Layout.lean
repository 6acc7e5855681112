import AccessControl.Ace.Basic
import AccessControl.LayoutError

/-!
# Writing entries

A layout says what the bytes of an entry hold. Sizes and object flags follow from the
other fields unless they are given, so that entries can also be written wrong.
-/

namespace AccessControl
namespace Ace

structure Layout where
  /-- Any byte, whether or not it stands for a known type. -/
  typeCode : UInt8
  flags : UInt8 := 0
  mask : UInt32 := 0
  objectFlags : Option UInt32 := none
  /-- Identifiers in the order of the wire. -/
  objectType : Option (List UInt8) := none
  inheritedObjectType : Option (List UInt8) := none
  trustee : List UInt8
  trailing : List UInt8 := []
  declaredSize : Option UInt16 := none
deriving DecidableEq

namespace Layout

def ofTrusteeText (typeCode : UInt8) (text : String) : Except LayoutError Layout :=
  (Sid.wireOfText text).map fun trustee => { typeCode, trustee }

/-- The codes of the types whose entries begin with object flags. -/
def objectCodes : List UInt8 := [5, 6, 7, 8, 11, 12, 15, 16]

/-- Whether entries with this code have object flags. -/
def hasScope (l : Layout) : Bool := objectCodes.contains l.typeCode

/-- A presence bit for each identifier that is given. -/
def impliedFlags (l : Layout) : UInt32 :=
  (if l.objectType.isSome then 1 else 0) + (if l.inheritedObjectType.isSome then 2 else 0)

def scopeBytes (l : Layout) : List UInt8 :=
  if l.hasScope then
    ByteOrder.toLittle 4 (l.objectFlags.getD l.impliedFlags).toNat ++
      l.objectType.getD [] ++ l.inheritedObjectType.getD []
  else []

/-- Everything after the header. -/
def body (l : Layout) : List UInt8 :=
  ByteOrder.toBig 4 l.mask.toNat ++ l.scopeBytes ++ l.trustee ++ l.trailing

def length (l : Layout) : Nat := headerLength + l.body.length

/-- The true length has to fit its field even when another size is declared. -/
def encode (l : Layout) : Except LayoutError (List UInt8) :=
  if l.length < ByteOrder.capacity 2 then
    let size := l.declaredSize.getD (UInt16.ofNat l.length)
    .ok (l.typeCode :: l.flags :: (ByteOrder.toLittle 2 size.toNat ++ l.body))
  else .error .aceTooLong

end Layout

/-- The layout of a decoded entry; `slack` fills the place of data that it does not keep. -/
def layout (ace : Ace) (slack : List UInt8) : Layout :=
  { typeCode := ace.type.code
    flags := UInt8.ofBitVec ace.flags.raw
    mask := ace.mask
    objectFlags := ace.objectFlags.map fun flags => UInt32.ofBitVec flags.raw
    objectType := ace.objectType.map Guid.toWire
    inheritedObjectType := ace.inheritedObjectType.map Guid.toWire
    trustee := ace.trustee.encode
    trailing := ace.applicationData.getD slack }

end Ace
end AccessControl
