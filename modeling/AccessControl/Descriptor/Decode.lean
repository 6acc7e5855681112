import AccessControl.Acl.Decode
import AccessControl.Descriptor.Basic

/-!
# Decoding descriptors

The header holds an offset for each component; zero means that there is none, and the
lists count only when the control word has their bit. Components may stand in any order,
overlap or share bytes, and each is decoded from its offset on.
-/

namespace AccessControl
namespace Descriptor

structure Header where
  revision : UInt8
  sbz1 : UInt8
  control : Control
  owner : UInt32
  group : UInt32
  sacl : UInt32
  dacl : UInt32
deriving DecidableEq

def readHeader (bytes : List UInt8) : Except DecodeError Header := do
  let (revision, c) ← (Cursor.ofBytes bytes).byte .descriptorRevision
  let (sbz1, c) ← c.byte .descriptorSbz1
  let (control, c) ← c.wordLittle .descriptorControl
  let (owner, c) ← c.longLittle .ownerOffset
  let (group, c) ← c.longLittle .groupOffset
  let (sacl, c) ← c.longLittle .saclOffset
  let (dacl, _) ← c.longLittle .daclOffset
  return { revision, sbz1, control := ⟨control.toBitVec⟩, owner, group, sacl, dacl }

namespace Header

def offset (h : Header) : Component → Nat
  | .owner => h.owner.toNat
  | .group => h.group.toNat
  | .sacl => h.sacl.toNat
  | .dacl => h.dacl.toNat

/-- Whether the control word lets the component count. -/
def admits (h : Header) : Component → Bool
  | .owner | .group => true
  | .sacl => h.control.contains .saclPresent
  | .dacl => h.control.contains .daclPresent

def selects (h : Header) (which : Component) : Bool := h.admits which && h.offset which != 0

end Header

/-- A trustee's error is placed at the offset of the component. -/
def readSid (offset : Nat) (bytes : List UInt8) : Traced Sid :=
  Traced.ofExcept ((Sid.decode bytes).mapError (.sid offset))

/-- Reads a component from its offset on, if the header selects it. -/
def readComponent {α : Type} (h : Header) (bytes : List UInt8) (which : Component)
    (read : List UInt8 → Traced α) : Traced (Option α) :=
  if h.selects which then
    Traced.mapError (.inDescriptor which) <|
      if reaches (h.offset which + 1) bytes then do
        Traced.record (.component which (h.offset which))
        let value ← read (bytes.drop (h.offset which))
        return some value
      else Traced.fail (.offsetOutOfBounds (h.offset which) bytes.length)
  else return none

def read (options : DecodeOptions) (bytes : List UInt8) : Traced Descriptor := do
  let h ← readHeader bytes
  Traced.record (.descriptorHeader h.revision h.control)
  let owner ← readComponent h bytes .owner (readSid (h.offset .owner))
  let group ← readComponent h bytes .group (readSid (h.offset .group))
  let sacl ← readComponent h bytes .sacl (Acl.read options)
  let dacl ← readComponent h bytes .dacl (Acl.read options)
  return { revision := h.revision, sbz1 := h.sbz1, control := h.control, owner, group, sacl, dacl }

def decode (options : DecodeOptions) (bytes : List UInt8) : Except DecodeError Descriptor :=
  (read options bytes).result

end Descriptor
end AccessControl
