import AccessControl.Numeral
import AccessControl.Sid.Basic

/-!
# Decoding errors

Why bytes are not an entry, a list or a descriptor. An error inside an entry of a list,
or inside a component of a descriptor, carries its place around it; the innermost error
decides how the whole is classified.
-/

namespace AccessControl

/-- The fields that may be cut short. -/
inductive Field
  | aceType
  | aceFlags
  | aceSize
  | aceHeader
  | accessMask
  | objectFlags
  | objectType
  | inheritedObjectType
  | trustee
  | aclRevision
  | aclSbz1
  | aclSize
  | aceCount
  | aclSbz2
  | descriptorRevision
  | descriptorSbz1
  | descriptorControl
  | ownerOffset
  | groupOffset
  | saclOffset
  | daclOffset
deriving DecidableEq

def Field.name : Field → String
  | .aceType => "ACE type"
  | .aceFlags => "ACE flags"
  | .aceSize => "ACE size"
  | .aceHeader => "ACE header"
  | .accessMask => "access mask"
  | .objectFlags => "object flags"
  | .objectType => "object type GUID"
  | .inheritedObjectType => "inherited object type GUID"
  | .trustee => "trustee SID"
  | .aclRevision => "ACL revision"
  | .aclSbz1 => "ACL sbz1"
  | .aclSize => "ACL size"
  | .aceCount => "ACE count"
  | .aclSbz2 => "ACL sbz2"
  | .descriptorRevision => "descriptor revision"
  | .descriptorSbz1 => "descriptor sbz1"
  | .descriptorControl => "descriptor control"
  | .ownerOffset => "owner offset"
  | .groupOffset => "group offset"
  | .saclOffset => "SACL offset"
  | .daclOffset => "DACL offset"

/-- The parts of a descriptor that stand at offsets of their own. -/
inductive Component
  | owner
  | group
  | sacl
  | dacl
deriving DecidableEq

def Component.name : Component → String
  | .owner => "owner SID"
  | .group => "group SID"
  | .sacl => "SACL"
  | .dacl => "DACL"

inductive DecodeError
  | truncated (field : Field) (offset needed available : Nat)
  | sizeOverrun (offset declared available : Nat)
  | sizeMismatch (declared consumed : Nat)
  | aclSizeExceeded (declared consumed : Nat)
  | offsetOutOfBounds (offset available : Nat)
  | sid (offset : Nat) (source : Sid.Shortfall)
  | unknownAceType (code : UInt8)
  | unknownAclRevision (value : UInt8)
  | inAce (index offset : Nat) (source : DecodeError)
  | inDescriptor (component : Component) (source : DecodeError)
deriving DecidableEq

namespace DecodeError

open Numeral (decimal)

def message : DecodeError → String
  | .truncated field offset needed available =>
    field.name ++ " truncated at offset " ++ decimal offset ++ ": expected " ++ decimal needed ++
      " bytes, got " ++ decimal available
  | .sizeOverrun offset declared available =>
    "declared length " ++ decimal declared ++ " at offset " ++ decimal offset ++
      " exceeds the " ++ decimal available ++ " bytes available"
  | .sizeMismatch declared consumed =>
    "declared ACE size " ++ decimal declared ++ " does not match the " ++ decimal consumed ++
      " bytes decoded"
  | .aclSizeExceeded declared consumed =>
    "ACL declares " ++ decimal declared ++ " bytes but its header and entries occupy " ++
      decimal consumed
  | .offsetOutOfBounds offset available =>
    "offset " ++ decimal offset ++ " lies outside the " ++ decimal available ++ "-byte buffer"
  | .sid offset source =>
    "invalid trustee SID at offset " ++ decimal offset ++ ": " ++ source.message
  | .unknownAceType code => "unknown ACE type " ++ decimal code.toNat
  | .unknownAclRevision value => "unknown ACL revision " ++ decimal value.toNat
  | .inAce index offset source =>
    "invalid ACE " ++ decimal index ++ " at offset " ++ decimal offset ++ ": " ++ source.message
  | .inDescriptor component source =>
    "invalid " ++ component.name ++ " in security descriptor: " ++ source.message

/-- The error without the places around it. -/
def rootCause : DecodeError → DecodeError
  | .inAce _ _ source => source.rootCause
  | .inDescriptor _ source => source.rootCause
  | e => e

/-- A byte that stands for nothing known, or bytes that do not fit together. -/
inductive Kind
  | malformedStructure
  | unrecognizedDiscriminant
deriving DecidableEq

def kind : DecodeError → Kind
  | .unknownAceType _ | .unknownAclRevision _ => .unrecognizedDiscriminant
  | .inAce _ _ source => source.kind
  | .inDescriptor _ source => source.kind
  | _ => .malformedStructure

/-- The byte that was not recognized. -/
def unrecognizedValue? : DecodeError → Option UInt8
  | .unknownAceType value | .unknownAclRevision value => some value
  | .inAce _ _ source => source.unrecognizedValue?
  | .inDescriptor _ source => source.unrecognizedValue?
  | _ => none

/-- The message of the error and of every error inside it, outermost first. -/
def chain : DecodeError → List String
  | e@(.sid _ source) => [e.message, source.message]
  | e@(.inAce _ _ source) => e.message :: source.chain
  | e@(.inDescriptor _ source) => e.message :: source.chain
  | e => [e.message]

end DecodeError
end AccessControl
