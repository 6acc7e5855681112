import AccessControl.Ace.Basic
import AccessControl.Acl.Revision
import AccessControl.DecodeError
import AccessControl.Descriptor.Control

/-!
# Decoding events

What a decoder reports on its way: headers, and bytes that no field accounts for, at the
level of debugging; every further step at the level of tracing.
-/

namespace AccessControl

/-- Levels of detail, in increasing order. -/
inductive Level
  | warn
  | info
  | debug
  | trace
deriving DecidableEq

namespace Level

def rank : Level → Nat
  | .warn => 0
  | .info => 1
  | .debug => 2
  | .trace => 3

def name : Level → String
  | .warn => "warn"
  | .info => "info"
  | .debug => "debug"
  | .trace => "trace"

def all : List Level := [.warn, .info, .debug, .trace]

end Level

/-- What is being decoded when an event happens. -/
inductive Target
  | ace
  | acl
  | descriptor
deriving DecidableEq

namespace Target

/-- The common first part of the targets' names. -/
def root : String := "adsec"

def name : Target → String
  | .ace => root ++ "::ace"
  | .acl => root ++ "::acl"
  | .descriptor => root ++ "::sd"

end Target

inductive Event
  | objectFlags (flags : ObjectFlags)
  | applicationData (length : Nat)
  | slack (declared consumed : Nat)
  | aclHeader (revision : AclRevision) (size count : UInt16)
  | aclEntry (index offset : Nat) (ace : Ace)
  | descriptorHeader (revision : UInt8) (control : Control)
  | component (which : Component) (offset : Nat)
deriving DecidableEq

/-- The value of a field of an event. -/
inductive EventValue
  | number (n : Nat)
  | text (s : String)
deriving DecidableEq

namespace Event

def target : Event → Target
  | .objectFlags _ | .applicationData _ | .slack _ _ => .ace
  | .aclHeader _ _ _ | .aclEntry _ _ _ => .acl
  | .descriptorHeader _ _ | .component _ _ => .descriptor

def level : Event → Level
  | .slack _ _ | .aclHeader _ _ _ | .descriptorHeader _ _ => .debug
  | .objectFlags _ | .applicationData _ | .aclEntry _ _ _ | .component _ _ => .trace

def message : Event → String
  | .objectFlags _ => "ace: object flags"
  | .applicationData _ => "ace: application data captured"
  | .slack _ _ => "ace: skipping slack after trustee"
  | .aclHeader _ _ _ => "acl: header decoded"
  | .aclEntry _ _ _ => "acl: entry decoded"
  | .descriptorHeader _ _ => "sd: header decoded"
  | .component _ _ => "sd: decoding component"

def fields : Event → List (String × EventValue)
  | .objectFlags flags => [("object_flags", .number flags.raw.toNat)]
  | .applicationData length => [("length", .number length)]
  | .slack declared consumed => [("declared", .number declared), ("consumed", .number consumed)]
  | .aclHeader revision size count =>
    [("revision", .number revision.value.toNat), ("declared_size", .number size.toNat),
      ("ace_count", .number count.toNat)]
  | .aclEntry index offset ace =>
    [("index", .number index), ("offset", .number offset), ("ace_type", .text ace.type.name),
      ("size", .number ace.size.toNat), ("trustee", .text ace.trustee.text)]
  | .descriptorHeader revision control =>
    [("revision", .number revision.toNat), ("control", .text control.text)]
  | .component which offset => [("component", .text which.name), ("offset", .number offset)]

end Event
end AccessControl
