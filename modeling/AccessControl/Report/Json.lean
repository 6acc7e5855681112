import AccessControl.Descriptor.Basic
import AccessControl.Json.Basic
import AccessControl.Verbosity

/-!
# Structures as JSON

Flags appear by their names, identifiers by their texts and application data in
hexadecimal. Entries leave out what they do not have; descriptors say `null`.
-/

namespace AccessControl

def Sid.toJson (sid : Sid) : Json := .string sid.text

def Guid.toJson (guid : Guid) : Json := .string guid.text

def FlagSet.toJson {F : Type} {width : Nat} [Flag F width] (s : FlagSet F) : Json :=
  .array (s.names.map Json.string)

def AceType.toJson (t : AceType) : Json := .string t.name

def AclRevision.toJson (r : AclRevision) : Json := .string r.name

/-- A member that is left out when there is nothing to show. -/
def Json.optionalMember {α : Type} (name : String) (value : Option α) (toJson : α → Json) :
    List (String × Json) :=
  value.toList.map fun a => (name, toJson a)

def Ace.toJson (ace : Ace) : Json :=
  .object <|
    [("type", ace.type.toJson), ("flags", ace.flags.toJson), ("mask", .number ace.mask.toNat)] ++
      Json.optionalMember "object_flags" ace.objectFlags FlagSet.toJson ++
      Json.optionalMember "object_type" ace.objectType Guid.toJson ++
      Json.optionalMember "inherited_object_type" ace.inheritedObjectType Guid.toJson ++
      [("trustee", ace.trustee.toJson)] ++
      Json.optionalMember "application_data" ace.applicationData (.string ∘ Hex.text) ++
      [("size", .number ace.size.toNat)]

def Acl.toJson (acl : Acl) : Json :=
  .object
    [("revision", acl.revision.toJson), ("sbz1", .number acl.sbz1.toNat),
      ("size", .number acl.size.toNat), ("sbz2", .number acl.sbz2.toNat),
      ("aces", .array (acl.aces.map Ace.toJson))]

def Descriptor.toJson (d : Descriptor) : Json :=
  .object
    [("revision", .number d.revision.toNat), ("sbz1", .number d.sbz1.toNat),
      ("control", d.control.toJson), ("owner", d.owner.elim .null Sid.toJson),
      ("group", d.group.elim .null Sid.toJson), ("sacl", d.sacl.elim .null Acl.toJson),
      ("dacl", d.dacl.elim .null Acl.toJson)]

def Verbosity.toJson (v : Verbosity) : Json := .object [("level", .string v.level.name)]

end AccessControl
