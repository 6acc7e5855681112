import AccessControl.Sid.Parse
import AccessControl.Text.Quoted

/-!
# Layout errors

Why something cannot be written: a text that names no trustee, or more than a field of
the wire form can count.
-/

namespace AccessControl

inductive LayoutError
  | invalidSid (error : Sid.ParseError)
  | aceTooLong
  | aclTooLong
  | tooManyEntries
  | descriptorTooLong
deriving DecidableEq

namespace LayoutError

def message : LayoutError → String
  | .invalidSid e => "invalid test SID " ++ Text.quoted e.input ++ ": " ++ e.message
  | .aceTooLong => "ACE exceeds 65535 bytes: TryFromIntError(PosOverflow)"
  | .aclTooLong => "ACL exceeds 65535 bytes: TryFromIntError(PosOverflow)"
  | .tooManyEntries => "too many ACEs: TryFromIntError(PosOverflow)"
  | .descriptorTooLong => "descriptor exceeds 4 GiB: TryFromIntError(PosOverflow)"

end LayoutError

/-- The wire form of the identifier that a text names. -/
def Sid.wireOfText (text : String) : Except LayoutError (List UInt8) :=
  match Sid.parse text with
  | .ok sid => .ok sid.encode
  | .error e => .error (.invalidSid e)

end AccessControl
