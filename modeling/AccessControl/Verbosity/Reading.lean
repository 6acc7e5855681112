import AccessControl.Json.Reading
import AccessControl.Text.Bytes
import AccessControl.Verbosity

/-!
# Reading verbosity

A verbosity is an object whose member `level` names a level, or an array of that level
alone. Members of other names are passed over; a level that is given twice or not at all
is refused.
-/

namespace AccessControl

namespace Level

open Json (ReadError skipBlank readString readMark readWord mismatch)

def ofName? (name : List UInt8) : Option Level := all.find? fun level => Text.utf8 level.name = name

def named (name : List UInt8) : Except ReadError Level :=
  match ofName? name with
  | some level => .ok level
  | none => .error .unexpected

/-- The name of a level as the only member of an object, with nothing for its value. -/
def readMember (bytes : List UInt8) : Except ReadError (Level × List UInt8) :=
  match skipBlank bytes with
  | 0x22 :: rest => do
    let (name, rest) ← readString rest
    let level ← named name
    let rest ← readMark 0x3A rest
    match skipBlank rest with
    | 0x6E :: letters => do
      let rest ← readWord [0x75, 0x6C, 0x6C] letters
      let rest ← readMark 0x7D rest
      return (level, rest)
    | other => .error (mismatch other)
  | [] => .error .endOfText
  | _ => .error .malformed

/-- A level by its name, however that is written. -/
def read (bytes : List UInt8) : Except ReadError (Level × List UInt8) :=
  match skipBlank bytes with
  | [] => .error .endOfText
  | 0x22 :: rest => do
    let (name, rest) ← readString rest
    let level ← named name
    return (level, rest)
  | 0x7B :: rest => readMember rest
  | _ => .error .malformed

theorem length_readMember_le {bytes rest : List UInt8} {level : Level}
    (h : readMember bytes = .ok (level, rest)) : rest.length ≤ bytes.length := by
  have hle := Json.length_skipBlank_le bytes
  unfold readMember at h
  split at h
  · rename_i more hskip
    simp only [bind_eq_ok_iff, Prod.exists] at h
    obtain ⟨name, afterName, hname, found, _, afterColon, hcolon, h⟩ := h
    have hlt := Json.length_readString_lt hname
    have hmark := Json.length_readMark_lt hcolon
    have hblank := Json.length_skipBlank_le afterColon
    split at h
    · rename_i letters hletters
      simp only [bind_eq_ok_iff] at h
      obtain ⟨afterWord, hword, last, hlast, h⟩ := h
      have hword := Json.length_readWord_le hword
      have hlast := Json.length_readMark_lt hlast
      cases h
      simp only [hskip, hletters, List.length_cons] at hle hblank
      omega
    · cases h
  · cases h
  · cases h

theorem length_read_le {bytes rest : List UInt8} {level : Level}
    (h : read bytes = .ok (level, rest)) : rest.length ≤ bytes.length := by
  have hle := Json.length_skipBlank_le bytes
  unfold read at h
  split at h
  · cases h
  · rename_i more hskip
    simp only [bind_eq_ok_iff, Prod.exists] at h
    obtain ⟨name, afterName, hname, found, _, h⟩ := h
    have hlt := Json.length_readString_lt hname
    cases h
    simp only [hskip, List.length_cons] at hle
    omega
  · rename_i more hskip
    have := length_readMember_le h
    simp only [hskip, List.length_cons] at hle
    omega
  · cases h

end Level

namespace Verbosity

open Json (ReadError skipBlank readString readMark skipValue mismatch)

/-- The rest of an array, after its opening bracket. -/
def readElements (bytes : List UInt8) : Except ReadError (Verbosity × List UInt8) :=
  match skipBlank bytes with
  | 0x5D :: _ => .error .unexpected
  | other => do
    let (level, rest) ← Level.read other
    let rest ← readMark 0x5D rest
    return (⟨level⟩, rest)

/-- The value of the member with this name, on top of the level that is already known. -/
def readValue (known : Option Level) (name bytes : List UInt8) :
    Except ReadError (Option Level × List UInt8) :=
  if name = Text.utf8 "level" then
    if known.isSome then .error .unexpected
    else do
      let rest ← readMark 0x3A bytes
      let (level, rest) ← Level.read rest
      return (some level, rest)
  else do
    let rest ← readMark 0x3A bytes
    let rest ← skipValue rest
    return (known, rest)

/-- The name of a member and its value. -/
def readMember (known : Option Level) (bytes : List UInt8) :
    Except ReadError (Option Level × List UInt8) := do
  let rest ← readMark 0x22 bytes
  let (name, rest) ← readString rest
  readValue known name rest

theorem length_readMember_lt {known updated : Option Level} {bytes rest : List UInt8}
    (h : readMember known bytes = .ok (updated, rest)) : rest.length < bytes.length := by
  simp only [readMember, bind_eq_ok_iff, Prod.exists] at h
  obtain ⟨opened, hquote, name, afterName, hname, h⟩ := h
  have hquote := Json.length_readMark_lt hquote
  have hname := Json.length_readString_lt hname
  unfold readValue at h
  split at h
  · split at h
    · cases h
    · simp only [bind_eq_ok_iff, Prod.exists] at h
      obtain ⟨afterColon, hcolon, level, last, hlevel, h⟩ := h
      have hcolon := Json.length_readMark_lt hcolon
      have hlevel := Level.length_read_le hlevel
      cases h
      omega
  · simp only [bind_eq_ok_iff] at h
    obtain ⟨afterColon, hcolon, last, hlast, h⟩ := h
    have hcolon := Json.length_readMark_lt hcolon
    have hlast := Json.length_skip_le hlast
    cases h
    omega

/-- The rest of an object after a member. -/
def readMembers (known : Option Level) (bytes : List UInt8) :
    Except ReadError (Verbosity × List UInt8) :=
  match _hblank : skipBlank bytes with
  | [] => .error .endOfText
  | b :: rest =>
    if b = 0x7D then
      match known with
      | some level => .ok (⟨level⟩, rest)
      | none => .error .unexpected
    else if b = 0x2C then
      match _hmember : readMember known rest with
      | .error e => .error e
      | .ok (updated, more) => readMembers updated more
    else .error .malformed
termination_by bytes.length
decreasing_by
  have hle := Json.length_skipBlank_le bytes
  have hlt := length_readMember_lt _hmember
  simp only [_hblank, List.length_cons] at hle
  omega

/-- The rest of an object after its opening bracket. -/
def readObject (bytes : List UInt8) : Except ReadError (Verbosity × List UInt8) :=
  match skipBlank bytes with
  | 0x7D :: _ => .error .unexpected
  | other => do
    let (known, rest) ← readMember none other
    readMembers known rest

def readFrom (bytes : List UInt8) : Except ReadError (Verbosity × List UInt8) :=
  match skipBlank bytes with
  | 0x5B :: rest => readElements rest
  | 0x7B :: rest => readObject rest
  | other => .error (mismatch other)

/-- Nothing but white space may follow. -/
def ofJson (text : String) : Except ReadError Verbosity := do
  let (verbosity, rest) ← readFrom (Text.utf8 text)
  match skipBlank rest with
  | [] => return verbosity
  | _ => .error .malformed

end Verbosity
end AccessControl
