import AccessControl.DecodeOptions
import AccessControl.Text.Terminal

/-!
# Command line arguments

Arguments are taken from left to right. The value of an option and the input are held
back when they are met, and judged when the next option or input is accepted or the
arguments end; a word that is refused outright comes before what is held back.
-/

namespace AccessControl
namespace Command

def programName : String := "adsec"

/-- The structure that the input holds. -/
inductive StructureKind
  | descriptor
  | acl
  | ace
deriving DecidableEq

namespace StructureKind

def name : StructureKind → String
  | descriptor => "sd"
  | acl => "acl"
  | ace => "ace"

def all : List StructureKind := [descriptor, acl, ace]

def ofName? (text : String) : Option StructureKind := all.find? fun kind => kind.name = text

@[simp] theorem ofName?_name (kind : StructureKind) : ofName? kind.name = some kind := by
  cases kind <;> rfl

end StructureKind

/-- Options that may be given once and have no value. -/
inductive Switch
  | base64
  | json
  | strict
  | checkAclSize
deriving DecidableEq

inductive OptionName
  | kind
  | switch (s : Switch)
  | verbose
  | help
  | version
deriving DecidableEq

namespace OptionName

/-- The name behind two dashes. -/
def long : OptionName → String
  | kind => "kind"
  | switch .base64 => "base64"
  | switch .json => "json"
  | switch .strict => "strict"
  | switch .checkAclSize => "check-acl-size"
  | verbose => "verbose"
  | help => "help"
  | version => "version"

def all : List OptionName :=
  [kind, switch .base64, switch .json, switch .strict, switch .checkAclSize, verbose, help,
    version]

def ofLong? (name : String) : Option OptionName := all.find? fun o => o.long = name

@[simp] theorem ofLong?_long (o : OptionName) : ofLong? o.long = some o := by
  rcases o with _ | ⟨_ | _ | _ | _⟩ | _ | _ | _ <;> rfl

/-- The letter behind one dash. -/
def ofShort? (c : Char) : Option OptionName :=
  if c = 'k' then some kind
  else if c = 'v' then some verbose
  else if c = 'h' then some help
  else if c = 'V' then some version
  else none

/-- The option as error messages show it. -/
def display : OptionName → String
  | kind => "--kind <KIND>"
  | verbose => "--verbose..."
  | o => "--" ++ o.long

end OptionName

inductive UsageError
  | missingInput
  | unexpectedArgument (word : String)
  | unexpectedValue (value : String) (option : OptionName)
  | repeatedOption (option : OptionName)
  | invalidKind (value : String)
  | missingKind
  | emptyInput
deriving DecidableEq

namespace UsageError

/-- The error in words. What the user wrote is shown without control sequences. -/
def description : UsageError → String
  | missingInput => "the following required arguments were not provided:"
  | unexpectedArgument word => "unexpected argument '" ++ Text.visible word ++ "' found"
  | unexpectedValue value option =>
    "unexpected value '" ++ Text.visible value ++ "' for '" ++ option.display ++
      "' found; no more were expected"
  | repeatedOption option =>
    "the argument '" ++ option.display ++ "' cannot be used multiple times"
  | invalidKind value =>
    "invalid value '" ++ Text.visible value ++ "' for '" ++ OptionName.kind.display ++ "'"
  | missingKind =>
    "a value is required for '" ++ OptionName.kind.display ++ "' but none was supplied"
  | emptyInput => "a value is required for '<INPUT>' but none was supplied"

def message (e : UsageError) : String := "error: " ++ e.description

/-- The error lies in what was given as a value, not in how the program was called. -/
def concernsValue : UsageError → Bool
  | invalidKind _ | missingKind | emptyInput => true
  | missingInput | unexpectedArgument _ | unexpectedValue _ _ | repeatedOption _ => false

end UsageError

/-- Why the arguments ask for nothing to be decoded. -/
inductive Stop
  | usage (e : UsageError)
  | help
  | version
deriving DecidableEq

/-- What the arguments ask for. -/
structure Request where
  input : String
  kind : StructureKind
  switches : List Switch
  verbose : Nat
deriving DecidableEq

namespace Request

def has (r : Request) (s : Switch) : Bool := r.switches.contains s

def options (r : Request) : DecodeOptions where
  sizePolicy := if r.has .strict then .strict else .trust
  checkAclSize := r.has .checkAclSize

end Request

/-- A word that is held back. -/
inductive Held
  /-- The option for the kind, whose value may still come. -/
  | kind (value : Option String)
  | input (word : String)
deriving DecidableEq

/-- What the arguments so far have settled. -/
structure Progress where
  input : Option String := none
  kind : Option StructureKind := none
  switches : List Switch := []
  verbose : Nat := 0
  held : Option Held := none
  /-- Whether there was an input, held back or not. -/
  sawInput : Bool := false
  /-- Whether options have been ended by two dashes. -/
  onlyInputs : Bool := false
deriving DecidableEq

namespace Progress

def setKind (p : Progress) (value : String) : Except Stop Progress :=
  if p.kind.isSome then .error (.usage (.repeatedOption .kind))
  else
    match StructureKind.ofName? value with
    | some kind => .ok { p with kind := some kind }
    | none => .error (.usage (if value = "" then .missingKind else .invalidKind value))

/-- Judges what is held back. -/
def settle (p : Progress) : Except Stop Progress :=
  let free := { p with held := none }
  match p.held with
  | none => .ok p
  | some (.kind none) => .error (.usage .missingKind)
  | some (.kind (some value)) => free.setKind value
  | some (.input word) =>
    if word = "" then .error (.usage .emptyInput) else .ok { free with input := some word }

/-- The most that is counted. -/
def maxVerbose : Nat := 255

/-- An option without a value. -/
def accept (p : Progress) : OptionName → Except Stop Progress
  | .kind => .ok { p with held := some (.kind none) }
  | .switch s =>
    if p.switches.contains s then .error (.usage (.repeatedOption (.switch s)))
    else .ok { p with switches := s :: p.switches }
  | .verbose => .ok { p with verbose := min maxVerbose (p.verbose + 1) }
  | .help => .error .help
  | .version => .error .version

def takeLong (p : Progress) (name : String) (value : Option String) : Except Stop Progress :=
  match OptionName.ofLong? name, value with
  | none, _ => .error (.usage (.unexpectedArgument ("--" ++ name)))
  | some .kind, some value => p.settle >>= fun p => p.setKind value
  | some o, some value => .error (.usage (.unexpectedValue value o))
  | some o, none => p.settle >>= fun p => p.accept o

/-- Letters behind one dash. What follows the letter for the kind is its value, with or
without an equals sign. -/
def takeShort (p : Progress) : List Char → Except Stop Progress
  | [] => .ok p
  | c :: rest =>
    match OptionName.ofShort? c, rest with
    | none, _ => .error (.usage (.unexpectedArgument (String.ofList ['-', c])))
    | some .kind, '=' :: value => p.settle >>= fun p => p.setKind (String.ofList value)
    | some .kind, d :: value => p.settle >>= fun p => p.setKind (String.ofList (d :: value))
    | some o, _ => do
      let p ← p.settle
      let p ← p.accept o
      takeShort p rest

def takeInput (p : Progress) (word : String) : Except Stop Progress :=
  if p.sawInput then .error (.usage (.unexpectedArgument word))
  else do
    let p ← p.settle
    return { p with held := some (.input word), sawInput := true }

/-- The name before the first equals sign and the value after it. -/
def splitValue (cs : List Char) : String × Option String :=
  let name := String.ofList (cs.takeWhile (· ≠ '='))
  match cs.dropWhile (· ≠ '=') with
  | [] => (name, none)
  | _ :: value => (name, some (String.ofList value))

/-- A word that is not an option: the awaited value of one, or the input. -/
def takePlain (p : Progress) (word : String) : Except Stop Progress :=
  match p.held with
  | some (.kind none) => .ok { p with held := some (.kind (some word)) }
  | _ => p.takeInput word

def take (p : Progress) (word : String) : Except Stop Progress :=
  if p.onlyInputs then p.takeInput word
  else
    match word.toList with
    | ['-', '-'] => .ok { p with onlyInputs := true }
    | '-' :: '-' :: cs => p.takeLong (splitValue cs).1 (splitValue cs).2
    | '-' :: c :: cs => p.takeShort (c :: cs)
    | _ => p.takePlain word

def finish (p : Progress) : Except Stop Request := do
  let p ← p.settle
  match p.input with
  | none => .error (.usage .missingInput)
  | some input =>
    return { input, kind := p.kind.getD .descriptor, switches := p.switches, verbose := p.verbose }

end Progress

/-- Reads the arguments after the name of the program. -/
def Request.ofArguments (words : List String) : Except Stop Request :=
  words.foldlM Progress.take {} >>= Progress.finish

end Command
end AccessControl
