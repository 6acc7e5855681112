import AccessControl.Acl.Decode
import AccessControl.Base64
import AccessControl.Command.Directory
import AccessControl.Command.Help
import AccessControl.Descriptor.Decode
import AccessControl.Report.Json
import AccessControl.Report.Text

/-!
# Running the program

One run reads an input, decodes the structure that it holds and writes a report. The run
is a function of the arguments and of what surrounds it: the standard input, the files,
how much the standard output takes, and the advice that is given about wrong arguments.
-/

namespace AccessControl
namespace Command

/-! ## Surroundings -/

/-- Bytes to read; the reader fails after them, or they end. -/
structure Stream where
  bytes : List UInt8 := []
  failure : Option String := none

def Stream.readToEnd (s : Stream) : Except String (List UInt8) :=
  match s.failure with
  | none => .ok s.bytes
  | some reason => .error reason

/-- Where output goes: everything is taken, or so many bytes and then nothing more. -/
inductive Sink
  | unlimited
  | limited (room : Nat) (reason : String)

structure Surroundings where
  stdin : Stream := {}
  /-- What reading a path gives. -/
  file : String → Except FileError (List UInt8) := Directory.read {}
  stdout : Sink := .unlimited
  /-- Paragraphs in a usage error: tips, and how much of the usage is shown. What reads the
  arguments chooses them. -/
  advice : List String → UsageError → List String := usualAdvice

inductive ExitCode
  | success
  | usage
  | inputOutput
  | decoding
deriving DecidableEq

def ExitCode.value : ExitCode → UInt8
  | success => 0
  | usage => 1
  | inputOutput => 2
  | decoding => 3

/-- A status as the byte that a process ends with: the nearest one. -/
def exitByte (status : Int) : UInt8 := UInt8.ofNat (min status.toNat 255)

structure Outcome where
  code : ExitCode
  stdout : List UInt8
  stderr : String
deriving DecidableEq

/-! ## Failures -/

inductive Failure
  | read (path reason : String)
  | write (reason : String)
  | base64 (flaw : Base64.Flaw)
  | decode (error : DecodeError)
  | render (reason : String)
deriving DecidableEq

namespace Failure

def message : Failure → String
  | read path reason => "failed to read " ++ path ++ ": " ++ reason
  | write reason => "failed to write output: " ++ reason
  | base64 flaw => "invalid base64 input: " ++ flaw.message
  | decode error => error.message
  | render reason => "failed to render JSON: " ++ reason

def exitCode : Failure → ExitCode
  | read _ _ | write _ | render _ => .inputOutput
  | base64 _ | decode _ => .decoding

end Failure

/-! ## Input -/

/-- The name of the standard input among the paths. -/
def stdinPath : String := "-"

def readInput (around : Surroundings) (path : String) : Except Failure (List UInt8) :=
  if path = stdinPath then around.stdin.readToEnd.mapError (.read path)
  else (around.file path).mapError fun e => .read path e.message

/-- Space, tab, line feed, form feed and carriage return. -/
def isAsciiBlank (b : UInt8) : Bool :=
  b == 0x20 || b == 0x09 || b == 0x0A || b == 0x0C || b == 0x0D

def unwrap (text : List UInt8) : Except Failure (List UInt8) :=
  (Base64.decode (text.filter fun b => !isAsciiBlank b)).mapError .base64

/-! ## Report -/

/-- A decoded structure of any kind. -/
inductive Structure
  | descriptor (d : Descriptor)
  | acl (l : Acl)
  | ace (e : Ace)
deriving DecidableEq

namespace Structure

def decode (kind : StructureKind) (options : DecodeOptions) (bytes : List UInt8) :
    Except DecodeError Structure :=
  match kind with
  | .descriptor => (Descriptor.decode options bytes).map .descriptor
  | .acl => (Acl.decode options bytes).map .acl
  | .ace => (Ace.decode options bytes).map .ace

def toJson : Structure → Json
  | descriptor d => d.toJson
  | acl l => l.toJson
  | ace e => e.toJson

def lines : Structure → List String
  | descriptor d => d.lines
  | acl l => l.lines "acl"
  | ace e => [e.line 0]

end Structure

/-- Text, and what a failure to write it is called. -/
structure Piece where
  text : String
  blame : String → Failure

/-- The line break after JSON counts as output of its own. -/
def report (json : Bool) (s : Structure) : List Piece :=
  if json then [⟨Json.pretty 0 s.toJson, .render⟩, ⟨"\n", .write⟩]
  else [⟨textOfLines s.lines, .write⟩]

/-- What the sink takes of a text, what it takes after that, and whether it failed. -/
def Sink.write (sink : Sink) (bytes : List UInt8) : List UInt8 × Sink × Option String :=
  match sink with
  | unlimited => (bytes, unlimited, none)
  | limited room reason =>
    if bytes.length ≤ room then (bytes, limited (room - bytes.length) reason, none)
    else (bytes.take room, limited 0 reason, some reason)

/-- The first failure ends the report. -/
def deliver (sink : Sink) : List Piece → List UInt8 × Except Failure Unit
  | [] => ([], .ok ())
  | piece :: pieces =>
    match sink.write (Text.utf8 piece.text) with
    | (taken, _, some reason) => (taken, .error (piece.blame reason))
    | (taken, sink, none) =>
      let (more, result) := deliver sink pieces
      (taken ++ more, result)

/-! ## Run -/

def obtain (around : Surroundings) (r : Request) : Except Failure Structure := do
  let raw ← readInput around r.input
  let bytes ← if r.has .base64 then unwrap raw else .ok raw
  (Structure.decode r.kind r.options bytes).mapError .decode

def Outcome.ofFailure (written : List UInt8) (failure : Failure) : Outcome :=
  ⟨failure.exitCode, written, programName ++ ": " ++ failure.message ++ "\n"⟩

def execute (around : Surroundings) (r : Request) : Outcome :=
  match obtain around r with
  | .error failure => .ofFailure [] failure
  | .ok s =>
    match deliver around.stdout (report (r.has .json) s) with
    | (written, .ok ()) => ⟨.success, written, ""⟩
    | (written, .error failure) => .ofFailure written failure

/-- Output that cannot be written does not change how help and version end. -/
def Outcome.ofStop (around : Surroundings) (words : List String) : Stop → Outcome
  | .usage e => ⟨.usage, [], e.text (around.advice words e)⟩
  | .help =>
    let text := helpText (words.headD programName)
    ⟨.success, (around.stdout.write (Text.utf8 text)).1, ""⟩
  | .version => ⟨.success, (around.stdout.write (Text.utf8 versionText)).1, ""⟩

/-- The first word is the name under which the program was started. -/
def run (around : Surroundings) (words : List String) : Outcome :=
  match Request.ofArguments words.tail with
  | .ok r => execute around r
  | .error stop => .ofStop around words stop

end Command
end AccessControl
