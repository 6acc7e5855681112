import AccessControl.Command.Run

/-!
# The program

Reads what the arguments ask for and shows the outcome of the run.
-/

namespace AccessControl
namespace Command

/-- The reading of a directory fails without a name, that of a path through a file with
it. -/
def fileError (path : String) : IO.Error → FileError
  | .noFileOrDirectory .. => .notFound
  | .inappropriateType (some _) .. => .notDirectory
  | .inappropriateType none .. => .isDirectory
  | .invalidArgument .. => if '\x00' ∈ path.toList then .nulInName else .nameTooLong
  | .permissionDenied .. => .permissionDenied
  | e => .other (toString e)

def readStdin : IO Stream := do
  try
    let bytes ← (← IO.getStdin).readBinToEnd
    return { bytes := bytes.data.toList }
  catch e => return { failure := some (toString e) }

def readFile (path : String) : IO (Except FileError (List UInt8)) := do
  try
    let bytes ← IO.FS.readBinFile path
    return .ok bytes.data.toList
  catch e => return .error (fileError path e)

/-- What surrounds the run, as far as the arguments need it. -/
def surroundings (words : List String) : IO Surroundings := do
  match Request.ofArguments words with
  | .error _ => return {}
  | .ok r =>
    if r.input = stdinPath then return { stdin := ← readStdin }
    else
      let content ← readFile r.input
      return { file := fun _ => content }

end Command
end AccessControl

open AccessControl Command in
def main (words : List String) : IO UInt32 := do
  let outcome := run (← surroundings words) (programName :: words)
  let stdout ← IO.getStdout
  stdout.write ⟨outcome.stdout.toArray⟩
  stdout.flush
  (← IO.getStderr).putStr outcome.stderr
  return outcome.code.value.toUInt32
