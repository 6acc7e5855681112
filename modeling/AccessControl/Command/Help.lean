import AccessControl.Command.Arguments

/-!
# Help, version and usage errors

What the program says about itself, and about arguments that it does not take. The usage line
calls it by the name under which it was started.
-/

namespace AccessControl
namespace Command

def version : String := "0.1.0"

def versionText : String := programName ++ " " ++ version ++ "\n"

/-- The last name in a path, unless that is no proper name. -/
def baseName? (path : String) : Option String :=
  let names := (path.toList.splitOn '/').filter fun name => name ≠ [] ∧ name ≠ ['.']
  (names.getLast?.filter fun name => name ≠ ['.', '.']).map String.ofList

/-- The values of the option for the kind. -/
def possibleKinds : String :=
  "[possible values: " ++ ", ".intercalate (StructureKind.all.map StructureKind.name) ++ "]"

def optionHelp : List String :=
  ["  -k, --kind <KIND>     Structure held by INPUT. [default: sd] " ++ possibleKinds,
    "      --base64          Treat INPUT as base64 text, as found in LDIF exports.",
    "      --json            Print the decoded structure as JSON.",
    "      --strict          Reject ACEs whose declared size disagrees with their content.",
    "      --check-acl-size  Reject ACLs whose entries run past the declared ACL size.",
    "  -v, --verbose...      Increase diagnostic output on standard error (repeatable).",
    "  -h, --help            Print help",
    "  -V, --version         Print version"]

/-- How the program is called, by the last name of the path `startedAs`. -/
def usageLine (startedAs : String) : String :=
  "Usage: " ++ Text.visible ((baseName? startedAs).getD programName) ++ " [OPTIONS] <INPUT>"

/-- The whole of the help. -/
def helpText (startedAs : String) : String :=
  String.join <| List.map (· ++ "\n") <|
    ["Decode an Active Directory security descriptor, ACL or ACE", "",
      usageLine startedAs, "",
      "Arguments:",
      "  <INPUT>  File holding the encoded structure, or '-' for standard input.", "",
      "Options:"] ++ optionHelp

/-! ## Usage errors -/

/-- The values that would do, below an error about one that is missing or wrong. -/
def UsageError.values : UsageError → List String
  | missingInput => ["  <INPUT>"]
  | invalidKind _ | missingKind => ["  " ++ possibleKinds]
  | emptyInput | unexpectedArgument _ | unexpectedValue _ _ | repeatedOption _ => []

/-- The whole of a usage error. Each paragraph of advice stands behind an empty line. -/
def UsageError.text (e : UsageError) (advice : List String) : String :=
  String.join <| List.map (· ++ "\n") <|
    [e.message] ++ e.values ++ advice.flatMap (["", ·]) ++
      ["", "For more information, try '--help'."]

/-- The advice without tips: the usage, unless the error is about a value. -/
def usualAdvice (words : List String) (e : UsageError) : List String :=
  if e.concernsValue then [] else [usageLine (words.headD programName)]

end Command
end AccessControl
