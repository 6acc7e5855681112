import AccessControl.Numeral

/-!
# JSON values and their texts

Values of natural numbers, strings, arrays and objects, whose members keep their order.
The compact text has no white space; the indented one puts each element and each member
on a line of its own, two spaces deeper than what holds it.
-/

namespace AccessControl

inductive Json
  | null
  | number (n : Nat)
  | string (s : String)
  | array (elements : List Json)
  | object (members : List (String × Json))

namespace Json

/-- Control characters, quotes and backslashes are escaped, and nothing else is. -/
def escapedChar (c : Char) : String :=
  if c = '\x22' then "\\\""
  else if c = '\\' then "\\\\"
  else if c = '\n' then "\\n"
  else if c = '\r' then "\\r"
  else if c = '\t' then "\\t"
  else if c = '\x08' then "\\b"
  else if c = '\x0c' then "\\f"
  else if c.toNat < 32 then "\\u" ++ Numeral.padded 16 4 c.toNat
  else String.singleton c

def quoted (s : String) : String := "\"" ++ String.join (s.toList.map escapedChar) ++ "\""

/-! ## Compact text -/

mutual

def compact : Json → String
  | null => "null"
  | number n => Numeral.decimal n
  | string s => quoted s
  | array elements => "[" ++ ",".intercalate (compactElements elements) ++ "]"
  | object members => "\x7b" ++ ",".intercalate (compactMembers members) ++ "\x7d"

def compactElements : List Json → List String
  | [] => []
  | value :: rest => compact value :: compactElements rest

def compactMembers : List (String × Json) → List String
  | [] => []
  | (name, value) :: rest => (quoted name ++ ":" ++ compact value) :: compactMembers rest

end

/-! ## Indented text -/

def newline (depth : Nat) : String := "\n" ++ String.ofList (List.replicate (2 * depth) ' ')

/-- Items on lines of their own between brackets; brackets without items stay together. -/
def indented (depth : Nat) (opening closing : String) (items : List String) : String :=
  if items.isEmpty then opening ++ closing
  else
    opening ++ newline (depth + 1) ++ ("," ++ newline (depth + 1)).intercalate items ++
      newline depth ++ closing

mutual

def pretty (depth : Nat) : Json → String
  | null => "null"
  | number n => Numeral.decimal n
  | string s => quoted s
  | array elements => indented depth "[" "]" (prettyElements (depth + 1) elements)
  | object members => indented depth "\x7b" "\x7d" (prettyMembers (depth + 1) members)

def prettyElements (depth : Nat) : List Json → List String
  | [] => []
  | value :: rest => pretty depth value :: prettyElements depth rest

def prettyMembers (depth : Nat) : List (String × Json) → List String
  | [] => []
  | (name, value) :: rest =>
    (quoted name ++ ": " ++ pretty depth value) :: prettyMembers depth rest

end

end Json
end AccessControl
