/-!
# Text on a terminal

Messages that repeat words of the user are shown without the control characters, the
control sequences and the control strings in those words. Line breaks, tabs and form
feeds stay. What a word has begun ends with the word.
-/

namespace AccessControl
namespace Text

/-- Where in a control sequence or control string a character stands. -/
inductive TerminalMode
  | plain
  | escape
  /-- Behind an escape and a first character that does not end it. -/
  | intermediate
  | sequence
  /-- In the text of an operating system command. -/
  | command
  /-- At the start of a device control string, before its text. -/
  | device
  | deviceParameters
  | deviceIntermediate
  | string
deriving DecidableEq

namespace TerminalMode

def isKept (c : Char) : Bool := c = '\t' || c = '\n' || c = '\x0c' || c = '\r'

def isControl (c : Char) : Bool := c.toNat < 0x20 || c.toNat = 0x7F

def escapeSign : Char := '\x1b'

/-- The two characters that end whatever has begun. -/
def isCancel (c : Char) : Bool := c = '\x18' || c = '\x1a'

/-- Whether the code point lies between the two bounds, both included. -/
def within (low high : Nat) (c : Char) : Bool := low ≤ c.toNat && c.toNat ≤ high

/-- The 8-bit string terminator, anywhere among the bytes of the character. -/
def hasTerminator (c : Char) : Bool := (String.utf8EncodeChar c).contains 0x9C

/-- The mode behind the first character after an escape. -/
def afterEscape (c : Char) : TerminalMode :=
  if within 0x20 0x2F c then intermediate
  else if c = '[' then sequence
  else if c = ']' then command
  else if c = 'P' then device
  else if c = 'X' ∨ c = '^' ∨ c = '_' then string
  else if within 0x30 0x7E c then plain
  else escape

/-- The mode behind a character before the text of a device control string. -/
def afterDevice (mode : TerminalMode) (c : Char) : TerminalMode :=
  if within 0x20 0x2F c then deviceIntermediate
  else if within 0x40 0x7E c then string
  else if within 0x30 0x3F c then
    if mode = device ∨ mode = deviceParameters ∧ within 0x30 0x3B c then deviceParameters
    else string
  else mode

/-- The mode after a character, and whether the character is shown. -/
def step (mode : TerminalMode) (c : Char) : TerminalMode × Bool :=
  if c = escapeSign then (escape, false)
  else if isCancel c then (plain, false)
  else
    match mode with
    | plain => (plain, isKept c || !isControl c)
    | escape => if isKept c then (plain, true) else (afterEscape c, false)
    | intermediate =>
      if isKept c then (plain, true)
      else (if within 0x30 0x7E c then plain else intermediate, false)
    | sequence =>
      if isKept c then (plain, true)
      else (if within 0x40 0x7E c then plain else sequence, false)
    | command => (if c = '\x07' then plain else command, false)
    | device | deviceParameters | deviceIntermediate => (afterDevice mode c, false)
    | string => (if hasTerminator c then plain else string, false)

end TerminalMode

def visibleFrom (mode : TerminalMode) : List Char → List Char
  | [] => []
  | c :: cs =>
    let (next, shown) := mode.step c
    if shown then c :: visibleFrom next cs else visibleFrom next cs

def visible (text : String) : String := String.ofList (visibleFrom .plain text.toList)

theorem visibleFrom_eq_self {cs : List Char} (h : ∀ c ∈ cs, 32 ≤ c.toNat ∧ c.toNat ≠ 127) :
    visibleFrom .plain cs = cs := by
  induction cs with
  | nil => rfl
  | cons c cs ih =>
    have hc := h c (by simp)
    have hne : c ≠ TerminalMode.escapeSign := by
      rintro rfl
      exact absurd hc.1 (by decide)
    have hcancel : TerminalMode.isCancel c = false := by
      simp only [TerminalMode.isCancel, Bool.or_eq_false_iff, decide_eq_false_iff_not]
      constructor <;> rintro rfl <;> exact absurd hc.1 (by decide)
    have hshown : TerminalMode.isControl c = false := by
      simp [TerminalMode.isControl, hc]
    simp [visibleFrom, TerminalMode.step, hne, hcancel, hshown,
      ih fun d hd => h d (List.mem_cons_of_mem c hd)]

end Text
end AccessControl
