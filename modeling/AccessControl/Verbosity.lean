import AccessControl.Event

/-!
# Verbosity

How much of what a decoder reports is shown. Only warnings are shown of anything else.
-/

namespace AccessControl

structure Verbosity where
  level : Level := .warn
deriving DecidableEq

namespace Verbosity

/-- From the number of times that more detail was asked for. -/
def ofCount : Nat → Verbosity
  | 0 => ⟨.warn⟩
  | 1 => ⟨.info⟩
  | 2 => ⟨.debug⟩
  | _ => ⟨.trace⟩

def enables (v : Verbosity) (level : Level) : Bool := level.rank ≤ v.level.rank

/-- The filter for a subscriber, with the level of the decoder's targets. -/
def directive (v : Verbosity) : String :=
  match v.level with
  | .warn => Level.warn.name
  | level => Level.warn.name ++ "," ++ Target.root ++ "=" ++ level.name

def shown (v : Verbosity) (events : List Event) : List Event :=
  events.filter fun e => v.enables e.level

end Verbosity
end AccessControl
