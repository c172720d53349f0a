/-!
# Positions in a machine's body

A step-driven machine is resumed at a *position*: before its first step, after
one of its numbered suspensions, or past its end.
-/

namespace Stepwise

/-- Where in a machine's body a step begins. -/
inductive Position where
  | notStarted
  | suspension (number : Nat)
  | finished
  deriving DecidableEq, Inhabited

namespace Position

/-- The greatest number of a suspension: numbers are 64-bit words. -/
def greatest : Nat := UInt64.size - 1

/-- The words for a position in messages. -/
def text : Position → String
  | .notStarted => "not-started"
  | .suspension number => s!"suspension {number}"
  | .finished => "finished"

/-- The position as a term, for inspection. -/
def inspect : Position → String
  | .notStarted => "NotStarted"
  | .suspension number => s!"At({number})"
  | .finished => "Finished"

end Position

end Stepwise
