import Stepwise.Scenario.Operation

/-!
# Settling the pools

Workers run jobs only when a scenario lets them: after each of its operations,
and while a thread is blocked.  Settling goes in rounds over the runtimes in the
order of their names.  A runtime that is not held gets a turn, in which its
workers run as many jobs as were queued when the turn began.  Rounds repeat
until one of them runs no job.
-/

namespace Stepwise.Scenario

/-- The memory that says whether a runtime is held. -/
def heldCell (runtime : String) : Name := .within 0 s!"held {runtime}"

/-- Hold a runtime, or release it. -/
def setHeld (runtime : String) (held : Bool) : Script Unit := do
  let _ ← Script.request (.store (heldCell runtime) (.ok (.bool held)))

/-- Whether a runtime is held. -/
def isHeld (runtime : String) : Script Bool := do
  match ← Script.request (.load (heldCell runtime)) with
  | .outcome (.ok value) => pure value.asFlag
  | _ => pure false

/-- Let a runtime run so many jobs; the result tells whether one ran. -/
def runJobs (runtime : String) : Nat → Bool → Script Bool
  | 0, ran => pure ran
  | count + 1, ran => do
      match ← Script.request (.work (.shared runtime)) with
      | .flag true => runJobs runtime count true
      | _ => pure ran

/-- One turn of a runtime. -/
def turn (runtime : String) : Script Bool := do
  if ← isHeld runtime then pure false
  else
    match ← Script.request (.queuedJobs (.shared runtime)) with
    | .count queued => runJobs runtime queued false
    | _ => pure false

/-- One round over the runtimes. -/
def settleRound : List String → Bool → Script Bool
  | [], ran => pure ran
  | runtime :: rest, ran => do
      let turned ← turn runtime
      settleRound rest (ran || turned)

/-- Let the pools run until nothing is queued that may run, in at most so many
rounds. -/
def settleWithin : Nat → Script Unit
  | 0 => pure ()
  | rounds + 1 => do
      match ← Script.request .runtimes with
      | .names names =>
          let sorted := names.mergeSort fun left right => decide (left ≤ right)
          if ← settleRound sorted false then settleWithin rounds else pure ()
      | _ => pure ()

/-- More rounds than any scenario takes. -/
def enoughRounds : Nat := 1000000000

/-- Let the pools run until nothing is queued that may run. -/
def settle : Script Unit := settleWithin enoughRounds

end Stepwise.Scenario
