import Stepwise.Program

/-!
# Pipelines

A pipeline is a machine that passes a value through a list of stages.  Each
stage is dispatched as a work on the value before it, and the machine suspends
on its outcome; stage `k` is awaited at suspension `k`.  The first stage that
fails ends the machine with its error.  Between stages a hook sees each value.

Seed and stages can be used once: a used one is gone from the pipeline.
-/

namespace Stepwise

/-- A pipeline under way. -/
structure Pipeline where
  seed : Option Value
  stages : List (Option (Value → Program))
  dispatcher : Dispatcher
  inspect : Nat → Value → Program
  /-- The deferred of the stage under way. -/
  awaited : Option Nat
  /-- How many works were dispatched. -/
  dispatched : Nat

namespace Pipeline

/-- A pipeline none of whose stages has run. -/
def fresh (seed : Value) (stages : List (Value → Program)) (dispatcher : Dispatcher)
    (inspect : Nat → Value → Program) : Pipeline :=
  ⟨some seed, stages.map some, dispatcher, inspect, none, 0⟩

/-- How many stages a pipeline has, used or not. -/
def length (pipeline : Pipeline) : Nat := pipeline.stages.length

/-- The stage of a number, unless it was used. -/
def stage? (pipeline : Pipeline) (number : Nat) : Option (Value → Program) :=
  (pipeline.stages[number]?).join

/-- The stage that follows a number, if there is one.  A pipeline stepped by hand
may be at any number; counting on from the greatest comes round to zero. -/
def following? (pipeline : Pipeline) (number : Nat) : Option Nat :=
  if number + 1 < pipeline.length then some (number + 1)
  else if number = Position.greatest && decide (pipeline.length ≤ number) then some 0
  else none

/-- A pipeline whose stage of a number is being dispatched. -/
def useStage (pipeline : Pipeline) (number : Nat) : Pipeline :=
  { pipeline with
    stages := pipeline.stages.set number none, dispatched := pipeline.dispatched + 1 }

end Pipeline

end Stepwise
