import Stepwise.Proofs.Custody.Requests

/-!
# Runs keep order

The initial world owns nothing.  Each small step keeps order, so every state that a
run comes to is in order, for the chronicle of what has happened on the way.
-/

namespace Stepwise

/-- The initial world owns nothing, and nothing has happened. -/
theorem custody_initial : Custody World.initial.ledger .blank [] [] := by
  have nothing (asset : Asset) : World.initial.ledger.total [] [] asset = 0 := rfl
  constructor
  · intro machine
    exact ⟨nothing _, nothing _, nothing _, rfl⟩
  · intro deferred
    exact ⟨nothing _, rfl⟩
  · intro waiter
    exact nothing _
  · intro holding member
    cases member
  · intro site continuation holds
    match site, holds with
    | .registered _, ⟨_, lookup, _⟩ => simp [World.initial, World.ledger] at lookup
    | .queued (.pool _), ⟨_, lookup, _⟩ => simp [World.initial, World.ledger] at lookup
    | .queued (.loop _), ⟨_, lookup, _⟩ => simp [World.initial, World.ledger] at lookup
    | .queued (.queue _), ⟨_, lookup, _⟩ => simp [World.initial, World.ledger] at lookup
  · intro name deferred lookup
    rfl
  · intro machine found deferred lookup
    simp [World.initial, World.ledger] at lookup
  · intro name receipt lookup
    simp [World.initial, World.ledger] at lookup
  · intro waiter found lookup
    simp [World.initial, World.ledger] at lookup

namespace State

variable {chronicle : Chronicle} {state : State}

/-- Each small step keeps order. -/
theorem next_inOrder (order : state.InOrder chronicle) :
    state.next.InOrder (chronicle.afterAll state.occurrences) := by
  obtain ⟨world, stack, control⟩ := state
  cases control with
  | program program =>
      cases program with
      | ret reply => exact order
      | panic payload => exact order
      | call request rest => exact requesting_inOrder (Custody.light order rfl)
  | task task => exact carryingOut_inOrder order
  | reply reply =>
      cases stack with
      | nil => exact order
      | cons frame stack => exact returning_inOrder (Custody.pop order)
  | unwind payload =>
      cases stack with
      | nil => exact order
      | cons frame stack => exact unwindingThrough_inOrder (Custody.pop order)
  | halted reason => trivial

/-- When all code has ended, the world alone is in good custody. -/
theorem ofProgram_inOrder (order : state.InOrder chronicle) (ended : state.hasEnded)
    (program : Program) : (State.ofProgram state.world program).InOrder chronicle := by
  obtain ⟨world, stack, control⟩ := state
  obtain ⟨rfl, ⟨reply, rfl⟩ | ⟨payload, rfl⟩⟩ := ended <;> exact order

end State

/-- Every state that a run comes to is in order. -/
theorem Reaches.inOrder {trace : List Occurrence} {state : State}
    (reaches : Reaches trace state) : state.InOrder (.of trace) := by
  induction reaches with
  | begin program => exact custody_initial
  | next _ ih =>
      rw [Chronicle.of_append]
      exact State.next_inOrder ih
  | again program _ ended ih => exact State.ofProgram_inOrder ih ended program

end Stepwise
