import Mathlib.Data.List.Basic
import Stepwise.Proofs.Shutdown
import Stepwise.Proofs.Stains.Requests

/-!
# Runs with a stain

A small step is the same with a stain as without it, and the same happens in it, as long as the
stain does not show.  A run then goes on with the stain as it does without it.
-/

namespace Stepwise

/-- The name of the receipt that a small step uses. -/
def State.receipt? (state : State) : Option Name :=
  match state.control, state.stack with
  | .program (.call request _), _ => request.receipt?
  | .reply _, frame :: _ => frame.receipt?
  | _, _ => none

/-- The name of the handle that a small step uses. -/
def State.handle? (state : State) : Option Name :=
  match state.control, state.stack with
  | .program (.call request _), _ => request.handle?
  | .reply _, frame :: _ => frame.handle?
  | _, _ => none

namespace State

/-- The stain does not show in the next small step. -/
structure Misses (stain : Stain) (state : State) : Prop where
  /-- A machine that is marked is not about to be called. -/
  idle : stain.cancelled = true → state.control ≠ .task (.advance stain.machine)
  /-- A machine with a stain that shows is there. -/
  present : stain.Shows → (∀ reason, state.control ≠ .halted reason) →
    stain.machine < state.world.activations.size
  /-- No share that is missing would have kept an observer. -/
  harmless : state.control = .task (.discard (.activation stain.machine)) →
    stain.Harmless state.world
  /-- The receipt that is missing is not used. -/
  receipt : Apart stain.receipt state.receipt?
  /-- The handle that is missing is not used. -/
  handle : Apart stain.handle state.handle?

variable {stain : Stain} {state seen later : State} {others more : List State}

/-! ## Small steps -/

/-- A small step is the same with a stain that does not show in it. -/
theorem Misses.next (misses : state.Misses stain) :
    (state.stained stain).next = state.next.stained stain := by
  obtain ⟨world, stack, control⟩ := state
  cases control with
  | program program =>
      cases program with
      | ret reply | panic payload => rfl
      | call request rest =>
          exact requesting_stained _ _ _ (fun shows => misses.present shows (by simp))
            misses.receipt misses.handle
  | task task =>
      exact carryingOut_stained _ _ _
        (fun marked same => misses.idle marked (congrArg Control.task same))
        (fun same => misses.harmless (congrArg Control.task same))
  | reply reply =>
      cases stack with
      | nil => rfl
      | cons frame stack => exact returning_stained _ _ _ _ misses.receipt misses.handle
  | unwind payload =>
      cases stack with
      | nil => rfl
      | cons frame stack => exact unwindingThrough_stained ..
  | halted reason => rfl

/-- What happens is the same with a stain that does not show. -/
theorem Misses.occurrences (misses : state.Misses stain) :
    (state.stained stain).occurrences = state.occurrences := by
  obtain ⟨world, stack, control⟩ := state
  cases control with
  | program program =>
      cases program with
      | ret reply | panic payload => rfl
      | call request rest => exact World.requested_stained _ _ misses.handle
  | task task =>
      exact World.performed_stained _ _ fun marked same =>
        misses.idle marked (congrArg Control.task same)
  | reply reply =>
      cases stack with
      | nil => rfl
      | cons frame stack => exact World.returned_stained ..
  | unwind payload => cases stack <;> rfl
  | halted reason => rfl

/-! ## Runs -/

/-- A run without the stain is one with it. -/
theorem GoesOn.stained (goesOn : state.GoesOn others seen)
    (misses : ∀ visited ∈ others, visited.Misses stain) :
    (state.stained stain).GoesOn (others.map (·.stained stain)) (seen.stained stain) := by
  induction goesOn with
  | here => exact .here
  | again program _ ended ih => exact .again program (ih misses) ended
  | @next others seen goesOn ih =>
      have before := ih fun visited member => misses visited (List.mem_append_left _ member)
      have same := (misses seen (List.mem_append_right _ (List.mem_singleton_self _))).next
      rw [List.map_append, ← same]
      exact before.next

/-- A run with the stain is one without it. -/
theorem GoesOn.unstained (goesOn : (state.stained stain).GoesOn more later)
    (misses : ∀ visited : State, visited.stained stain ∈ more → visited.Misses stain) :
    ∃ others seen, state.GoesOn others seen ∧ more = others.map (·.stained stain) ∧
      later = seen.stained stain := by
  induction goesOn with
  | here => exact ⟨[], state, .here, rfl, rfl⟩
  | again program _ ended ih =>
      obtain ⟨others, seen, comes, same, rfl⟩ := ih misses
      exact ⟨others, _, comes.again program ended, same, rfl⟩
  | @next more later goesOn ih =>
      obtain ⟨others, seen, comes, rfl, rfl⟩ :=
        ih fun visited member => misses visited (List.mem_append_left _ member)
      have last := misses seen (List.mem_append_right _ (List.mem_singleton_self _))
      exact ⟨_, _, comes.next, by simp, last.next⟩

/-- The same happens with a stain that does not show. -/
theorem flatMap_occurrences_stained (misses : ∀ visited ∈ others, visited.Misses stain) :
    (others.map (·.stained stain)).flatMap State.occurrences =
      others.flatMap State.occurrences := by
  rw [List.flatMap_map]
  exact List.flatMap_congr fun visited member => (misses visited member).occurrences

end State

end Stepwise
