import Stepwise.Proofs.Pools.Stirs

/-!
# Tidy runs

A writer or a runtime is dropped in its own right only when a request displaces it by
another one of its name, and then at once.  So every run is tidy, and every small step is
quiet or one of the few that stir.  But for the one that publishes an outcome, none
completes a deferred.
-/

namespace Stepwise

variable {trace : List Occurrence} {state after : State} {past : List State}

theorem Frame.isTidy_of_isQuiet {frame : Frame} (quiet : frame.isQuiet = true) :
    frame.isTidy = true := by
  simp only [isQuiet, Bool.and_eq_true] at quiet
  exact quiet.1

theorem Frame.isBorder_of_isQuiet {frame : Frame} (quiet : frame.isQuiet = true) :
    frame.isBorder = false := by
  simp only [isQuiet, Bool.and_eq_true, Bool.not_eq_true'] at quiet
  exact quiet.2

namespace State

/-- The frames that a tidy small step leaves alone are tidy. -/
theorem Tidy.base (tidy : state.Tidy) : state.base.all Frame.isTidy = true := by
  obtain ⟨world, stack, control⟩ := state
  rcases tidy with all | ⟨owned, rest, placed, replies, all⟩
  · cases control with
    | reply _ | unwind _ =>
        cases stack with
        | nil => rfl
        | cons frame rest =>
            simp only [List.all_cons, Bool.and_eq_true] at all
            exact all.2
    | _ => exact all
  · cases placed
    cases replies
    exact all

/-- Tidy frames stacked on tidy frames. -/
theorem Tidy.stacked (new : Stack) {base : Stack} {world : World} {control : Control}
    (all : new.all Frame.isTidy = true) (tidy : base.all Frame.isTidy = true) :
    Tidy ⟨world, new ++ base, control⟩ :=
  .inl (by rw [List.all_append, all, tidy, Bool.and_self])

/-- What goes on quietly above tidy frames is tidy. -/
theorem Quiet.tidy {world : World} {base : Stack} (quiet : State.Quiet world base after)
    (tidy : base.all Frame.isTidy = true) : after.Tidy := by
  obtain ⟨-, ⟨new, placed, all⟩, -⟩ := quiet
  left
  rw [placed, List.all_append, tidy, Bool.and_true, List.all_eq_true]
  exact fun frame member => Frame.isTidy_of_isQuiet (List.all_eq_true.mp all frame member)

/-- A small step that stirs stays tidy. -/
theorem Stirs.tidy (stirs : Stirs state after) (tidy : state.Tidy) : after.Tidy := by
  have beneath := tidy.base
  cases stirs with
  | queued _ _ _ _ all _ =>
      refine .stacked _ ?_ beneath
      rw [List.all_eq_true] at all ⊢
      exact fun frame member => Frame.isTidy_of_isQuiet (all frame member)
  | @published world stack deferred outcome found record _ =>
      exact .stacked [.firing deferred found.continuations] rfl beneath
  | @closed world later stack pool found _ _ _ =>
      refine .stacked [.disposing (found.jobs.map .continuation),
        .recording .runtimeShutDown] ?_ beneath
      simp [Frame.isTidy, Owned.isBare]
  | @overwrote world later stack rest receipt name raw other _ _ =>
      exact .inr ⟨.writer other, .answering .done :: .program rest :: stack, rfl, rfl, beneath⟩
  | @opened world later stack rest _ _ _ _ _ =>
      exact .stacked [.program rest] rfl beneath
  | @reopened world later stack rest _ _ other _ _ _ =>
      exact .inr ⟨.runtime other, .answering .done :: .program rest :: stack, rfl, rfl, beneath⟩
  | @dropped world stack rest _ _ reply _ _ =>
      exact .stacked [.answering reply, .program rest] rfl beneath
  | shed => exact .stacked [.disposing []] rfl beneath
  | @entered world stack rest _ _ pool _ =>
      exact .stacked [.context world.thread.context pool, .program rest] rfl beneath
  | @ran world later stack rest _ _ _ pool number deferred _ _ =>
      exact .stacked [.blocking number pool deferred, .thread world.thread,
        .program rest] rfl beneath
  | @threaded world stack rest _ _ =>
      exact .stacked [.thread world.thread, .program rest] rfl beneath
  | @took world stack rest _ pool number _ _ _ _ _ _ =>
      exact .stacked [.worker pool number world.thread, .program rest] rfl beneath
  | crossed _ quiet => exact quiet.tidy beneath
  | broke _ quiet => exact quiet.tidy beneath

/-- Every small step stays tidy. -/
theorem Tidy.next (tidy : state.Tidy) : state.next.Tidy := by
  rcases next_cases tidy with ⟨-, quiet⟩ | stirs
  · exact quiet.tidy tidy.base
  · exact stirs.tidy tidy

end State

/-- Every run is tidy. -/
theorem Reaches.tidy (reaches : Reaches trace state) : state.Tidy := by
  induction reaches with
  | begin program => exact .inl rfl
  | next _ ih => exact ih.next
  | again program _ _ _ => exact .inl rfl

namespace State

/-! ## What is completed and suspended -/

/-- A small step that stirs keeps deferreds and machines as they are, or publishes. -/
theorem Stirs.keeps (stirs : Stirs state after) :
    state.world.Keeps after.world ∨
      ∃ deferred outcome, state.control = .task (.publish deferred outcome) := by
  have beyond {world middle later : World} (keeps : middle.Keeps later)
      (deferreds : middle.deferreds = world.deferreds)
      (activations : middle.activations = world.activations) : world.Keeps later :=
    .trans (.same deferreds activations) keeps
  cases stirs with
  | published _ => exact .inr ⟨_, _, rfl⟩
  | queued _ quiet _ _ _ _ => exact .inl (quiet.toKeeps.trans (.same rfl rfl))
  | closed _ _ quiet => exact .inl (beyond quiet.toKeeps rfl rfl)
  | overwrote _ quiet => exact .inl quiet.toKeeps
  | opened _ quiet | reopened _ quiet => exact .inl (beyond quiet.toKeeps rfl rfl)
  | ran _ quiet => exact .inl (beyond quiet.toKeeps rfl rfl)
  | dropped _ _ | shed | entered _ | threaded | took _ _ _ => exact .inl (.same rfl rfl)
  | crossed _ quiet => exact .inl ((World.keeps_left _ _).trans quiet.world.toKeeps)
  | broke _ quiet => exact .inl ((World.keeps_broken _ _).trans quiet.world.toKeeps)

/-- A small step keeps deferreds and machines as they are, or publishes. -/
theorem keeps_next (tidy : state.Tidy) :
    state.world.Keeps state.next.world ∨
      ∃ deferred outcome, state.control = .task (.publish deferred outcome) := by
  rcases next_cases tidy with ⟨-, quiet⟩ | stirs
  · exact .inl quiet.world.toKeeps
  · exact stirs.keeps

/-- To publish an outcome completes one deferred, and touches no machine. -/
theorem world_of_publish {deferred : Nat} {outcome : Outcome}
    (publishes : state.control = .task (.publish deferred outcome)) :
    state.next.world.activations = state.world.activations ∧
      ∀ other, other ≠ deferred →
        state.next.world.deferreds.get? other = state.world.deferreds.get? other := by
  obtain ⟨world, stack, control⟩ := state
  subst publishes
  simp only [next, carryingOut, publishing]
  split
  · exact ⟨rfl, fun _ _ => rfl⟩
  · refine ⟨rfl, ?_⟩
    intro other different
    simp [World.record, World.modifyDeferred, different.symm]

/-- A deferred that is complete was complete, or its outcome is published just now. -/
theorem completes_next {deferred : Nat} (tidy : state.Tidy)
    (completed : state.next.world.ledger.Completed deferred) :
    state.world.ledger.Completed deferred ∨
      ∃ outcome, state.control = .task (.publish deferred outcome) := by
  rcases keeps_next tidy with keeps | ⟨published, outcome, publishes⟩
  · exact .inl (keeps.completes deferred completed)
  · by_cases same : deferred = published
    · exact .inr ⟨outcome, same ▸ publishes⟩
    · obtain ⟨found, lookup, complete⟩ := completed
      have present : state.next.world.deferreds.get? deferred = some found := lookup
      rw [(world_of_publish publishes).2 deferred same] at present
      exact .inl ⟨found, present, complete⟩

/-- A machine suspended on a deferred that is complete was suspended before. -/
theorem suspends_next {machine deferred : Nat} {scheduler : Scheduler} (tidy : state.Tidy)
    (suspended : state.next.world.Suspended machine scheduler deferred) :
    state.world.Suspended machine scheduler deferred ∨
      ¬ state.next.world.ledger.Completed deferred := by
  rcases keeps_next tidy with keeps | ⟨published, outcome, publishes⟩
  · exact keeps.suspends machine scheduler deferred suspended
  · obtain ⟨found, lookup, idle⟩ := suspended
    rw [(world_of_publish publishes).1] at lookup
    exact .inl ⟨found, lookup, idle⟩

end State

end Stepwise
