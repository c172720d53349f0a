import Stepwise.Proofs.Pools.Spent

/-!
# What the workers of a pool are at

While a pool accepts jobs, whatever work was sent to it waits in its queue, or a worker of
the pool is at it; and so does a machine that awaits such work to be resumed inline or by
the pool.  So what calls in progress hold of these lies above a worker of the pool on the
stack.
-/

namespace Stepwise

variable {state : State} {stack : Stack} {chronicle : Chronicle} {past : List State}
  {pool machine deferred : Nat} {scheduler : Scheduler} {asset : Asset}

/-! ## Above a worker -/

/-- Whether a worker of a pool runs a job at a frame. -/
def Frame.isWorkerOf (pool : Nat) : Frame → Bool
  | .worker other _ _ => other == pool
  | _ => false

/-- Some worker of a pool is on the stack. -/
def Stack.Manned (pool : Nat) (stack : Stack) : Prop := stack.any (Frame.isWorkerOf pool) = true

/-- Every frame that holds an asset is above a worker of a pool. -/
def Stack.Guards (pool : Nat) (asset : Asset) : Stack → Prop
  | [] => True
  | frame :: rest =>
      (0 < Holding.amount asset frame.holdings → Stack.Manned pool rest) ∧
        Stack.Guards pool asset rest

namespace Stack

theorem Manned.append (new : Stack) (manned : stack.Manned pool) : Manned pool (new ++ stack) := by
  simp only [Manned, List.any_append, Bool.or_eq_true] at manned ⊢
  exact .inr manned

theorem guards_of_not_held (nothing : Holding.amount asset (holdings stack) = 0) :
    Guards pool asset stack := by
  induction stack with
  | nil => trivial
  | cons frame rest ih =>
      simp only [holdings_cons, Holding.amount_append] at nothing
      exact ⟨fun held => by omega, ih (by omega)⟩

theorem Guards.manned (guards : Guards pool asset stack)
    (held : 0 < Holding.amount asset (holdings stack)) : stack.Manned pool := by
  induction stack with
  | nil => cases held
  | cons frame rest ih =>
      simp only [holdings_cons, Holding.amount_append] at held
      have beneath : Manned pool rest := by
        by_cases here : 0 < Holding.amount asset frame.holdings
        · exact guards.1 here
        · exact ih guards.2 (by omega)
      exact beneath.append [frame]

/-- Whatever is stacked above a worker is above it. -/
theorem Guards.stacked (new : Stack) (guards : Guards pool asset stack)
    (manned : stack.Manned pool) : Guards pool asset (new ++ stack) := by
  induction new with
  | nil => exact guards
  | cons frame rest ih => exact ⟨fun _ => manned.append rest, ih⟩

end Stack

namespace State

/-- Whatever holds an asset, a frame or the task in control, is above a worker of a pool. -/
structure Guards (pool : Nat) (asset : Asset) (state : State) : Prop where
  control : 0 < Holding.amount asset state.control.holdings → state.stack.Manned pool
  stack : state.stack.Guards pool asset

theorem guards_of_not_held (nothing : state.held asset = 0) : state.Guards pool asset := by
  simp only [held, Holding.amount_append] at nothing
  exact ⟨fun held => by omega, Stack.guards_of_not_held (by omega)⟩

/-- The frames that a small step leaves alone are the stack, or what is beneath the innermost
frame, when nothing is in hand. -/
theorem base_cases (state : State) :
    state.base = state.stack ∨
      ∃ frame, state.stack = frame :: state.base ∧ state.control.holdings = [] := by
  obtain ⟨world, stack, control⟩ := state
  cases control with
  | reply _ | unwind _ =>
      cases stack with
      | nil => exact .inl rfl
      | cons frame rest => exact .inr ⟨frame, rfl, rfl⟩
  | _ => exact .inl rfl

theorem Guards.base (guards : state.Guards pool asset) : state.base.Guards pool asset := by
  have whole := guards.stack
  rcases base_cases state with same | ⟨frame, placed, -⟩
  · rwa [same]
  · rw [placed] at whole
    exact whole.2

/-- While calls hold the asset, a worker is beneath what the small step changes. -/
theorem Guards.manned (guards : state.Guards pool asset) (held : 0 < state.held asset) :
    state.base.Manned pool := by
  simp only [State.held, Holding.amount_append] at held
  have whole := guards.stack
  rcases base_cases state with same | ⟨frame, placed, nothing⟩
  · rw [same]
    by_cases inHand : 0 < Holding.amount asset state.control.holdings
    · exact guards.control inHand
    · exact whole.manned (by omega)
  · rw [placed] at whole held
    rw [nothing] at held
    simp only [Stack.holdings_cons, Holding.amount_append, Holding.amount_nil] at held
    by_cases here : 0 < Holding.amount asset frame.holdings
    · exact whole.1 here
    · exact whole.2.manned (by omega)

/-- What is above a worker stays above it. -/
theorem guards_next {trace : List Occurrence} (order : state.InOrder (.of trace))
    (guards : state.base.Guards pool asset) (manned : state.base.Manned pool) :
    state.next.Guards pool asset := by
  obtain ⟨new, placed⟩ := stack_next order
  refine ⟨fun _ => ?_, ?_⟩
  · rw [placed]
    exact manned.append new
  · rw [placed]
    exact guards.stacked new manned

/-- What the queue of a pool keeps while the pool accepts jobs is still there after a small
step, or a worker takes it. -/
theorem guards_of_queued {job : Continuation} (tidy : state.Tidy)
    (guards : state.base.Guards pool asset)
    (holds : state.world.ledger.Holds (.queued (.pool pool)) job)
    (carried : asset ∈ job.assets) (accepts : state.next.world.acceptsJobs pool = true)
    (once : state.next.world.ledger.amount asset + state.next.held asset ≤ 1) :
    state.next.Guards pool asset := by
  -- If the queue keeps it still, calls hold nothing of it.
  have keeps {found : Pool} {job : Continuation}
      (lookup : state.next.world.pools.get? pool = some found) (member : job ∈ found.jobs)
      (carried : asset ∈ job.assets) : state.next.Guards pool asset := by
    have holds : state.next.world.ledger.Holds (.queued (.pool pool)) job :=
      ⟨found, lookup, member⟩
    have positive := Ledger.amount_pos_of_holds holds carried
    exact guards_of_not_held (by omega)
  obtain ⟨found, lookup, member⟩ := holds
  have was : state.world.pools.get? pool = some found := lookup
  have proceeds := proceeds_next tidy pool
  rw [was] at proceeds
  generalize present : state.next.world.pools.get? pool = changed at proceeds
  cases proceeds with
  | kept jobs _ => exact keeps present (jobs ▸ member) carried
  | queued _ _ jobs _ => exact keeps present (jobs ▸ List.mem_append_left _ member) carried
  | closed _ _ shutdown => simp [World.acceptsJobs, present, shutdown] at accepts
  | @took _ _ taken number saved rest runs placed jobs _ =>
      rw [jobs] at member
      rcases List.mem_cons.mp member with rfl | left
      · have manned : state.next.stack.Manned pool := by
          simp [placed, Stack.Manned, Frame.isWorkerOf]
        refine ⟨fun _ => manned, ?_⟩
        rw [placed]
        -- Neither the worker nor what waits for it holds anything.
        exact ⟨fun held => absurd held (Nat.lt_irrefl 0), fun held => absurd held (Nat.lt_irrefl 0),
          guards⟩
      · exact keeps present left carried

/-- What calls hold above a worker, or the queue of a pool keeps, or is released above a
worker, is above a worker after a small step. -/
theorem Guards.next {trace : List Occurrence} (guards : state.Guards pool asset)
    (order : state.InOrder (.of trace)) (tidy : state.Tidy)
    (accepts : state.next.world.acceptsJobs pool = true)
    (once : state.next.world.ledger.amount asset + state.next.held asset ≤ 1)
    (rests : state.held asset = 0 → state.base.Manned pool ∨
      ∃ job, state.world.ledger.Holds (.queued (.pool pool)) job ∧ asset ∈ job.assets) :
    state.next.Guards pool asset := by
  by_cases held : 0 < state.held asset
  · exact guards_next order guards.base (guards.manned held)
  · rcases rests (by omega) with manned | ⟨job, holds, carried⟩
    · exact guards_next order guards.base manned
    · exact guards_of_queued tidy guards.base holds carried accepts once

/-- A run that is not halted was not halted before. -/
theorem running_before (running : ∀ reason, state.next.control ≠ .halted reason) (reason : Halt) :
    state.control ≠ .halted reason := by
  intro halted
  have same : state.next = state := by simp [next, halted]
  exact running reason (by rw [same, halted])

end State

namespace Passes

end Passes

end Stepwise
