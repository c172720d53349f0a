import Stepwise.Proofs.Pools.Devoted
import Stepwise.Proofs.Pools.Guard
import Stepwise.Proofs.Return

/-!
# Runtimes that are dropped

When the drop of a runtime returns, its pool has done with all that was ever sent to it,
and refuses whatever is sent to it later.  What waited in the queue was dropped, and what a
worker was at cannot have been: a runtime is not dropped while a worker of it is busy.
-/

namespace Stepwise

variable {trace : List Occurrence} {state later : State} {past more : List State}
  {above base : Stack} {pool machine deferred count fewer : Nat} {scheduler : Scheduler}

/-! ## What a run comes to afterwards -/

/-- The states that a run comes to from a state on, with those that it has gone out of. -/
inductive State.GoesOn (state : State) : List State → State → Prop where
  | here : state.GoesOn [] state
  | next {more : List State} {later : State} :
      state.GoesOn more later → state.GoesOn (more ++ [later]) later.next
  | again {more : List State} {later : State} (program : Program) :
      state.GoesOn more later → later.hasEnded →
        state.GoesOn more (.ofProgram later.world program)

theorem Passes.goesOn (passes : Passes past state) (goesOn : state.GoesOn more later) :
    Passes (past ++ more) later := by
  induction goesOn with
  | here => simpa using passes
  | next _ ih =>
      rw [← List.append_assoc]
      exact ih.next
  | again program _ ended ih => exact ih.again program ended

namespace State

theorem visits_succ (state : State) (count : Nat) :
    state.visits (count + 1) = state.visits count ++ [(state.walk count).2] := by
  induction count generalizing state with
  | zero => rfl
  | succ count ih =>
      rw [visits, ih state.next]
      rfl

theorem goesOn_walk (state : State) (count : Nat) :
    state.GoesOn (state.visits count) (state.walk count).2 := by
  induction count with
  | zero => exact .here
  | succ count ih =>
      rw [visits_succ, walk_succ]
      exact ih.next

/-! ## While a call lasts -/

/-- A run that ends in a reply was never halted. -/
theorem running_walk (running : ∀ reason, (state.walk count).2.control ≠ .halted reason)
    (bound : fewer ≤ count) (reason : Halt) : (state.walk fewer).2.control ≠ .halted reason := by
  induction count with
  | zero =>
      cases Nat.le_zero.mp bound
      exact running reason
  | succ count ih =>
      rcases Nat.le_succ_iff.mp bound with earlier | rfl
      · refine ih (running_before ?_) earlier
        rwa [← walk_succ]
      · exact running reason

/-- A call that returns does not halt. -/
theorem Returns.running (returns : state.Returns base count) (reason : Halt) :
    (state.walk count).2.control ≠ .halted reason := by
  obtain ⟨reply, replies⟩ := returns.replies
  simp [replies]

/-- Once a call has returned, what calls in progress hold is what waits for it. -/
theorem Returns.held (returns : state.Returns base count) (asset : Asset) :
    (state.walk count).2.held asset = Holding.amount asset (Stack.holdings base) := by
  obtain ⟨reply, replies⟩ := returns.replies
  simp [State.held, replies, Control.holdings, returns.back]

/-- What is beneath stays on the stack as long as something is above it. -/
theorem beneath_walk (reaches : Reaches trace state) (placed : state.stack = above ++ base)
    (inside : ∀ visited ∈ state.visits count, base.length < visited.stack.length) :
    ∃ above, (state.walk count).2.stack = above ++ base := by
  induction count with
  | zero => exact ⟨above, placed⟩
  | succ count ih =>
      rw [visits_succ] at inside
      obtain ⟨above, still⟩ := ih fun visited member =>
        inside visited (List.mem_append_left _ member)
      have higher := inside _ (List.mem_append_right _ (List.mem_singleton_self _))
      obtain ⟨new, goes⟩ := stack_next (reaches.walk count).inOrder
      rw [walk_succ, goes]
      rcases base_cases (state.walk count).2 with same | ⟨frame, placed, -⟩
      · exact ⟨new ++ above, by rw [same, still, List.append_assoc]⟩
      · rw [still] at placed higher
        cases above with
        | nil => simp at higher
        | cons head rest =>
            have same : rest ++ base = (state.walk count).2.base := (List.cons.inj placed).2
            exact ⟨new ++ rest, by rw [← same, List.append_assoc]⟩

/-- What is on the way is where fewer small steps lead. -/
theorem exists_walk_of_mem {visited : State} (member : visited ∈ state.visits count) :
    ∃ fewer < count, (state.walk fewer).2 = visited := by
  induction count with
  | zero => cases member
  | succ count ih =>
      rw [visits_succ] at member
      rcases List.mem_append.mp member with before | last
      · obtain ⟨fewer, bound, same⟩ := ih before
        exact ⟨fewer, Nat.lt_succ_of_lt bound, same⟩
      · exact ⟨count, Nat.lt_succ_self count, (List.mem_singleton.mp last).symm⟩

theorem mem_visits_of_le {visited : State} (bound : fewer ≤ count)
    (member : visited ∈ state.visits fewer) : visited ∈ state.visits count := by
  induction bound with
  | refl => exact member
  | step _ ih =>
      rw [visits_succ]
      exact List.mem_append_left _ ih

/-- Until a call is over, what waits for it stays on the stack. -/
theorem Leaves.beneath (leaves : state.Leaves base count) (passes : Passes past state)
    (placed : state.stack = above ++ base) (bound : fewer ≤ count) :
    ∃ above, (state.walk fewer).2.stack = above ++ base :=
  beneath_walk passes.reaches placed fun visited member =>
    leaves.inside visited (mem_visits_of_le bound member)

theorem shut_walk (passes : Passes past state) (shut : state.world.Shut pool) (count : Nat) :
    (state.walk count).2.world.Shut pool := by
  induction count with
  | zero => exact shut
  | succ count ih =>
      rw [walk_succ]
      exact shut_next (passes.walk count).reaches.tidy ih

end State

/-! ## While a runtime is dropped -/

namespace Passes

/-- A runtime is not dropped while one of its workers is at a job. -/
theorem unmanned (passes : Passes past state)
    (drops : state.control = .task (.discard (.runtime pool)))
    (running : ∀ reason, state.next.control ≠ .halted reason) : ¬ state.stack.Manned pool := by
  intro manned
  obtain ⟨frame, placed, works⟩ := List.any_eq_true.mp manned
  cases frame with
  | worker other number saved =>
      have same : other = pool := by simpa [Frame.isWorkerOf] using works
      subst same
      have accepts := (passes.housed.dropping other (.inl drops)).1
      cases lookup : state.world.pools.get? other with
      | none => simp [World.acceptsJobs, lookup] at accepts
      | some found =>
          have busy := passes.reaches.posted.isBusy lookup placed
          refine running .deadlock ?_
          simp [State.next, drops, State.carryingOut, State.discarding, State.shuttingDown,
            lookup, busy]
  | _ => cases works

/-- When the drop of a runtime returns, its pool is shut down. -/
theorem shut_of_drop (passes : Passes past state)
    (drops : state.control = .task (.discard (.runtime pool)))
    (returns : state.next.Returns state.stack count) :
    (state.next.walk count).2.world.Shut pool := by
  have accepts := (passes.housed.dropping pool (.inl drops)).1
  have goesOn := State.running_walk returns.running (Nat.zero_le count)
  exact State.shut_walk passes.next (State.shut_of_drop passes.reaches.tidy accepts drops goesOn)
    count

end Passes

/-! ## After a runtime was dropped -/

/-- Use a runtime that is gone. -/
def Program.reusing : Program :=
  .call (.dispatch (.shared "late") false false (.pool 0) (.ret .done)) fun _ =>
    .call (.schedule (.pool 0) (.ret .done)) .ret

end Stepwise
