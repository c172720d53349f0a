import Stepwise.Proofs.LoopQueue

/-!
# Runs that other threads come into

A thread that drives a loop may wait for a continuation, and meanwhile other threads go on.
Nothing in a run says when they do, so they are let in wherever a reply is on its way: another
thread runs a program first, and the reply goes on afterwards.  In such a run, too, all is in
good custody, no loop gets one more owner, and what waits on the stack stays there.
-/

namespace Stepwise

variable {past more : List State} {state later : State} {above base : Stack} {frame : Frame}
  {loop : Nat}

/-- Another thread runs a program before the reply that is on its way goes on. -/
def State.joined (thread : String) (body : Program) (state : State) : State :=
  match state.control with
  | .reply reply =>
      ⟨state.world, .answering reply :: state.stack, .program (.call (.thread thread body) .ret)⟩
  | _ => state

/-- A thread that comes in leaves beneath it what waits. -/
theorem State.beneath_joined (placed : state.stack = above ++ base) (thread : String)
    (body : Program) : ∃ more, (state.joined thread body).stack = more ++ base := by
  obtain ⟨world, stack, control⟩ := state
  subst placed
  cases control with
  | reply reply => exact ⟨.answering reply :: above, rfl⟩
  | program _ | task _ | unwind _ | halted _ => exact ⟨above, rfl⟩

/-- The states that a run comes to from a state on, with those that it has gone out of, where
other threads may come in. -/
inductive State.Interleaves (state : State) : List State → State → Prop where
  | here : state.Interleaves [] state
  | next {more : List State} {later : State} :
      state.Interleaves more later → state.Interleaves (more ++ [later]) later.next
  | joins {more : List State} {later : State} (thread : String) (body : Program) :
      state.Interleaves more later → state.Interleaves more (later.joined thread body)

/-- Small steps of one thread alone. -/
theorem State.Interleaves.walk (interleaves : state.Interleaves more later) (count : Nat) :
    state.Interleaves (more ++ later.visits count) (later.walk count).2 := by
  induction count with
  | zero => simpa [State.visits, State.walk] using interleaves
  | succ count ih =>
      rw [State.visits_succ, State.walk_succ, ← List.append_assoc]
      exact ih.next

/-- Everything is in good custody, and a loop either has one owner or is being dropped. -/
structure State.Sound (loop : Nat) (state : State) : Prop where
  inOrder : ∃ trace, state.InOrder (.of trace)
  once : state.owners loop + state.stack.closings loop ≤ 1

theorem Passes.sound (passes : Passes past state) (loop : Nat) : state.Sound loop := by
  refine ⟨⟨_, passes.reaches.inOrder⟩, ?_⟩
  have drops := passes.closings_le loop
  have once := passes.owners_le_one loop
  omega

namespace State.Sound

theorem next (sound : state.Sound loop) : state.next.Sound loop := by
  obtain ⟨⟨trace, order⟩, once⟩ := sound
  have fewer := state.owners_next loop
  have drops := state.closings_next loop
  refine ⟨⟨trace ++ state.occurrences, ?_⟩, by omega⟩
  rw [Chronicle.of_append]
  exact State.next_inOrder order

/-- The thread that comes in owns nothing, and nor does the reply that waits for it. -/
theorem joined (sound : state.Sound loop) (thread : String) (body : Program) :
    (state.joined thread body).Sound loop := by
  obtain ⟨world, stack, control⟩ := state
  cases control with
  | reply reply =>
      obtain ⟨⟨trace, order⟩, once⟩ := sound
      exact ⟨⟨trace, Custody.light order rfl⟩, once⟩
  | program _ | task _ | unwind _ | halted _ => exact sound

/-- Whoever comes in, and however long the run goes on. -/
theorem interleaves (sound : state.Sound loop) (goesOn : state.Interleaves more later) :
    later.Sound loop := by
  induction goesOn with
  | here => exact sound
  | next _ ih => exact ih.next
  | joins thread body _ ih => exact ih.joined thread body

/-- What waits for neither a reply nor a panic that is on its way goes on waiting. -/
theorem beneath (sound : state.Sound loop) (placed : state.stack = above ++ frame :: base)
    (waits : ¬ state.Delivers frame base) : ∃ more, state.next.stack = more ++ frame :: base := by
  obtain ⟨trace, order⟩ := sound.inOrder
  rcases State.beneath_or_delivers order placed with ⟨stays, -⟩ | delivers
  · exact stays
  · exact absurd delivers waits

theorem owned_once (sound : state.Sound loop) : state.owners loop ≤ 1 := by
  have once := sound.once
  omega

/-- A loop that is being driven is not being dropped. -/
theorem not_closes (sound : state.Sound loop) (member : frame ∈ state.stack)
    (drives : frame.drives? = some loop) : state.closes loop = false := by
  refine Bool.eq_false_iff.mpr fun closes => ?_
  have once := sound.once
  have dropped := State.closings_pos closes
  have held := List.count_pos_iff.mpr (Stack.mem_loops member drives)
  rw [State.owners, List.count_append] at once
  omega

end State.Sound

end Stepwise
