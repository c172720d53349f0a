import Stepwise.Proofs.Batch

/-!
# Calls that return

A call is over once what waits for it is the innermost again.  Until then the frame that
was put right above it stays where it is, and the call can end in no other way than by the
reply or the panic that this frame gets.
-/

namespace Stepwise.State

variable {trace : List Occurrence} {state : State} {base above : Stack} {frame : Frame}
  {count : Nat}

/-- After so many small steps nothing is left above what waits, for the first time. -/
structure Leaves (base : Stack) (count : Nat) (state : State) : Prop where
  inside : ∀ visited ∈ state.visits count, base.length < visited.stack.length
  back : (state.walk count).2.stack = base

/-- A call returns: nothing is left above what waits, and a reply is on its way to it. -/
structure Returns (base : Stack) (count : Nat) (state : State) : Prop
    extends Leaves base count state where
  replies : ∃ reply, (state.walk count).2.control = .reply reply

/-- How long a call of a fixed run lasts can be computed. -/
theorem Leaves.of_all (inside : (state.visits count).all
      (fun visited => base.length < visited.stack.length) = true)
    (back : (state.walk count).2.stack = base) : state.Leaves base count :=
  ⟨fun visited member => of_decide_eq_true (List.all_eq_true.mp inside visited member), back⟩

/-- The last of several small steps. -/
theorem walk_succ (state : State) (count : Nat) :
    (state.walk (count + 1)).2 = (state.walk count).2.next := by
  induction count generalizing state with
  | zero => rfl
  | succ count ih => exact ih state.next

/-- A call ends only when each frame above what waits has got a reply or a panic. -/
theorem Leaves.delivers_above {beneath : Stack} (leaves : state.Leaves base count)
    (reaches : Reaches trace state)
    (placed : state.stack = above ++ frame :: (beneath ++ base)) :
    ∃ fewer, fewer < count ∧ (state.walk fewer).2.stack = frame :: (beneath ++ base) ∧
      ((∃ reply, (state.walk fewer).2.control = .reply reply) ∨
        ∃ payload, (state.walk fewer).2.control = .unwind payload) := by
  induction count generalizing trace state above with
  | zero =>
      have back : state.stack = base := leaves.back
      have lengths := congrArg List.length (placed.symm.trans back)
      simp only [List.length_append, List.length_cons] at lengths
      omega
  | succ count ih =>
      rcases beneath_or_delivers reaches.inOrder placed with ⟨⟨more, still⟩, -⟩ | delivered
      · have later : state.next.Leaves base count :=
          ⟨fun visited member => leaves.inside visited (List.mem_cons_of_mem _ member),
            leaves.back⟩
        obtain ⟨fewer, bound, delivered⟩ := ih later reaches.next still
        exact ⟨fewer + 1, by omega, delivered⟩
      · exact ⟨0, by omega, delivered⟩

/-- A call ends only when the frame right above what waits has got a reply or a panic. -/
theorem Leaves.delivers (leaves : state.Leaves base count) (reaches : Reaches trace state)
    (placed : state.stack = above ++ frame :: base) :
    ∃ fewer, fewer < count ∧ (state.walk fewer).2.stack = frame :: base ∧
      ((∃ reply, (state.walk fewer).2.control = .reply reply) ∨
        ∃ payload, (state.walk fewer).2.control = .unwind payload) :=
  @delivers_above _ _ _ _ _ _ [] leaves reaches placed

/-- A call ends at once when nothing is left above what waits. -/
theorem Leaves.last {fewer : Nat} (leaves : state.Leaves base count) (bound : fewer < count)
    (left : (state.walk fewer).2.next.stack = base) :
    (state.walk count).2 = (state.walk fewer).2.next := by
  rw [← walk_succ] at left ⊢
  by_cases same : fewer + 1 = count
  · rw [same]
  · have inside := leaves.inside _ (walk_mem_visits (by omega : fewer + 1 < count))
    rw [left] at inside
    omega

end Stepwise.State
