import Stepwise.Proofs.Concerns.Steps
import Stepwise.Proofs.Origins

/-!
# Small steps that leave event loops alone

Few small steps have to do with event loops: one schedules a continuation on a loop or makes
a loop, drives one, or drops one.  All others leave the loops as they are, and so the frames
that drive or drop them.
-/

namespace Stepwise

/-- Whether a frame is in the middle of driving a loop, or of dropping one. -/
def Frame.tends : Frame → Bool
  | .closing _ _ => true
  | frame => frame.drives?.isSome

/-- The frames that drive loops or drop them. -/
def Stack.tending (stack : Stack) : List Frame := stack.filter Frame.tends

/-- Loops are left alone, and so are the frames that drive or drop them. -/
structure State.Skirts (world : World) (stack : Stack) (after : State) : Prop where
  loops : after.world.loops = world.loops
  tending : Stack.tending after.stack = stack.tending

/-- Whether a request drives a loop. -/
def Request.drivesLoop : Request → Bool
  | .turnLoop _ => true
  | .runLoop _ => true
  | .runLoopUntil _ _ _ _ => true
  | _ => false

/-- Whether a request has to do with a loop. -/
def Request.tendsLoop : Request → Bool
  | .newLoop _ => true
  | request => request.drivesLoop

/-- Whether a task has to do with a loop. -/
def Task.tendsLoop : Task → Bool
  | .schedule (.loop _) _ => true
  | .discard (.loop _) => true
  | _ => false

/-- Whether the small step has to do with a loop. -/
def State.tendsLoop (state : State) : Bool :=
  match state.control, state.stack with
  | .program (.call request _), _ => request.tendsLoop
  | .task task, _ => task.tendsLoop
  | .reply _, frame :: _ => frame.tends
  | .unwind _, frame :: _ => frame.tends
  | _, _ => false

theorem Frame.tends_iff {frame : Frame} : frame.tends = true ↔ frame.concern? = some .loops := by
  cases frame <;> simp [tends, drives?, concern?]

theorem Request.tendsLoop_iff {request : Request} :
    request.tendsLoop = true ↔ request.concern? = some .loops := by
  cases request <;> simp [tendsLoop, drivesLoop, concern?]

theorem Task.tendsLoop_of_concern? {task : Task} (about : task.concern? = some .loops) :
    task.tendsLoop = true := by
  cases task with
  | run continuation => cases continuation <;> cases about
  | discard owned =>
      cases owned with
      | loop _ => rfl
      | continuation dropped => cases dropped <;> cases about
      | _ => cases about
  | schedule scheduler _ =>
      cases scheduler with
      | loop _ => rfl
      | _ => cases about
  | _ => cases about

namespace State

variable {state : State}

/-- A small step that is about loops has to do with one. -/
theorem tendsLoop_of_concern? (about : state.concern? = some .loops) :
    state.tendsLoop = true := by
  obtain ⟨world, stack, control⟩ := state
  cases control with
  | program program =>
      cases program with
      | ret _ | panic _ => cases about
      | call request rest => exact Request.tendsLoop_iff.mpr about
  | task task => exact Task.tendsLoop_of_concern? about
  | reply reply =>
      cases stack with
      | nil => cases about
      | cons frame callers =>
          refine Frame.tends_iff.mpr ?_
          cases frame with
          | firing _ rest => cases rest <;> cases about
          | placing _ _ _ => cases about
          | _ => exact about
  | unwind payload =>
      cases stack with
      | nil => cases about
      | cons frame callers => exact Frame.tends_iff.mpr about
  | halted reason => cases about

/-- A frame that is passed tends to no loop, if the small step has nothing to do with one. -/
theorem tending_base (elsewhere : state.tendsLoop = false) :
    Stack.tending state.base = Stack.tending state.stack := by
  obtain ⟨world, stack, control⟩ := state
  have passed {frame : Frame} {callers : Stack} (silent : frame.tends = false) :
      Stack.tending callers = Stack.tending (frame :: callers) :=
    (List.filter_cons_of_neg (by simp [silent])).symm
  cases control with
  | program _ | task _ | halted _ => rfl
  | reply _ | unwind _ =>
      cases stack with
      | nil => rfl
      | cons frame callers => exact passed elsewhere

/-- A small step that has nothing to do with loops leaves them alone. -/
theorem next_skirts (elsewhere : state.tendsLoop = false) :
    Skirts state.world state.stack state.next := by
  have about : state.concern? ≠ some .loops := fun about => by
    simp [tendsLoop_of_concern? about] at elsewhere
  injection (next_ignores about).sight with loops
  obtain ⟨new, placed, others⟩ := (next_ignores about).exists_above
  have quiet : Stack.tending new = [] :=
    List.filter_eq_nil_iff.mpr fun frame member tends =>
      others frame member (Frame.tends_iff.mp tends)
  refine ⟨loops, ?_⟩
  calc Stack.tending state.next.stack
      = Stack.tending new ++ Stack.tending state.base := by
        rw [placed, Stack.tending, List.filter_append, Stack.tending, Stack.tending]
    _ = Stack.tending state.stack := by rw [quiet, List.nil_append, tending_base elsewhere]

end State

end Stepwise
