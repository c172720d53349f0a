import Stepwise.Execution.Request

/-!
# Executions

An execution repeats one small step until nothing is left on the stack and
control holds the final reply or panic.  A run is a finite number of such
steps; since some programs never end, the number is an argument.
-/

namespace Stepwise.State

/-- A run of a program in a world, about to begin. -/
def ofProgram (world : World) (program : Program) : State := ⟨world, [], .program program⟩

/-- The state after one small step; a state with nothing left to do stays. -/
def next (state : State) : State :=
  match state.control with
  | .program (.ret reply) => ⟨state.world, state.stack, .reply reply⟩
  | .program (.panic payload) => ⟨state.world, state.stack, .unwind payload⟩
  | .program (.call request rest) =>
      requesting state.world (.program rest :: state.stack) request
  | .task task => carryingOut state.world state.stack task
  | .reply reply =>
      match state.stack with
      | [] => state
      | frame :: stack => returning state.world stack reply frame
  | .unwind payload =>
      match state.stack with
      | [] => state
      | frame :: stack => unwindingThrough state.world stack payload frame
  | .halted _ => state

/-- Whether nothing is left to do. -/
def isFinal (state : State) : Bool :=
  match state.control with
  | .reply _ => state.stack.isEmpty
  | .unwind _ => state.stack.isEmpty
  | .halted _ => true
  | _ => false

/-- The state after at most so many small steps, or where the run ends. -/
def run : Nat → State → State
  | 0, state => state
  | fuel + 1, state => if state.isFinal then state else run fuel state.next

/-- What a run has come to so far. -/
inductive Ending where
  | reply (reply : Reply)
  | panic (payload : Payload)
  | halted (reason : Halt)
  | unfinished

/-- What a run has come to so far. -/
def ending (state : State) : Ending :=
  match state.control, state.stack with
  | .reply reply, [] => .reply reply
  | .unwind payload, [] => .panic payload
  | .halted reason, _ => .halted reason
  | _, _ => .unfinished

end Stepwise.State
