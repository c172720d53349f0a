import Stepwise.Proofs.Custody.Deferreds
import Stepwise.Proofs.Custody.Keeping
import Stepwise.Proofs.Custody.Machines
import Stepwise.Proofs.Custody.Waiters

/-!
# States in order

A state is in order when everything its control and its stack hold, and everything
the world keeps, is in good custody.  A run that was halted is past all order: its
frames are never taken down.
-/

namespace Stepwise.State

variable {chronicle : Chronicle} {world : World} {stack : Stack}

/-- Everything is in good custody, unless the run was halted. -/
def InOrder (chronicle : Chronicle) (state : State) : Prop :=
  match state.control with
  | .halted _ => True
  | control => Custody state.world.ledger chronicle control.holdings state.stack

theorem InOrder.custody {state : State} (order : state.InOrder chronicle)
    (running : ∀ reason, state.control ≠ .halted reason) :
    Custody state.world.ledger chronicle state.control.holdings state.stack := by
  unfold InOrder at order
  split at order
  · next reason halted => exact absurd halted (running reason)
  · exact order

/-- A call that drops things and then replies holds them meanwhile. -/
theorem disposing_inOrder {displaced : List Owned} (reply : Reply)
    (custody : Custody world.ledger chronicle (displaced.flatMap Owned.holdings) stack) :
    (State.disposing world stack displaced reply).InOrder chronicle := by
  cases displaced with
  | nil => exact custody
  | cons first rest =>
      have light : Custody world.ledger chronicle ((first :: rest).flatMap Owned.holdings)
          (.answering reply :: stack) := custody.light rfl
      exact Custody.push light

/-- A panic that drops things holds them meanwhile. -/
theorem dropping_inOrder {owned : List Owned} (payload : Payload)
    (custody : Custody world.ledger chronicle (owned.flatMap Owned.holdings) stack) :
    (State.dropping world stack owned payload).InOrder chronicle := by
  cases owned with
  | nil => exact custody
  | cons first rest =>
      exact Custody.push custody

/-- A call that comes down to a task hands it what is in hand. -/
theorem performing_inOrder {task : Task} (reply : Reply)
    (custody : Custody world.ledger chronicle task.holdings stack) :
    (State.performing world stack task reply).InOrder chronicle :=
  custody.light rfl

end Stepwise.State
