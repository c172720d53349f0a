import Stepwise.CubeRoot
import Stepwise.Pipeline

/-!
# Bodies of machines

The body of a machine is its private state, which only its own steps read and
change.  A body belongs to a started machine, or to one that is kept and stepped
by hand.
-/

namespace Stepwise

/-- The private state of a machine. -/
inductive Body where
  | custom (step : Position → Program)
  | pipeline (pipeline : Pipeline)
  | cubeRoot (demo : CubeRoot)

/-- Where a body is: in a started machine, or in a machine that is kept. -/
inductive Place where
  | started (machine : Nat)
  | kept (number : Nat)
  deriving DecidableEq

/-- The body of a machine before its first step. -/
def Machine.body : Machine → Body
  | .custom step => .custom step
  | .pipeline seed stages dispatcher inspect =>
      .pipeline (.fresh seed stages dispatcher inspect)
  | .cubeRoot input cube root dispatcher announce =>
      .cubeRoot (.fresh input cube root dispatcher announce)

/-- The body of a machine that awaits a work at a suspension. -/
def Body.await (number deferred : Nat) : Body → Body
  | .custom step => .custom step
  | .pipeline state => .pipeline { state with awaited := some deferred }
  | .cubeRoot demo =>
      if number = 0 then .cubeRoot { demo with awaitedCube := some deferred }
      else .cubeRoot { demo with awaitedRoot := some deferred }

/-- The deferreds whose outcome a body is about to take. -/
def Body.awaited : Body → List Nat
  | .custom _ => []
  | .pipeline state => state.awaited.toList
  | .cubeRoot demo => demo.awaitedCube.toList ++ demo.awaitedRoot.toList

end Stepwise
