import Stepwise.Program

/-!
# The cube-root demonstration

A machine that cubes a number and then takes the square root of the cube, each
as dispatched work, and announces its progress.  Its value is the record of
both results.
-/

namespace Stepwise

/-- A computation on reals that may fail. -/
abbrev Computation := Float → Except Failure Float

namespace Computation

/-- The third power. -/
def cube : Computation := fun number => .ok (number * (number * number))

/-- The square root; a negative number has none. -/
def squareRoot : Computation := fun number =>
  if number < 0 then .error (.negativeRoot number) else .ok number.sqrt

/-- A computation as work. -/
def work (computation : Computation) (number : Float) : Program :=
  match computation number with
  | .ok result => .ret (.outcome (.ok (.real result)))
  | .error failure => .ret (.failure failure)

end Computation

/-- The demonstration under way. -/
structure CubeRoot where
  input : Float
  cube : Float → Program
  root : Float → Program
  dispatcher : Dispatcher
  announce : Announcement → Program
  /-- The deferred of the cube, and that of the root. -/
  awaitedCube : Option Nat
  awaitedRoot : Option Nat
  /-- The results so far; zero before. -/
  cubed : Float
  rooted : Float
  /-- How many works were dispatched. -/
  dispatched : Nat

namespace CubeRoot

/-- The demonstration before it has begun. -/
def fresh (input : Float) (cube root : Float → Program) (dispatcher : Dispatcher)
    (announce : Announcement → Program) : CubeRoot :=
  ⟨input, cube, root, dispatcher, announce, none, none, 0, 0, 0⟩

/-- The hook that records announcements. -/
def recording (announcement : Announcement) : Program :=
  .call (.record announcement.record) .ret

/-- The real in a value; zero for anything else. -/
def realOf : Value → Float
  | .real number => number
  | _ => 0

/-- The value the machine ends with. -/
def result (demo : CubeRoot) : Value :=
  .record [("cube", .real demo.cubed), ("root", .real demo.rooted)]

end CubeRoot

end Stepwise
