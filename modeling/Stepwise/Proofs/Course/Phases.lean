import Stepwise.Proofs.Course.Changes

/-!
# Phases of library machines

The life of a library machine, its body, what sits on its step and its course agree at
all times.  Before its first step the body is fresh.  A suspended machine awaits the one
work of it that is not over, and nobody else takes the outcome.  A machine whose step
has ended otherwise has come to an outcome, or its hook has panicked.
-/

namespace Stepwise

/-- The work of a deferred was launched by the step of the machine at a place. -/
def Chronicle.Launched (chronicle : Chronicle) (place : Place) (deferred : Nat) : Prop :=
  ∃ work number, chronicle.work deferred = some work ∧ work.launcher = some (place, number)

/-- All works of a machine are over, but for one. -/
def Chronicle.Over (chronicle : Chronicle) (machine : Nat) (but : Option Nat) : Prop :=
  ∀ deferred work number, chronicle.work deferred = some work →
    work.launcher = some (.started machine, number) → some deferred ≠ but →
      work.fate.outcome?.isSome = true

/-- The place of whose step an occurrence is a part. -/
def Occurrence.place? : Occurrence → Option Place
  | .started machine _ _ => some (.started machine)
  | .called machine _ => some (.started machine)
  | .ended machine _ => some (.started machine)
  | .dispatched _ _ launcher => launcher.map (·.1)
  | .shown place _ _ => some place
  | .announced place _ => some place
  | .interrupted place => some place
  | _ => none

/-- The results so far of the demonstration, from the values of its works, the latest
first. -/
def CubeRoot.holding (values : List Value) (demo : CubeRoot) : CubeRoot :=
  match values with
  | [] => demo
  | [cubed] => { demo with cubed := realOf cubed }
  | rooted :: cubed :: _ => { demo with cubed := realOf cubed, rooted := realOf rooted }

/-- A pipeline that has launched so many of its stages and awaits none. -/
def Pipeline.past (launches : Nat) (stages : List (Value → Program)) (dispatcher : Dispatcher)
    (inspect : Nat → Value → Program) : Pipeline :=
  ⟨none, stages.mapIdx fun index stage => if index < launches then none else some stage,
    dispatcher, inspect, none, launches⟩

namespace Machine

/-- The body of a machine whose works have given some values, the latest first, when it
has launched so many of them and awaits none. -/
def bodyAfter (values : List Value) (launches : Nat) : Machine → Body
  | .custom step => .custom step
  | .pipeline _ stages dispatcher inspect =>
      .pipeline (.past launches stages dispatcher inspect)
  | .cubeRoot input cube root dispatcher announce =>
      .cubeRoot { (CubeRoot.fresh input cube root dispatcher announce).holding values with
        dispatched := launches }

/-- Some work of a machine is sent to the current context, where there may be none. -/
def UsesContext : Machine → Prop
  | .custom _ => False
  | .pipeline _ _ dispatcher _ => ∃ count, dispatcher.target count = .context
  | .cubeRoot _ _ _ dispatcher _ => ∃ count, dispatcher.target count = .context

end Machine

/-! ## The phases -/

namespace Phase

variable (machine : Nat) (form : Machine) (trace : List Occurrence) (world : World)

/-- A machine has come to a point of its plan, and none of its works is under way. -/
structure Stands (point : Point) : Prop where
  course : Course form (deeds machine trace) point
  through : (Chronicle.of trace).Over machine none

/-- A machine awaits its work after some values, which is its only one under way. -/
structure Expects (values : List Value) (deferred : Nat) : Prop where
  planned : ∃ work fate, form.work? values = some work ∧
    (Chronicle.of trace).work deferred =
      some ⟨work, some (.started machine, values.length), fate⟩ ∧
    Course form (deeds machine trace) (fate.point values work)
  through : (Chronicle.of trace).Over machine (some deferred)
  untaken : ¬ world.Taken deferred

/-- A machine is suspended, or about to be, on its work after some values. -/
structure Rests (values : List Value) (deferred : Nat) : Prop where
  expects : Expects machine form trace world values deferred
  body : world.body? (.started machine) =
    some ((form.bodyAfter values (values.length + 1)).await values.length deferred)
  called : calls machine trace = values.length + 1

/-- A machine has come to an outcome. -/
structure Settles (outcome : Outcome) : Prop where
  stands : ∃ point, Stands machine form trace point ∧ point.outcome? = some outcome
  called : calls machine trace ≤ form.steps

/-- The step of a machine was left by a panic: that of its hook, or that of a dispatch
outside every runtime. -/
structure Breaks (payload : Payload) : Prop where
  stands : ∃ point, Stands machine form trace point
  cause : .interrupted (.started machine) ∈ trace ∨
    form.UsesContext ∧ payload = .text (State.outsideRuntime false)
  called : calls machine trace ≤ form.steps

/-- A machine between works, whose hook has been told of the latest value. -/
structure Pauses (values : List Value) (point : Point) : Prop where
  stands : Stands machine form trace point
  body : world.body? (.started machine) = some (form.bodyAfter values values.length)
  called : calls machine trace = values.length + 1

/-- A frame within the step of a machine waits for its hook or for a launch. -/
def Waits (frame : Frame) : Prop :=
  match form, frame with
  | .pipeline _ _ _ _, .inspected place number value =>
      place = .started machine ∧ ∃ values, number = values.length ∧
        Pauses machine form trace world (value :: values) (.ready (value :: values))
  | .cubeRoot _ _ _ _ _, .announced place announcement =>
      place = .started machine ∧
        match announcement with
        | .started => Pauses machine form trace world [] (.ready [])
        | .cube _ => ∃ cubed, Pauses machine form trace world [cubed] (.ready [cubed])
        | .root _ => ∃ rooted cubed,
            Pauses machine form trace world [rooted, cubed] (.ready [rooted, cubed])
        | .finished => ∃ rooted cubed value, form.result? [rooted, cubed] = some value ∧
            Pauses machine form trace world [rooted, cubed] (.closed value)
  | form, .launched place number deferred =>
      place = .started machine ∧ ∃ values, number = values.length ∧
        Expects machine form trace world values deferred ∧
        world.body? (.started machine) =
          some (form.bodyAfter values (values.length + 1)) ∧
        calls machine trace = values.length + 1
  | _, _ => False

/-- The first step of a machine is about to run. -/
structure Begins : Prop where
  stands : Stands machine form trace .fresh
  body : world.body? (.started machine) = some form.body
  called : calls machine trace = 1

/-- The step after the work after some values is about to run. -/
structure Resumes (values : List Value) (deferred : Nat) : Prop where
  expects : Expects machine form trace world values deferred
  complete : world.isComplete deferred = true
  body : world.body? (.started machine) =
    some ((form.bodyAfter values (values.length + 1)).await values.length deferred)
  called : calls machine trace = values.length + 2

/-- The step of a machine is about to run, or is about to end. -/
def Acts (position : Position) : Control → Prop
  | .task (.step place begun) =>
      place = .started machine ∧ begun = position ∧
        ((position = .notStarted ∧ Begins machine form trace world) ∨
          ∃ values deferred, position = .suspension values.length ∧
            Resumes machine form trace world values deferred)
  | .reply reply =>
      match world.judge machine reply with
      | .await resumeAt deferred =>
          ∃ values, resumeAt = values.length ∧
            Rests machine form trace world values deferred
      | .complete value => Settles machine form trace (.ok value)
      | .fail error => Settles machine form trace (.error error)
  | .unwind payload => Breaks machine form trace payload
  | _ => False

end Phase

open Phase in
/-- How a library machine stands, by how its last step has ended. -/
def Phase (machine : Nat) (form : Machine) (trace : List Occurrence) (world : World)
    (stack : Stack) : Prop :=
  match ((Chronicle.of trace).life machine).step with
  | none =>
      Stands machine form trace .fresh ∧
        world.body? (.started machine) = some form.body ∧ calls machine trace = 0
  | some (_, none) =>
      ∀ frame, stack.Seats machine frame → Waits machine form trace world frame
  | some (_, some (.returned (.await resumeAt deferred))) =>
      ∃ values, resumeAt = values.length ∧ Rests machine form trace world values deferred
  | some (_, some (.returned (.complete value))) => Settles machine form trace (.ok value)
  | some (_, some (.returned (.fail error))) => Settles machine form trace (.error error)
  | some (_, some (.panicked payload)) => Breaks machine form trace payload

end Stepwise
