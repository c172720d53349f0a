import Stepwise.Proofs.Course.CalmRequests
import Stepwise.Proofs.Course.Persistence

/-!
# Machines in their seats

The bodies and the frames within steps belong to the places that launched what they
wait for, and each library machine is in its phase.  A calm small step keeps all of
this, as long as no library machine's step is directly beneath it.
-/

namespace Stepwise

/-- Bodies, frames within steps, and the deeds of machines are where they belong. -/
structure Grounded (trace : List Occurrence) (world : World) (stack : Stack) : Prop where
  founded : stack.Founded
  launches : ∀ place number deferred, Frame.launched place number deferred ∈ stack →
    (Chronicle.of trace).Launched place deferred
  awaits : ∀ place body deferred, world.body? place = some body →
    deferred ∈ body.awaited → (Chronicle.of trace).Launched place deferred
  owners : ∀ machine deferred, (Chronicle.of trace).Launched (.started machine) deferred →
    (world.body? (.started machine)).isSome = true
  unborn : ∀ machine, world.body? (.started machine) = none →
    deeds machine trace = [] ∧ calls machine trace = 0

/-- Everything is where it belongs, and each library machine is in its phase. -/
structure Seated (trace : List Occurrence) (world : World) (stack : Stack) : Prop where
  grounded : Grounded trace world stack
  phases : ∀ machine form, ((Chronicle.of trace).life machine).form = some form →
    form.isLibrary = true → Phase machine form trace world stack

/-- No library machine waits for its step right beneath. -/
def Stack.Free (chronicle : Chronicle) (stack : Stack) : Prop :=
  ∀ machine form, Stack.stepper? stack = some machine →
    (chronicle.life machine).form = some form → form.isLibrary = false

namespace State

/-- Control is where it belongs: the step of a started machine is about to run right above
the frame that waits for it, and nothing else happens there while the machine is a
library machine. -/
structure Controlled (trace : List Occurrence) (state : State) : Prop where
  place : ∀ machine, state.control.place? = some (.started machine) →
    Stack.stepper? state.stack = some machine
  acts : ∀ machine form position, Stack.stepper? state.stack = some machine →
    ((Chronicle.of trace).life machine).form = some form → form.isLibrary = true →
      ((Chronicle.of trace).life machine).step = some (position, none) →
        Phase.Acts machine form trace state.world position state.control

/-- A state in which all machines are in their seats. -/
structure Seated (trace : List Occurrence) (state : State) : Prop where
  seated : Stepwise.Seated trace state.world state.stack
  controlled : state.Controlled trace

end State

/-- The work of a deferred was launched at one place only. -/
theorem Chronicle.Launched.unique {chronicle : Chronicle} {place other : Place}
    {deferred : Nat} (launched : chronicle.Launched place deferred)
    (again : chronicle.Launched other deferred) : place = other := by
  obtain ⟨work, number, recorded, launcher⟩ := launched
  obtain ⟨same, _, recordedAgain, launcherAgain⟩ := again
  cases recorded.symm.trans recordedAgain
  cases launcher.symm.trans launcherAgain
  rfl

/-! ## Phases in another world -/

namespace Phase

variable {machine : Nat} {form : Machine} {trace : List Occurrence} {world later : World}
  {values : List Value} {deferred : Nat} {point : Point}

/-- What a machine awaits it has launched. -/
theorem Expects.launched (expects : Expects machine form trace world values deferred) :
    (Chronicle.of trace).Launched (.started machine) deferred := by
  obtain ⟨work, fate, -, recorded, -⟩ := expects.planned
  exact ⟨_, values.length, recorded, rfl⟩

theorem Expects.carry (expects : Expects machine form trace world values deferred)
    (untaken : ∀ deferred, (Chronicle.of trace).Launched (.started machine) deferred →
      later.Taken deferred → world.Taken deferred) :
    Expects machine form trace later values deferred :=
  ⟨expects.planned, expects.through,
    fun taken => expects.untaken (untaken deferred expects.launched taken)⟩

theorem Rests.carry (rests : Rests machine form trace world values deferred)
    (bodies : ∀ body, world.body? (.started machine) = some body →
      later.body? (.started machine) = some body)
    (untaken : ∀ deferred, (Chronicle.of trace).Launched (.started machine) deferred →
      later.Taken deferred → world.Taken deferred) :
    Rests machine form trace later values deferred :=
  ⟨rests.expects.carry untaken, bodies _ rests.body, rests.called⟩

theorem Pauses.carry (pauses : Pauses machine form trace world values point)
    (bodies : ∀ body, world.body? (.started machine) = some body →
      later.body? (.started machine) = some body) :
    Pauses machine form trace later values point :=
  ⟨pauses.stands, bodies _ pauses.body, pauses.called⟩

/-- A frame that waits for a launch. -/
theorem waits_launched {place : Place} {number : Nat} :
    Waits machine form trace world (.launched place number deferred) ↔
      place = .started machine ∧ ∃ values, number = values.length ∧
        Expects machine form trace world values deferred ∧
        world.body? (.started machine) =
          some (form.bodyAfter values (values.length + 1)) ∧
        calls machine trace = values.length + 1 := by
  cases form <;> exact Iff.rfl

theorem Waits.carry {frame : Frame} (waits : Waits machine form trace world frame)
    (bodies : ∀ body, world.body? (.started machine) = some body →
      later.body? (.started machine) = some body)
    (untaken : ∀ deferred, (Chronicle.of trace).Launched (.started machine) deferred →
      later.Taken deferred → world.Taken deferred) :
    Waits machine form trace later frame := by
  cases frame with
  | launched place number deferred =>
      rw [waits_launched] at waits ⊢
      obtain ⟨same, values, counted, expects, body, called⟩ := waits
      exact ⟨same, values, counted, expects.carry untaken, bodies _ body, called⟩
  | inspected place number value =>
      cases form with
      | pipeline _ _ _ _ =>
          obtain ⟨same, values, counted, pauses⟩ := waits
          exact ⟨same, values, counted, pauses.carry bodies⟩
      | _ => exact waits
  | announced place announcement =>
      cases form with
      | cubeRoot _ _ _ _ _ =>
          obtain ⟨same, heard⟩ := waits
          refine ⟨same, ?_⟩
          cases announcement with
          | started => exact heard.carry bodies
          | cube _ =>
              obtain ⟨cubed, pauses⟩ := heard
              exact ⟨cubed, pauses.carry bodies⟩
          | root _ =>
              obtain ⟨rooted, cubed, pauses⟩ := heard
              exact ⟨rooted, cubed, pauses.carry bodies⟩
          | finished =>
              obtain ⟨rooted, cubed, value, result, pauses⟩ := heard
              exact ⟨rooted, cubed, value, result, pauses.carry bodies⟩
      | _ => exact waits
  | _ => cases form <;> exact waits

end Phase

/-- The phase of a machine speaks only of its body, of the outcomes of its works, and of
what sits on its step. -/
theorem Phase.carry {machine : Nat} {form : Machine} {trace : List Occurrence}
    {world later : World} {stack above : Stack} (phase : Phase machine form trace world stack)
    (bodies : ∀ body, world.body? (.started machine) = some body →
      later.body? (.started machine) = some body)
    (untaken : ∀ deferred, (Chronicle.of trace).Launched (.started machine) deferred →
      later.Taken deferred → world.Taken deferred)
    (seats : ∀ frame, above.Seats machine frame → stack.Seats machine frame) :
    Phase machine form trace later above := by
  unfold Phase at phase ⊢
  split at phase
  · obtain ⟨stands, body, called⟩ := phase
    exact ⟨stands, bodies _ body, called⟩
  · exact fun frame sits => (phase frame (seats frame sits)).carry bodies untaken
  · obtain ⟨values, counted, rests⟩ := phase
    exact ⟨values, counted, rests.carry bodies untaken⟩
  · exact phase
  · exact phase
  · exact phase

/-! ## Calm small steps keep machines seated -/

namespace Grounded

variable {trace : List Occurrence} {world later : World} {stack : Stack}

/-- What happens with no machine's step keeps everything where it belongs. -/
theorem after {occurrence : Occurrence} (grounded : Grounded trace world stack)
    (permitted : (Chronicle.of trace).Permits occurrence)
    (born : ∀ machine, occurrence.place? = some (.started machine) →
      (world.body? (.started machine)).isSome = true) :
    Grounded (trace ++ [occurrence]) world stack where
  founded := grounded.founded
  launches := by
    intro place number deferred member
    rw [Chronicle.of_snoc]
    exact (grounded.launches place number deferred member).after permitted
  awaits := by
    intro place body deferred found waits
    rw [Chronicle.of_snoc]
    exact (grounded.awaits place body deferred found waits).after permitted
  owners := by
    intro machine deferred launched
    rw [Chronicle.of_snoc] at launched
    obtain ⟨work, number, recorded, launcher⟩ := launched
    rcases Chronicle.work_before recorded with ⟨was, present, same⟩ | rfl
    · exact grounded.owners machine deferred ⟨was, number, present, same.trans launcher⟩
    · exact born machine (by simp [Occurrence.place?, launcher])
  unborn := by
    intro machine absent
    obtain ⟨idle, uncalled⟩ := grounded.unborn machine absent
    have foreign : occurrence.place? ≠ some (.started machine) := by
      intro here
      have present := born machine here
      simp [absent] at present
    have through : (Chronicle.of trace).Over machine none := by
      intro deferred work number recorded launcher _
      have present := grounded.owners machine deferred ⟨work, number, recorded, launcher⟩
      simp [absent] at present
    rw [deeds_snoc, Chronicle.deedsIn_of_over permitted foreign through, idle,
      calls_of_foreign foreign, uncalled]
    exact ⟨rfl, rfl⟩

/-- Frames within steps stay where they belong when plain ones are stacked above. -/
theorem founded_append {plain : Stack} (all : plain.all Frame.isPlain = true)
    (founded : stack.Founded) : Stack.Founded (plain ++ stack) := by
  induction plain with
  | nil => exact founded
  | cons frame rest ih =>
      simp only [List.all_cons, Bool.and_eq_true] at all
      refine ⟨?_, ih all.2⟩
      intro machine within
      simp [Frame.place_of_isPlain all.1] at within

theorem calm {may shared : Nat → Prop} {after : State} (grounded : Grounded trace world stack)
    (calm : State.Calm may shared world stack after) :
    Grounded trace after.world after.stack where
  founded := by
    obtain ⟨plain, placed, all⟩ := calm.stack
    rw [placed]
    exact founded_append all grounded.founded
  launches := by
    intro place number deferred member
    obtain ⟨plain, placed, all⟩ := calm.stack
    rw [placed] at member
    rcases List.mem_append.mp member with above | below
    · have quiet := List.all_eq_true.mp all _ above
      simp [Frame.isPlain, Frame.place?] at quiet
    · exact grounded.launches place number deferred below
  awaits := by
    intro place body deferred found waits
    rcases calm.world.fresh place body found with was | empty
    · exact grounded.awaits place body deferred was waits
    · simp [empty] at waits
  owners := by
    intro machine deferred launched
    obtain ⟨body, found⟩ :=
      Option.isSome_iff_exists.mp (grounded.owners machine deferred launched)
    rw [calm.world.bodies _ body found]
    rfl
  unborn := by
    intro machine absent
    refine grounded.unborn machine ?_
    cases found : world.body? (.started machine) with
    | none => rfl
    | some body => simp [calm.world.bodies _ body found] at absent

end Grounded

namespace Seated

variable {trace : List Occurrence} {world : World} {stack : Stack}

/-- What happens elsewhere than in started machines' steps keeps them seated. -/
theorem after {occurrence : Occurrence} (seated : Seated trace world stack)
    (permitted : (Chronicle.of trace).Permits occurrence)
    (foreign : ∀ machine, occurrence.place? ≠ some (.started machine)) :
    Seated (trace ++ [occurrence]) world stack where
  grounded := seated.grounded.after permitted fun machine here => absurd here (foreign machine)
  phases := by
    intro machine form was library
    rw [Chronicle.of_snoc, (Chronicle.step_after (foreign machine)).2] at was
    exact (seated.phases machine form was library).after permitted (foreign machine)

theorem afterAll {occurrences : List Occurrence} (seated : Seated trace world stack)
    (permitted : (Chronicle.of trace).PermitsAll occurrences)
    (foreign : ∀ occurrence ∈ occurrences, ∀ machine,
      occurrence.place? ≠ some (.started machine)) :
    Seated (trace ++ occurrences) world stack := by
  induction occurrences generalizing trace with
  | nil => simpa using seated
  | cons occurrence rest ih =>
      obtain ⟨allowed, later⟩ := permitted
      have next := seated.after allowed (foreign occurrence (List.mem_cons_self ..))
      rw [← Chronicle.of_snoc] at later
      have all := ih next later fun other member =>
        foreign other (List.mem_cons_of_mem _ member)
      simpa using all

/-- A calm small step keeps machines seated, when it does not happen right above the step
of a library machine. -/
theorem calm {may shared : Nat → Prop} {after : State} (seated : Seated trace world stack)
    (free : stack.Free (.of trace))
    (foreign : ∀ deferred, may deferred → ∀ place,
      ¬ (Chronicle.of trace).Launched place deferred)
    (calm : State.Calm may shared world stack after) : after.Seated trace := by
  obtain ⟨plain, placed, all⟩ := calm.stack
  have still : ∀ above ∈ plain, above.steps? = none := fun above member =>
    Frame.steps_of_isPlain (List.all_eq_true.mp all above member)
  have above {machine : Nat} (steps : Stack.stepper? after.stack = some machine) :
      Stack.stepper? stack = some machine := by
    rw [placed] at steps
    cases plain with
    | nil => exact steps
    | cons frame rest => simp [Stack.stepper?, still frame (by simp)] at steps
  refine ⟨⟨seated.grounded.calm calm, ?_⟩, ?_, ?_⟩
  · intro machine form was library
    refine (seated.phases machine form was library).carry (calm.world.bodies _) ?_ ?_
    · intro deferred launched taken
      rcases calm.world.taken deferred taken with before | allowed
      · exact before
      · exact absurd launched (foreign deferred allowed _)
    · intro frame seats
      have unsteady : Stack.stepper? stack ≠ some machine := by
        intro steps
        simp [free machine form steps was] at library
      rw [placed] at seats
      exact (Stack.seats_append unsteady still).mp seats
  · intro machine here
    have plainly := calm.control
    cases control : after.control with
    | task task =>
        cases task with
        | step place position =>
            rw [control] at here plainly
            cases here
            cases plainly
        | _ => simp [control, Control.place?] at here
    | _ => simp [control, Control.place?] at here
  · intro machine form position steps was library
    simp [free machine form (above steps) was] at library

end Seated

end Stepwise
