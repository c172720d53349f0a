import Stepwise.Proofs.Course.Shelter
import Stepwise.Proofs.Drive

/-!
# Where a machine stands

A step that was called and has not ended is waited for by a frame on the stack.  So at
all times a library machine is either between steps, in the phase that its last step has
left it in, or in the middle of one, with something of its own right above the frame that
waits for it.  Either way its deeds so far are a course of its plan.
-/

namespace Stepwise

variable {trace : List Occurrence} {state : State} {machine : Nat} {form : Machine}

/-- The frame that waits for a step is the innermost one, or something sits on it. -/
theorem Stack.seats_or_stepper {stack : Stack} (member : Frame.stepping machine ∈ stack) :
    Stack.stepper? stack = some machine ∨ ∃ frame, stack.Seats machine frame := by
  induction stack with
  | nil => cases member
  | cons frame rest ih =>
      rcases List.mem_cons.mp member with rfl | below
      · exact .inl rfl
      · right
        rcases ih below with steps | ⟨other, seats⟩
        · exact ⟨frame, Stack.seats_cons.mpr (.inl ⟨rfl, steps⟩)⟩
        · exact ⟨other, .above seats⟩

/-- The step of a machine is under way only if it was, or is called just now. -/
theorem Chronicle.step_before {chronicle : Chronicle} {occurrences : List Occurrence}
    {position : Position}
    (quiet : ∀ occurrence ∈ occurrences, ∀ position, occurrence ≠ .called machine position)
    (under : ((chronicle.afterAll occurrences).life machine).step = some (position, none)) :
    (chronicle.life machine).step = some (position, none) := by
  induction occurrences generalizing chronicle with
  | nil => exact under
  | cons occurrence rest ih =>
      have later := ih (fun other member => quiet other (List.mem_cons_of_mem _ member)) under
      have uncalled := quiet occurrence (List.mem_cons_self ..)
      by_cases here : occurrence.place? = some (.started machine)
      · cases occurrence with
        | started other _ _ =>
            cases here
            simp [Chronicle.after, Life.unborn] at later
        | called other position =>
            cases here
            exact absurd rfl (uncalled position)
        | ended other ending =>
            cases here
            simp [Chronicle.after] at later
        | shown _ _ _ | announced _ _ | interrupted _ | dispatched _ _ _ => exact later
        | _ => cases here
      · rw [(Chronicle.step_after here).1] at later
        exact later

namespace State

/-- A step is called on top of the frame that waits for its end. -/
theorem next_of_calls {position : Position} (calls : state.Calls machine position) :
    state.next.control = .task (.step (.started machine) position) ∧
      state.next.stack = .stepping machine :: state.stack := by
  obtain ⟨world, stack, control⟩ := state
  obtain ⟨rfl, found, lookup, uncancelled, rfl⟩ := calls
  have present : world.activations.get? machine = some found := lookup
  constructor <;> simp [next, carryingOut, advancing, present, uncancelled]

/-- A small step goes on above what it leaves alone, whatever is shared. -/
theorem advances_next (order : state.InOrder (.of trace)) :
    state.next.Advances (fun _ => True) state.world state.base :=
  next_advances order (fun _ _ => trivial) trivial (fun _ _ _ => trivial)
    (fun _ _ _ _ => trivial) fun _ _ _ _ _ _ _ => trivial

/-- A small step leaves what is beneath as it is. -/
theorem stack_next (order : state.InOrder (.of trace)) :
    ∃ new, state.next.stack = new ++ state.base := by
  obtain ⟨-, new, placed, -⟩ := advances_next order
  exact ⟨new, placed⟩

/-- A small step takes no deferred back. -/
theorem onward_next (order : state.InOrder (.of trace)) :
    state.world.Onward state.next.world :=
  (advances_next order).changed.onward

/-- A small step leaves the frame alone that waits for a step that goes on. -/
theorem stepping_mem_base (waiting : Frame.stepping machine ∈ state.stack)
    (goesOn : ∀ ending, .ended machine ending ∉ state.occurrences) :
    Frame.stepping machine ∈ state.base := by
  obtain ⟨world, stack, control⟩ := state
  cases control with
  | program _ | task _ | halted _ => exact waiting
  | reply reply =>
      cases stack with
      | nil => cases waiting
      | cons frame rest =>
          rcases List.mem_cons.mp waiting with rfl | below
          · exact absurd (List.mem_singleton.mpr rfl) (goesOn _)
          · exact below
  | unwind payload =>
      cases stack with
      | nil => cases waiting
      | cons frame rest =>
          rcases List.mem_cons.mp waiting with rfl | below
          · exact absurd (List.mem_singleton.mpr rfl) (goesOn _)
          · exact below

/-- The frame that waits for the end of a step stays until then. -/
theorem stepping_mem_next (order : state.InOrder (.of trace))
    (waiting : Frame.stepping machine ∈ state.stack)
    (goesOn : ∀ ending, .ended machine ending ∉ state.occurrences) :
    Frame.stepping machine ∈ state.next.stack := by
  obtain ⟨new, placed⟩ := stack_next order
  rw [placed]
  exact List.mem_append_right _ (stepping_mem_base waiting goesOn)

/-- Where the end of a step happens, nothing else does. -/
theorem occurrences_of_ended {ending : StepEnd}
    (ended : .ended machine ending ∈ state.occurrences) :
    state.occurrences = [.ended machine ending] := by
  obtain ⟨callers, placed, how⟩ := drives_of_occurrences ended rfl
  obtain ⟨world, stack, control⟩ := state
  subst placed
  cases ending with
  | returned result =>
      obtain ⟨reply, rfl, rfl⟩ := how
      rfl
  | panicked payload =>
      cases how
      rfl

end State

/-- A step under way is waited for on the stack. -/
theorem Reaches.stepping_mem (reaches : Reaches trace state) {position : Position}
    (under : ((Chronicle.of trace).life machine).step = some (position, none)) :
    Frame.stepping machine ∈ state.stack := by
  induction reaches generalizing position with
  | begin program => cases under
  | again program reached ended ih =>
      have member := ih under
      rw [ended.1] at member
      cases member
  | @next trace state reached ih =>
      rw [Chronicle.of_append] at under
      by_cases called : ∃ position, .called machine position ∈ state.occurrences
      · obtain ⟨position, called⟩ := called
        rw [(State.next_of_calls (State.drives_of_occurrences called rfl)).2]
        exact List.mem_cons_self ..
      · simp only [not_exists] at called
        have before := Chronicle.step_before
          (fun occurrence member position same => called position (same ▸ member)) under
        refine State.stepping_mem_next reached.inOrder (ih before) ?_
        intro ending ended
        rw [State.occurrences_of_ended ended] at under
        simp [Chronicle.after, before] at under

/-! ## Courses at all times -/

namespace Phase

variable {world : World} {frame : Frame} {control : Control} {position : Position}
  {values : List Value} {deferred : Nat} {outcome : Outcome}

/-- The deeds of a machine are a course of its plan, and it has taken no step too many. -/
def Goes (machine : Nat) (form : Machine) (trace : List Occurrence) : Prop :=
  (∃ point, Course form (deeds machine trace) point) ∧ calls machine trace ≤ form.steps

theorem Expects.goes (expects : Expects machine form trace world values deferred)
    (called : calls machine trace ≤ values.length + 2) : Goes machine form trace := by
  obtain ⟨work, fate, planned, -, course⟩ := expects.planned
  have bound := Machine.lt_steps_of_work planned
  exact ⟨⟨_, course⟩, by omega⟩

theorem Settles.goes (settles : Settles machine form trace outcome) :
    Goes machine form trace := by
  obtain ⟨⟨point, stands, -⟩, called⟩ := settles
  exact ⟨⟨point, stands.course⟩, called⟩

theorem Breaks.goes {payload : Payload} (breaks : Breaks machine form trace payload) :
    Goes machine form trace := by
  obtain ⟨⟨point, stands⟩, -, called⟩ := breaks
  exact ⟨⟨point, stands.course⟩, called⟩

theorem Waits.goes (waits : Waits machine form trace world frame) :
    Goes machine form trace := by
  by_cases launch : ∃ place number deferred, frame = .launched place number deferred
  · obtain ⟨place, number, deferred, rfl⟩ := launch
    obtain ⟨-, values, -, expects, -, called⟩ := waits_launched.mp waits
    exact expects.goes (by omega)
  · obtain ⟨values, point, pauses, bound⟩ :=
      waits.pauses fun place number deferred same => launch ⟨place, number, deferred, same⟩
    exact ⟨⟨point, pauses.stands.course⟩, by rw [pauses.called]; omega⟩

theorem Acts.goes (acts : Acts machine form trace world position control)
    (library : form.isLibrary = true) : Goes machine form trace := by
  cases control with
  | program _ | halted _ => exact acts.elim
  | unwind payload => exact Breaks.goes acts
  | task task =>
      cases task with
      | step place begun =>
          obtain ⟨-, -, ⟨-, begins⟩ | ⟨values, deferred, -, resumes⟩⟩ := acts
          · have course := begins.stands.course
            have bound := course.launches_lt_steps library
            exact ⟨⟨_, course⟩, by rw [begins.called]; omega⟩
          · exact resumes.expects.goes (Nat.le_of_eq resumes.called)
      | _ => exact acts.elim
  | reply reply =>
      simp only [Acts] at acts
      split at acts
      · obtain ⟨values, -, rests⟩ := acts
        exact rests.expects.goes (by rw [rests.called]; omega)
      · exact acts.goes
      · exact acts.goes

end Phase

/-- At all times the deeds of a library machine are a course of its plan. -/
theorem Reaches.goes (reaches : Reaches trace state)
    (started : ((Chronicle.of trace).life machine).form = some form)
    (library : form.isLibrary = true) : Phase.Goes machine form trace := by
  obtain ⟨seated, controlled⟩ := reaches.seated
  have phase := seated.phases machine form started library
  cases step : ((Chronicle.of trace).life machine).step with
  | none =>
      simp only [Phase, step] at phase
      obtain ⟨stands, -, uncalled⟩ := phase
      exact ⟨⟨_, stands.course⟩, by omega⟩
  | some last =>
      obtain ⟨position, ending⟩ := last
      cases ending with
      | none =>
          simp only [Phase, step] at phase
          rcases Stack.seats_or_stepper (reaches.stepping_mem step) with steps | ⟨frame, seats⟩
          · exact (controlled.acts machine form position steps started library step).goes library
          · exact (phase frame seats).goes
      | some how =>
          cases how with
          | panicked payload =>
              simp only [Phase, step] at phase
              exact phase.goes
          | returned answer =>
              simp only [Phase, step] at phase
              cases answer with
              | complete _ | fail _ => exact phase.goes
              | await resumeAt deferred =>
                  obtain ⟨values, -, rests⟩ := phase
                  exact rests.expects.goes (by rw [rests.called]; omega)

end Stepwise
