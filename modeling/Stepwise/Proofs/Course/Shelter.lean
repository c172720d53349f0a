import Stepwise.Proofs.Course.Launches
import Stepwise.Proofs.Course.Runs

/-!
# No panic passes a launch

The deferred of a launch within the step of a started machine is hidden: user code has no
receipt for it, and the machine does not await it yet.  So nobody listens to it, and what
is stacked above the launch either catches every panic or makes none.  With this the
machines are in their seats in every state that a run comes to.
-/

namespace Stepwise

variable {trace : List Occurrence} {world : World} {stack above below rest : Stack}
  {shared : Nat → Prop} {deferred : Nat} {control : Control} {state : State}

/-- A step awaits only what it can await. -/
theorem World.mayAwait_of_judge {machine resumeAt : Nat} {reply : Reply}
    (admitted : world.judge machine reply = .await resumeAt deferred) :
    world.mayAwait machine deferred = true := by
  unfold World.judge at admitted
  split at admitted
  · split at admitted
    · next allowed =>
        cases admitted
        exact allowed
    · cases admitted
  · next unasked => exact absurd admitted (unasked _ _)

/-- A launch within the step of a started machine is on the stack. -/
def Stack.Hides (stack : Stack) (deferred : Nat) : Prop :=
  ∃ machine number, Frame.launched (.started machine) number deferred ∈ stack

/-- The frames that a small step leaves alone: a reply or a panic takes down the innermost
one. -/
def State.base (state : State) : Stack :=
  match state.control with
  | .reply _ | .unwind _ => state.stack.tail
  | _ => state.stack

namespace State

/-! ## Small steps go on above -/

theorem awakening_advances
    (woken : ∀ found, world.deferreds.get? deferred = some found →
      found.waker.isSome = true → shared deferred) :
    (awakening world stack deferred).Advances shared world stack := by
  rcases @awakening_calm (fun _ => True) shared world stack deferred with
    calm | ⟨found, waker, later, lookup, kept, changed, called⟩
  · exact calm.advances
  · have known : shared deferred := woken found lookup (by simp [kept])
    rw [called]
    exact ⟨(changed known).toDiscreet, [.waking deferred (!stack.isPanicking)], rfl,
      .waking known (by simp [lookup])⟩

theorem advancing_advances {machine : Nat} :
    (advancing world stack machine).Advances shared world stack := by
  unfold advancing
  split
  · exact replying_advances (.same rfl rfl)
  · split
    · exact .mild [] rfl (.same rfl rfl)
    · exact .mild [.stepping machine] rfl (.same rfl rfl)

theorem carryingOut_advances {task : Task}
    (custody : Custody world.ledger (.of trace) task.holdings stack) :
    (carryingOut world stack task).Advances shared world stack := by
  cases task with
  | advance machine => exact advancing_advances
  | step place position => exact runningStep_advances
  | _ =>
      refine @Calm.advances shared world stack _ (fun _ => True) (carryingOut_calm custody ?_ ?_)
      · simp
      · simp

/-- Every small step goes on above what it leaves alone, when what user code can name is
shared, and so is what wakers and steps name. -/
theorem next_advances (order : state.InOrder (.of trace))
    (known : ∀ deferred, state.world.ledger.Public (.of trace) deferred → shared deferred)
    (fresh : shared state.world.deferreds.size)
    (wakers : ∀ deferred poisons, Frame.waking deferred poisons ∈ state.stack →
      shared deferred)
    (woken : ∀ deferred found, state.world.deferreds.get? deferred = some found →
      found.waker.isSome = true → shared deferred)
    (awaits : ∀ machine reply resumeAt deferred rest, state.stack = .stepping machine :: rest →
      state.world.judge machine reply = .await resumeAt deferred → shared deferred) :
    state.next.Advances shared state.world state.base := by
  obtain ⟨world, stack, control⟩ := state
  cases control with
  | program program =>
      cases program with
      | ret reply => exact .mild [] rfl (.same rfl rfl)
      | panic payload => exact .mild [] rfl (.same rfl rfl)
      | call request rest =>
          have custody : Custody world.ledger (.of trace) [] stack := order
          have calm : State.Calm (world.ledger.Public (.of trace)) shared world
              (.program rest :: stack)
              (requesting world (.program rest :: stack) request) :=
            requesting_calm custody known fresh
          exact (Calm.above [.program rest] rfl calm).advances
  | task task => exact carryingOut_advances order
  | reply reply =>
      cases stack with
      | nil => exact .mild [] rfl (.same rfl rfl)
      | cons frame rest =>
          have custody : Custody world.ledger (.of trace) [] (frame :: rest) := order
          have shares : frame.Shares shared world := .of_custody custody known
            fun deferred poisons same => wakers deferred poisons (by simp [same])
          cases within : frame.place? with
          | some place => exact returning_within_advances within
          | none =>
              by_cases fired : ∃ deferred, frame = .firing deferred []
              · obtain ⟨deferred, rfl⟩ := fired
                exact awakening_advances (woken deferred)
              · simp only [not_exists] at fired
                have calm : State.Calm (fun _ => True) shared world rest
                    (returning world rest reply frame) := by
                  refine returning_calm within fired shares ?_
                  rintro machine resumeAt deferred rfl admitted
                  exact awaits machine reply resumeAt deferred rest rfl admitted
                exact calm.advances
  | unwind payload =>
      cases stack with
      | nil => exact .mild [] rfl (.same rfl rfl)
      | cons frame rest =>
          have custody : Custody world.ledger (.of trace) [] (frame :: rest) := order
          have shares : frame.Shares shared world := .of_custody custody known
            fun deferred poisons same => wakers deferred poisons (by simp [same])
          have calm : State.Calm (fun _ => True) shared world rest
              (unwindingThrough world rest payload frame) := unwindingThrough_calm shares
          exact calm.advances
  | halted reason => exact .mild [] rfl (.same rfl rfl)

end State

/-! ## What goes on above a launch -/

/-- An outcome nobody listens for is on its way, until the reply. -/
theorem Settling.next (settling : Settling deferred above control)
    (unheard : world.Unheard deferred)
    (busy : ¬ (above = [] ∧ ∃ reply, control = .reply reply)) :
    ∃ later, (State.next ⟨world, above ++ rest, control⟩).stack = later ++ rest ∧
      Settling deferred later (State.next ⟨world, above ++ rest, control⟩).control := by
  cases settling with
  | dropped => exact ⟨[], rfl, .lost⟩
  | lost => exact ⟨[], rfl, .published⟩
  | settled => exact absurd ⟨rfl, _, rfl⟩ busy
  | published =>
      simp only [State.next, State.carryingOut, State.publishing, List.nil_append]
      cases lookup : world.deferreds.get? deferred with
      | none => exact ⟨[], rfl, .settled⟩
      | some found =>
          simp only [(unheard found lookup).1]
          exact ⟨[.firing deferred []], rfl, .fired⟩
  | fired =>
      simp only [State.next, State.returning, State.awakening, List.cons_append,
        List.nil_append]
      cases lookup : world.deferreds.get? deferred with
      | none => exact ⟨[], rfl, .settled⟩
      | some found =>
          obtain ⟨-, nobody, free⟩ := unheard found lookup
          simp only [nobody, free]
          exact ⟨[], rfl, .settled⟩

/-- What goes on above a launch goes on, until the reply. -/
theorem Dispatches.next (dispatches : Dispatches deferred above control)
    (unheard : world.Unheard deferred)
    (busy : ¬ (above = [] ∧ ∃ reply, control = .reply reply))
    (advances : (State.next ⟨world, above ++ rest, control⟩).Advances shared world
      (State.base ⟨world, above ++ rest, control⟩)) :
    ∃ later, (State.next ⟨world, above ++ rest, control⟩).stack = later ++ rest ∧
      Dispatches deferred later (State.next ⟨world, above ++ rest, control⟩).control := by
  cases dispatches with
  | settling settling =>
      obtain ⟨later, placed, goesOn⟩ := settling.next unheard busy
      exact ⟨later, placed, .settling goesOn⟩
  | @refused above _ record settling =>
      rw [List.append_assoc]
      by_cases settled : above = [] ∧ ∃ reply, control = .reply reply
      · obtain ⟨rfl, reply, rfl⟩ := settled
        exact ⟨[], rfl, .settling .settled⟩
      · obtain ⟨later, placed, goesOn⟩ := settling.next unheard settled
        exact ⟨later ++ [.recording record], by rw [placed, List.append_assoc], .refused goesOn⟩
  | @run above _ =>
      -- The work catches what would leave it; whatever else happens is stacked above.
      obtain ⟨-, new, placed, -⟩ := advances
      have deeper (higher : Stack)
          (base : State.base ⟨world, above ++ [.working deferred] ++ rest, control⟩ =
            higher ++ [.working deferred] ++ rest) :
          ∃ later, (State.next ⟨world, above ++ [.working deferred] ++ rest, control⟩).stack =
              later ++ rest ∧ Dispatches deferred later
            (State.next ⟨world, above ++ [.working deferred] ++ rest, control⟩).control := by
        refine ⟨new ++ higher ++ [.working deferred], ?_, .run⟩
        rw [placed, base]
        simp
      cases control with
      | program program => exact deeper above rfl
      | task task => exact deeper above rfl
      | halted reason => exact deeper above rfl
      | reply reply | unwind payload =>
          cases above with
          | nil => exact ⟨[], rfl, .settling .published⟩
          | cons frame higher => exact deeper higher rfl

/-! ## Launches stay secluded -/

/-- A launch within a step is above the frame that waits for the step. -/
theorem Stack.Founded.stepping_mem {machine number : Nat} (founded : stack.Founded)
    (member : Frame.launched (.started machine) number deferred ∈ stack) :
    Frame.stepping machine ∈ stack := by
  induction stack with
  | nil => cases member
  | cons frame rest ih =>
      rcases List.mem_cons.mp member with rfl | member
      · exact List.mem_cons_of_mem _ (Stack.stepping_mem_of_stepper (founded.1 machine rfl))
      · exact List.mem_cons_of_mem _ (ih founded.2 member)

/-- Launches on the stack are secluded: nobody can name their deferreds or listens to them,
and what goes on above them is their own. -/
structure State.Secluded (state : State) : Prop where
  given : ∀ deferred ∈ state.world.given,
    (state.world.deferreds.get? deferred).isSome = true ∧ ¬ state.stack.Hides deferred
  wakings : ∀ deferred poisons, Frame.waking deferred poisons ∈ state.stack →
    (state.world.deferreds.get? deferred).isSome = true ∧ ¬ state.stack.Hides deferred
  unheard : ∀ deferred, state.stack.Hides deferred → state.world.Unheard deferred
  shaped : ∀ above machine number deferred below,
    state.stack = above ++ .launched (.started machine) number deferred :: below →
      Dispatches deferred above state.control

namespace State

/-- Secluded launches are passed by no panic. -/
theorem Secluded.sheltered (secluded : state.Secluded) : state.Sheltered := by
  intro payload machine number deferred rest unwinds placed
  have dispatches := secluded.shaped [] machine number deferred rest placed
  rw [unwinds] at dispatches
  exact dispatches.ne_unwind

theorem Seated.unnamed (seated : state.Seated trace)
    (known : state.world.ledger.Public (.of trace) deferred) :
    ¬ state.stack.Hides deferred := by
  rintro ⟨machine, number, member⟩
  exact known.unlaunched _ (seated.seated.grounded.launches _ _ _ member)

/-- What the step of a machine is about to await is no launch beneath it. -/
theorem Seated.unawaited {machine : Nat} {reply : Reply} {resumeAt : Nat}
    {inHand : List Holding} (seated : state.Seated trace) (secluded : state.Secluded)
    (custody : Custody state.world.ledger (.of trace) inHand state.stack)
    (placed : state.stack = .stepping machine :: rest)
    (admitted : state.world.judge machine reply = .await resumeAt deferred) :
    ¬ state.stack.Hides deferred := by
  rintro ⟨other, number, member⟩
  have named := World.mayAwait_of_judge admitted
  simp only [World.mayAwait, Bool.or_eq_true, List.contains_iff_mem] at named
  rcases named with given | own
  · exact (secluded.given deferred given).2 ⟨other, number, member⟩
  · -- The launch is another one of the machine's own, whose step is under way beneath.
    cases body : state.world.body? (.started machine) with
    | none => simp [body] at own
    | some found =>
        have awaited : deferred ∈ found.awaited := by simpa [body] using own
        have launched := seated.seated.grounded.awaits _ found deferred body awaited
        have launch := seated.seated.grounded.launches _ _ _ member
        cases launched.unique launch
        rw [placed] at member custody
        have alone := custody.stepping_notMem_tail rfl
        have founded := seated.seated.grounded.founded
        rw [placed] at founded
        rcases List.mem_cons.mp member with same | member
        · cases same
        · exact alone (founded.2.stepping_mem member)

/-- The frames left alone are frames of the stack. -/
theorem mem_of_base {frame : Frame} (member : frame ∈ state.base) : frame ∈ state.stack := by
  unfold base at member
  split at member
  · exact List.mem_of_mem_tail member
  · exact List.mem_of_mem_tail member
  · exact member

/-- A secluded small step goes on above what it leaves alone, and shares only what no
launch hides. -/
theorem Secluded.advances (secluded : state.Secluded) (seated : state.Seated trace)
    (order : state.InOrder (.of trace))
    (custody : Custody state.world.ledger (.of trace) state.control.holdings state.stack) :
    state.next.Advances (fun deferred => ¬ state.stack.Hides deferred) state.world
      state.base := by
  refine next_advances order (fun _ => seated.unnamed) ?_ ?_ ?_ ?_
  · rintro ⟨machine, number, member⟩
    obtain ⟨work, launcher, recorded, -⟩ := seated.seated.grounded.launches _ _ _ member
    rw [unlaunched_next custody] at recorded
    cases recorded
  · exact fun deferred poisons member => (secluded.wakings deferred poisons member).2
  · intro deferred found lookup listening hidden
    obtain ⟨-, nobody, -⟩ := secluded.unheard deferred hidden found lookup
    simp [nobody] at listening
  · intro machine reply resumeAt deferred rest placed admitted
    exact seated.unawaited secluded custody placed admitted

/-- What a small step hides was hidden before, or was launched just now. -/
theorem Stacks.hides {after : State} {new base : Stack} (grown : after.Stacks shared world new)
    (hidden : Stack.Hides (new ++ base) deferred) :
    base.Hides deferred ∨
      (deferred = world.deferreds.size ∧ after.world.given = world.given ∧
        after.world.Unheard deferred) := by
  obtain ⟨machine, number, member⟩ := hidden
  have mild {frames : Stack} (all : frames.all Frame.isMild = true)
      (above : Frame.launched (.started machine) number deferred ∈ frames) : False := by
    have quiet := List.all_eq_true.mp all _ above
    cases quiet
  rcases List.mem_append.mp member with above | beneath
  · right
    cases grown with
    | mild all => exact (mild all above).elim
    | waking _ _ => simp at above
    | launch all _ _ given unheard =>
        rcases List.mem_append.mp above with higher | same
        · exact (mild all higher).elim
        · cases List.mem_singleton.mp same
          exact ⟨rfl, given, unheard⟩
  · exact .inl ⟨machine, number, beneath⟩

/-- What goes on above a launch that was stacked just now is its own. -/
theorem Stacks.dispatches {after : State} {new : Stack} {place : Place} {number : Nat}
    (grown : after.Stacks shared world new)
    (split : new = above ++ .launched place number deferred :: below) :
    Dispatches deferred above after.control := by
  have mild {frames : Stack} (all : frames.all Frame.isMild = true)
      (member : Frame.launched place number deferred ∈ frames) : False := by
    have quiet := List.all_eq_true.mp all _ member
    cases quiet
  cases grown with
  | mild all => exact (mild all (by simp [split])).elim
  | waking _ _ =>
      cases above with
      | nil => cases split
      | cons _ _ => simp at split
  | launch all dispatches _ _ _ =>
      rcases List.append_eq_append_iff.mp split with ⟨between, same, last⟩ | ⟨between, same, last⟩
      · cases between with
        | nil =>
            cases last
            simpa [same] using dispatches
        | cons _ _ => simp at last
      · cases between with
        | nil =>
            cases last
            simpa [same] using dispatches
        | cons first between =>
            cases last
            exact (mild all (by simp [same])).elim

/-- A small step takes down one frame at most. -/
theorem exists_above_base (state : State) : ∃ popped, state.stack = popped ++ state.base ∧
    (popped = [] → state.base ≠ [] → ∀ reply, state.control ≠ .reply reply) := by
  obtain ⟨world, stack, control⟩ := state
  cases control with
  | program _ | task _ | halted _ => exact ⟨[], rfl, fun _ _ _ same => nomatch same⟩
  | reply _ | unwind _ =>
      cases stack with
      | nil => exact ⟨[], rfl, fun _ nonempty => absurd rfl nonempty⟩
      | cons frame rest => exact ⟨[frame], rfl, fun empty => nomatch empty⟩

/-- What goes on above launches is their own after a small step too. -/
theorem Secluded.shape {machine number : Nat} (secluded : state.Secluded)
    (advances : state.next.Advances (fun deferred => ¬ state.stack.Hides deferred) state.world
      state.base)
    (split : state.next.stack = above ++ .launched (.started machine) number deferred :: below) :
    Dispatches deferred above state.next.control := by
  obtain ⟨changed, new, placed, grown⟩ := id advances
  obtain ⟨popped, stacked, busy⟩ := exists_above_base state
  -- A launch that was left alone goes on with what went on above it.
  have beneath {between : Stack}
      (base : state.base = between ++ .launched (.started machine) number deferred :: below)
      (higher : above = new ++ between) : Dispatches deferred above state.next.control := by
    have whole : state.stack = (popped ++ between) ++
        .launched (.started machine) number deferred :: below := by
      rw [stacked, base, List.append_assoc]
    have dispatches := secluded.shaped _ machine number deferred below whole
    have hidden : state.stack.Hides deferred := ⟨machine, number, by simp [whole]⟩
    have occupied : ¬ (popped ++ between = [] ∧ ∃ reply, state.control = .reply reply) := by
      rintro ⟨empty, reply, replies⟩
      obtain ⟨rfl, -⟩ := List.append_eq_nil_iff.mp empty
      exact busy rfl (by simp [base]) reply replies
    obtain ⟨world, stack, control⟩ := state
    cases whole
    obtain ⟨later, goesOn, still⟩ :=
      dispatches.next (secluded.unheard deferred hidden) occupied advances
    have same : later = above := List.append_cancel_right (goesOn.symm.trans split)
    rw [← same]
    exact still
  rw [placed] at split
  rcases List.append_eq_append_iff.mp split with ⟨between, higher, base⟩ | ⟨lower, same, base⟩
  · exact beneath base higher
  · cases lower with
    | nil => exact @beneath [] base.symm (by simpa using same.symm)
    | cons first lower =>
        cases base
        exact grown.dispatches same

/-- Each small step keeps launches secluded. -/
theorem Secluded.next (secluded : state.Secluded) (seated : state.Seated trace)
    (order : state.InOrder (.of trace)) : state.next.Secluded := by
  by_cases halted : ∃ reason, state.control = .halted reason
  · obtain ⟨reason, halted⟩ := halted
    have same : state.next = state := by simp [State.next, halted]
    rw [same]
    exact secluded
  have custody := order.custody (not_exists.mp halted)
  have advances := secluded.advances seated order custody
  obtain ⟨changed, new, placed, grown⟩ := id advances
  have absent : state.world.deferreds.get? state.world.deferreds.size = none := by
    simp [Store.get?, Store.size]
  have before {deferred : Nat} (hidden : state.base.Hides deferred) :
      state.stack.Hides deferred := by
    obtain ⟨machine, number, member⟩ := hidden
    exact ⟨machine, number, mem_of_base member⟩
  -- What is there and was not hidden before is not hidden now: only what is new is.
  have apart {deferred : Nat}
      (present : (state.world.deferreds.get? deferred).isSome = true)
      (unhidden : ¬ state.stack.Hides deferred) : ¬ state.next.stack.Hides deferred := by
    intro hidden
    rw [placed] at hidden
    rcases grown.hides hidden with beneath | ⟨rfl, -, -⟩
    · exact unhidden (before beneath)
    · simp [absent] at present
  refine ⟨?_, ?_, ?_, ?_⟩
  · intro deferred member
    rcases changed.given deferred member with was | ⟨unhidden, present⟩
    · obtain ⟨present, unhidden⟩ := secluded.given deferred was
      exact ⟨changed.grown deferred present, apart present unhidden⟩
    · refine ⟨present, fun hidden => ?_⟩
      rw [placed] at hidden
      rcases grown.hides hidden with beneath | ⟨rfl, same, -⟩
      · exact unhidden (before beneath)
      · rw [same] at member
        have was := (secluded.given _ member).1
        simp [absent] at was
  · intro deferred poisons member
    rw [placed] at member
    have sound : (state.world.deferreds.get? deferred).isSome = true ∧
        ¬ state.stack.Hides deferred := by
      rcases List.mem_append.mp member with above | beneath
      · have mild {frames : Stack} (all : frames.all Frame.isMild = true)
            (above : Frame.waking deferred poisons ∈ frames) : False := by
          have quiet := List.all_eq_true.mp all _ above
          cases quiet
        cases grown with
        | mild all => exact (mild all above).elim
        | waking known present =>
            cases List.mem_singleton.mp above
            exact ⟨present, known⟩
        | launch all _ _ _ _ =>
            rcases List.mem_append.mp above with higher | same
            · exact (mild all higher).elim
            · simp at same
      · exact secluded.wakings deferred poisons (mem_of_base beneath)
    exact ⟨changed.grown deferred sound.1, apart sound.1 sound.2⟩
  · intro deferred hidden
    rw [placed] at hidden
    rcases grown.hides hidden with beneath | ⟨-, -, unheard⟩
    · have was := before beneath
      exact changed.unheard deferred (fun apart => apart was) (secluded.unheard deferred was)
    · exact unheard
  · intro above machine number deferred below split
    exact secluded.shape advances split

end State

/-! ## Runs -/

/-- In the initial world everything is where it belongs. -/
theorem seated_initial : Seated [] World.initial [] where
  grounded :=
    { founded := trivial
      launches := fun _ _ _ member => nomatch member
      awaits := fun place body deferred found => by cases place <;> cases found
      owners := by
        rintro machine deferred ⟨work, number, recorded, -⟩
        cases recorded
      unborn := fun _ _ => ⟨rfl, rfl⟩ }
  phases := by
    intro machine form was
    cases was

/-- A program that begins acts for no machine. -/
theorem Seated.ofProgram (seated : Seated trace world []) (program : Program) :
    (State.ofProgram world program).Seated trace := by
  refine ⟨seated, ?_, ?_⟩
  · intro machine here
    cases here
  · intro machine form position steps
    cases steps

/-- In every state that a run comes to, the machines are in their seats and launches are
secluded. -/
theorem Reaches.seated_secluded (reaches : Reaches trace state) :
    state.Seated trace ∧ state.Secluded := by
  induction reaches with
  | begin program =>
      refine ⟨seated_initial.ofProgram program, ?_, ?_, ?_, ?_⟩
      · intro deferred member
        cases member
      · intro deferred poisons member
        cases member
      · rintro deferred ⟨machine, number, member⟩
        cases member
      · intro above machine number deferred below split
        simp [State.ofProgram] at split
  | next reached ih =>
      obtain ⟨seated, secluded⟩ := ih
      exact ⟨State.next_seated seated reached.inOrder secluded.sheltered,
        secluded.next seated reached.inOrder⟩
  | @again trace state program _ ended ih =>
      obtain ⟨⟨seated, -⟩, secluded⟩ := ih
      obtain ⟨world, stack, control⟩ := state
      obtain ⟨rfl, -⟩ := ended
      refine ⟨seated.ofProgram program, secluded.given, secluded.wakings, secluded.unheard, ?_⟩
      intro above machine number deferred below split
      simp [State.ofProgram] at split

/-- In every state that a run comes to, the machines are in their seats. -/
theorem Reaches.seated (reaches : Reaches trace state) : state.Seated trace :=
  reaches.seated_secluded.1

end Stepwise
