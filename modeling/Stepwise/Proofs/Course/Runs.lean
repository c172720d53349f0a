import Stepwise.Proofs.Course.Calls
import Stepwise.Proofs.Course.CubeRoots
import Stepwise.Proofs.Course.Pipelines

/-!
# Runs keep machines seated

Every small step is calm or a stride, the call of a step, or the end of one.  Each of
them keeps all machines in their seats, so they are in every state that a run comes to.
-/

namespace Stepwise

variable {trace : List Occurrence} {world : World} {stack : Stack} {machine : Nat}
  {place : Place} {frame : Frame}

/-- No panic is about to pass a launch within the step of a started machine. -/
def State.Sheltered (state : State) : Prop :=
  ∀ payload machine number deferred rest, state.control = .unwind payload →
    state.stack ≠ .launched (.started machine) number deferred :: rest

/-- The deferreds that user code can name were launched at no place. -/
theorem Ledger.Public.unlaunched {ledger : Ledger} {chronicle : Chronicle} {deferred : Nat}
    (known : ledger.Public chronicle deferred) (place : Place) :
    ¬ chronicle.Launched place deferred := by
  rintro ⟨work, number, recorded, launcher⟩
  rw [known.2 work recorded] at launcher
  cases launcher

/-- What a frame names user code may share, as far as custody goes. -/
theorem Frame.Shares.of_custody {shared : Nat → Prop} {chronicle : Chronicle}
    (custody : Custody world.ledger chronicle [] (frame :: stack))
    (known : ∀ deferred, world.ledger.Public chronicle deferred → shared deferred)
    (wakers : ∀ deferred poisons, frame = .waking deferred poisons → shared deferred) :
    frame.Shares shared world where
  receipts := by
    intro deferred held
    have rightful : world.ledger.Public chronicle deferred :=
      custody.rightful (.receipt deferred) (by simp [held])
    exact ⟨known deferred rightful, rightful.1⟩
  wakers := wakers

/-! ## Calm small steps -/

/-- What happens elsewhere starts no library machine that is stepped. -/
theorem Stack.Free.afterAll {occurrences : List Occurrence} (free : stack.Free (.of trace))
    (foreign : ∀ occurrence ∈ occurrences, ∀ machine,
      occurrence.place? ≠ some (.started machine)) :
    stack.Free (.of (trace ++ occurrences)) := by
  induction occurrences generalizing trace with
  | nil => simpa using free
  | cons occurrence rest ih =>
      have next : stack.Free (.of (trace ++ [occurrence])) := by
        intro machine form steps was
        have away := foreign occurrence (List.mem_cons_self ..) machine
        rw [Chronicle.of_snoc, (Chronicle.step_after away).2] at was
        exact free machine form steps was
      have all := ih next fun other member => foreign other (List.mem_cons_of_mem _ member)
      simpa using all

/-- A calm small step stacks no step of a machine. -/
theorem State.Calm.free {may shared : Nat → Prop} {after : State} {chronicle : Chronicle}
    (calm : State.Calm may shared world stack after) (free : stack.Free chronicle) :
    after.stack.Free chronicle := by
  obtain ⟨plain, placed, all⟩ := calm.stack
  intro machine form steps
  rw [placed] at steps
  cases plain with
  | nil => exact free machine form steps
  | cons above rest =>
      have quiet := Frame.steps_of_isPlain (List.all_eq_true.mp all above (by simp))
      simp [Stack.stepper?, quiet] at steps

namespace Seated

/-- A calm small step keeps machines seated, with what happens elsewhere meanwhile. -/
theorem calmly {may shared : Nat → Prop} {after : State} {occurrences : List Occurrence}
    (seated : Seated trace world stack) (free : stack.Free (.of trace))
    (unlaunched : ∀ deferred, may deferred → ∀ place,
      ¬ (Chronicle.of trace).Launched place deferred)
    (calm : State.Calm may shared world stack after)
    (permitted : (Chronicle.of trace).PermitsAll occurrences)
    (foreign : ∀ occurrence ∈ occurrences, ∀ machine,
      occurrence.place? ≠ some (.started machine)) :
    after.Seated (trace ++ occurrences) := by
  have still := seated.calm free unlaunched calm
  refine ⟨still.seated.afterAll permitted foreign, still.controlled.place, ?_⟩
  intro machine form position steps was library
  have outside := (calm.free free).afterAll foreign machine form steps was
  simp [outside] at library

/-- So it is with a small step that takes no outcome. -/
theorem quietly {after : State} {occurrences : List Occurrence}
    (seated : Seated trace world stack) (free : stack.Free (.of trace))
    (calm : State.Calm (fun _ => False) (fun _ => True) world stack after)
    (permitted : (Chronicle.of trace).PermitsAll occurrences)
    (foreign : ∀ occurrence ∈ occurrences, ∀ machine,
      occurrence.place? ≠ some (.started machine)) :
    after.Seated (trace ++ occurrences) :=
  seated.calmly free (fun _ never => never.elim) calm permitted foreign

/-- What sits within the step at a place waits as the phase of the machine says. -/
theorem waits_within (seated : Seated trace world (frame :: stack))
    (custody : Custody world.ledger (.of trace) [] (frame :: stack))
    (within : frame.place? = some place) (machine : Nat) (form : Machine)
    (here : place = .started machine)
    (was : ((Chronicle.of trace).life machine).form = some form)
    (library : form.isLibrary = true) : Phase.Waits machine form trace world frame :=
  seated.waits custody (seated.grounded.founded.1 machine (by rw [within, here])) was library

/-- A frame that is within no step may be stacked. -/
theorem push (seated : Seated trace world stack) (free : stack.Free (.of trace))
    (outside : frame.place? = none) : Seated trace world (frame :: stack) := by
  refine ⟨{ seated.grounded with founded := ⟨?_, seated.grounded.founded⟩, launches := ?_ }, ?_⟩
  · intro machine within
    simp [outside] at within
  · intro place number deferred member
    rcases List.mem_cons.mp member with rfl | below
    · cases outside
    · exact seated.grounded.launches place number deferred below
  · intro machine form was library
    refine (seated.phases machine form was library).carry (fun _ found => found)
      (fun _ _ taken => taken) ?_
    intro other seats
    rcases Stack.seats_cons.mp seats with ⟨-, steps⟩ | seats
    · simp [free machine form steps was] at library
    · exact seats

end Seated

namespace State

/-- Where control acts for no machine, no library machine waits right beneath for its
step. -/
theorem Seated.free {state : State} {inHand : List Holding} (seated : state.Seated trace)
    (custody : Custody state.world.ledger (.of trace) inHand state.stack)
    (idle : ∀ machine form position,
      ¬ Phase.Acts machine form trace state.world position state.control) :
    state.stack.Free (.of trace) := by
  intro machine form steps was
  cases library : form.isLibrary with
  | false => rfl
  | true =>
      obtain ⟨found, -, under⟩ :=
        custody.step_of_stepping (Stack.stepping_mem_of_stepper steps)
      exact absurd (seated.controlled.acts machine form _ steps was library under)
        (idle machine form _)

end State

/-- A hook is told of something between two works. -/
theorem Phase.Waits.pauses {form : Machine} (waits : Phase.Waits machine form trace world frame)
    (hook : ∀ place number deferred, frame ≠ .launched place number deferred) :
    ∃ values point, Phase.Pauses machine form trace world values point ∧
      values.length < form.steps := by
  cases frame with
  | launched place number deferred => exact absurd rfl (hook place number deferred)
  | inspected place number value =>
      cases form with
      | pipeline _ _ _ _ =>
          obtain ⟨-, values, -, pauses⟩ := waits
          exact ⟨_, _, pauses, pauses.stands.course.launches_lt_steps rfl⟩
      | _ => exact waits.elim
  | announced place announcement =>
      cases form with
      | cubeRoot _ _ _ _ _ =>
          obtain ⟨-, heard⟩ := waits
          cases announcement with
          | started => exact ⟨_, _, heard, by simp [Machine.steps]⟩
          | cube _ =>
              obtain ⟨cubed, pauses⟩ := heard
              exact ⟨_, _, pauses, by simp [Machine.steps]⟩
          | root _ =>
              obtain ⟨rooted, cubed, pauses⟩ := heard
              exact ⟨_, _, pauses, by simp [Machine.steps]⟩
          | finished =>
              obtain ⟨rooted, cubed, value, -, pauses⟩ := heard
              exact ⟨_, _, pauses, by simp [Machine.steps]⟩
      | _ => exact waits.elim
  | _ => cases form <;> exact waits.elim

namespace State

/-! ## The start of a machine -/

/-- A machine that was started just now is fresh. -/
theorem Seated.born {after : State} {form : Machine} {observer : Observer}
    (seated : after.Seated trace)
    (permitted : (Chronicle.of trace).Permits (.started machine form observer))
    (idle : deeds machine trace = [] ∧ calls machine trace = 0)
    (unlaunched : ∀ deferred, ¬ (Chronicle.of trace).Launched (.started machine) deferred)
    (body : after.world.body? (.started machine) = some form.body)
    (outside : Stack.stepper? after.stack = none) :
    after.Seated (trace ++ [.started machine form observer]) := by
  have lifeOf (other : Nat) :
      (Chronicle.of (trace ++ [.started machine form observer])).life other =
        if other = machine then
          { Life.unborn with form := some form, observer := some observer }
        else (Chronicle.of trace).life other := by
    rw [Chronicle.of_snoc]
    rfl
  refine ⟨⟨seated.seated.grounded.after permitted ?_, ?_⟩, seated.controlled.place, ?_⟩
  · rintro other ⟨⟩
    simp [body]
  · intro other plan was library
    by_cases same : other = machine
    · subst same
      rw [lifeOf, if_pos rfl] at was
      cases was
      have through : (Chronicle.of trace).Over other none := by
        intro deferred work number recorded launcher _
        exact absurd ⟨work, number, recorded, launcher⟩ (unlaunched deferred)
      have course : Course form (deeds other trace) .fresh := by
        rw [idle.1]
        exact .fresh
      have stands : Phase.Stands other form trace .fresh := ⟨course, through⟩
      have step :
          ((Chronicle.of (trace ++ [.started other form observer])).life other).step =
            none := by
        rw [lifeOf, if_pos rfl]
        rfl
      simp only [Phase, step]
      exact ⟨stands.silent rfl rfl, body, by simp [Occurrence.calls, idle.2]⟩
    · rw [lifeOf, if_neg same] at was
      have foreign : (Occurrence.started machine form observer).place? ≠
          some (.started other) := by
        simp [Occurrence.place?, Ne.symm same]
      exact (seated.seated.phases other plan was library).after permitted foreign
  · intro other plan position steps
    rw [outside] at steps
    cases steps

theorem body?_newActivation (form : Machine) (scheduler : Scheduler) (observer : Observer) :
    (world.newActivation form.body scheduler observer).1.body?
      (.started world.activations.size) = some form.body := by
  simp [World.newActivation, World.body?, World.record, Activation.fresh]

/-- What a request does is done at no place, unless it starts a machine. -/
theorem place_of_requested {request : Request} {occurrence : Occurrence}
    (member : occurrence ∈ world.requested request) :
    occurrence.place? = none ∨
      ∃ form observer, world.requested request =
          [.started world.activations.size form observer] ∧
        (requesting world stack request).world.body?
          (.started world.activations.size) = some form.body ∧
        Stack.stepper? (requesting world stack request).stack = none := by
  have pushed (form : Machine) (scheduler : Scheduler) (observer : Observer) :=
    @body?_newActivation world form scheduler observer
  cases request with
  | start _ form scheduler observer =>
      exact .inr ⟨form, .callback observer, rfl, pushed form _ _, rfl⟩
  | startAwaitable handle form scheduler receipt early =>
      refine .inr ⟨form, .writer world.deferreds.size, rfl, ?_, ?_⟩
      · cases early <;> exact pushed form scheduler (.writer world.deferreds.size)
      · cases early <;> rfl
  | run thread runtime form =>
      simp only [World.requested] at member
      cases lookup : world.runtimes.find? runtime with
      | none => simp [lookup] at member
      | some pool =>
          refine .inr ⟨form, .writer world.deferreds.size, ?_, ?_, ?_⟩
          · simp [World.requested, lookup]
          · simp only [requesting, withNamed, lookup]
            exact pushed form .inline (.writer world.deferreds.size)
          · simp only [requesting, withNamed, lookup]
            rfl
  | cancel handle =>
      simp only [World.requested] at member
      split at member
      · cases List.mem_singleton.mp member
        exact .inl rfl
      · cases member
  | dispatch _ _ _ target work =>
      rcases World.place_of_dispatch member with away | away <;> exact .inl away
  | _ => cases member

/-- What requests do keeps machines seated. -/
theorem requesting_seated {request : Request} (seated : Stepwise.Seated trace world stack)
    (free : stack.Free (.of trace)) (custody : Custody world.ledger (.of trace) [] stack) :
    (requesting world stack request).Seated (trace ++ world.requested request) := by
  have calm : State.Calm (world.ledger.Public (.of trace)) (fun _ => True) world stack
      (requesting world stack request) :=
    requesting_calm custody (fun _ _ => trivial) trivial
  have unlaunched (deferred : Nat) (known : world.ledger.Public (.of trace) deferred) :=
    known.unlaunched
  have permitted := @permits_requested (.of trace) world stack request custody
  by_cases elsewhere : ∀ occurrence ∈ world.requested request, occurrence.place? = none
  · refine seated.calmly free unlaunched calm permitted ?_
    intro occurrence member machine
    simp [elsewhere occurrence member]
  · simp only [Classical.not_forall] at elsewhere
    obtain ⟨occurrence, member, somewhere⟩ := elsewhere
    rcases @place_of_requested world stack request occurrence member with
      nowhere | ⟨form, observer, happened, body, above⟩
    · exact absurd nowhere somewhere
    · have absent : world.body? (.started world.activations.size) = none := by
        simp [World.body?, Store.get?, Store.size]
      rw [happened] at permitted ⊢
      refine (seated.calm free unlaunched calm).born permitted.1
        (seated.grounded.unborn _ absent) ?_ body above
      intro deferred launched
      have present := seated.grounded.owners _ deferred launched
      simp [absent] at present

/-! ## Tasks -/

/-- What a task does is done at no place, unless it is about a step. -/
theorem place_of_performed {task : Task} {occurrence : Occurrence}
    (member : occurrence ∈ world.performed task)
    (notAdvance : ∀ machine, task ≠ .advance machine)
    (notStep : ∀ place position, task ≠ .step place position) : occurrence.place? = none := by
  cases task with
  | run continuation =>
      cases continuation with
      | job _ _ =>
          cases List.mem_singleton.mp member
          rfl
      | _ => cases member
  | discard owned =>
      cases owned with
      | continuation dropped =>
          cases dropped with
          | callback _ | signal _ => cases member
          | _ =>
              cases List.mem_singleton.mp member
              rfl
      | _ => cases member
  | finish machine outcome =>
      simp only [World.performed] at member
      split at member
      · split at member
        · cases List.mem_singleton.mp member
          rfl
        · cases member
      · cases member
  | advance machine => exact absurd rfl (notAdvance machine)
  | step place position => exact absurd rfl (notStep place position)
  | _ => cases member

/-- The step of a body is run. -/
theorem runningStep_seated {position : Position}
    (seated : State.Seated trace ⟨world, stack, .task (.step place position)⟩)
    (custody : Custody world.ledger (.of trace) [] stack) :
    (runningStep world stack place position).Seated (trace ++ world.stepped place position) := by
  obtain ⟨still, controlled⟩ := seated
  have steps (machine : Nat) (here : place = .started machine) :
      Stack.stepper? stack = some machine := controlled.place machine (by rw [← here]; rfl)
  have under (machine : Nat) (above : Stack.stepper? stack = some machine) :
      ∃ position, ((Chronicle.of trace).life machine).step = some (position, none) := by
    obtain ⟨found, -, under⟩ :=
      custody.step_of_stepping (Stack.stepping_mem_of_stepper above)
    exact ⟨_, under⟩
  have acts (machine : Nat) (form : Machine) (above : Stack.stepper? stack = some machine)
      (was : ((Chronicle.of trace).life machine).form = some form)
      (library : form.isLibrary = true) :
      place = .started machine ∧
        Phase.Acts machine form trace world position (.task (.step place position)) := by
    obtain ⟨begun, step⟩ := under machine above
    have act := controlled.acts machine form begun above was library step
    have same : position = begun := act.2.1
    subst same
    exact ⟨act.1, act⟩
  have seat : Seat place trace world stack :=
    .of_custody custody steps fun machine form above was library =>
      (acts machine form above was library).1
  have acting (machine : Nat) (form : Machine) (here : place = .started machine)
      (was : ((Chronicle.of trace).life machine).form = some form)
      (library : form.isLibrary = true) :
      Phase.Acts machine form trace world position (.task (.step place position)) :=
    (acts machine form (steps machine here) was library).2
  cases found : world.body? place with
  | none =>
      have silent : world.stepped place position = [] := by simp [World.stepped, found]
      simp only [runningStep, found, silent, List.append_nil]
      refine seat.act (still.but place) rfl ?_
      intro machine form at_ here was
      have present := seat.present machine here
      simp [found] at present
  | some body =>
      cases body with
      | pipeline pipeline =>
          simp only [runningStep, found]
          exact steppingPipeline_seated seat still custody found acting
      | cubeRoot demo =>
          simp only [runningStep, found]
          exact steppingCubeRoot_seated seat still custody found acting
      | custom step =>
          have silent : world.stepped place position = [] := by simp [World.stepped, found]
          simp only [runningStep, found, silent, List.append_nil]
          refine seat.act (still.but place) rfl ?_
          intro machine form at_ here was library
          -- The body of a library machine is none of custom steps.
          obtain ⟨rfl, -, ⟨-, begins⟩ | ⟨values, deferred, -, resumes⟩⟩ :=
            acting machine form here was library
          · rw [begins.body] at found
            cases form <;> cases found
            cases library
          · rw [resumes.body] at found
            cases form with
            | custom _ => cases library
            | pipeline _ _ _ _ => simp [Machine.bodyAfter, Body.await] at found
            | cubeRoot _ _ _ _ _ =>
                simp only [Machine.bodyAfter, Body.await, Option.some.injEq] at found
                split at found <;> cases found

/-- What the library does keeps machines seated. -/
theorem carryingOut_seated {task : Task}
    (seated : State.Seated trace ⟨world, stack, .task task⟩)
    (custody : Custody world.ledger (.of trace) task.holdings stack) :
    (carryingOut world stack task).Seated (trace ++ world.performed task) := by
  have permitted := @permits_performed (.of trace) world stack task custody
  cases task with
  | step place position => exact runningStep_seated seated custody
  | advance machine =>
      have free := seated.free custody fun _ _ _ acts => acts.elim
      have held : Custody world.ledger (.of trace) [.advancing machine] stack := custody
      obtain ⟨found, claimed⟩ := held.claimed machine rfl
      have lookup : world.activations.get? machine = some found := claimed.lookup
      simp only [World.performed, lookup] at permitted
      simp only [carryingOut, advancing, World.performed, lookup]
      cases cancelled : found.cancelled with
      | true =>
          simp only [if_true]
          exact seated.seated.quietly free ⟨.refl world, ⟨[], rfl, rfl⟩, rfl⟩ trivial
            fun _ member => (List.not_mem_nil member).elim
      | false =>
          simp only [cancelled] at permitted
          exact called_seated seated.seated free held lookup permitted.1
  | _ =>
      have free := seated.free custody fun _ _ _ acts => acts.elim
      refine seated.seated.quietly free (carryingOut_calm custody (by simp) (by simp)) permitted ?_
      intro occurrence member machine
      simp [place_of_performed member (by simp) (by simp)]

/-! ## Replies and panics -/

/-- A waker is woken. -/
theorem awakening_seated {deferred : Nat} (seated : Stepwise.Seated trace world stack)
    (free : stack.Free (.of trace)) : (awakening world stack deferred).Seated trace := by
  rcases @awakening_calm (fun _ => False) (fun _ => True) world stack deferred with
    calm | ⟨found, waker, later, -, -, changed, called⟩
  · exact seated.calm free (fun _ never => never.elim) calm
  · have calm : State.Calm (fun _ => False) (fun _ => True) world stack
        ⟨later, stack, .reply .done⟩ := ⟨changed trivial, ⟨[], rfl, rfl⟩, rfl⟩
    have still := seated.calm free (fun _ never => never.elim) calm
    rw [called]
    exact ⟨still.seated.push free rfl, fun _ here => (nomatch here), fun _ _ _ steps =>
      nomatch steps⟩

theorem returning_seated {reply : Reply}
    (seated : State.Seated trace ⟨world, frame :: stack, .reply reply⟩)
    (custody : Custody world.ledger (.of trace) [] (frame :: stack)) :
    (returning world stack reply frame).Seated (trace ++ world.returned reply frame) := by
  have beneath : Custody world.ledger (.of trace) frame.holdings stack := custody.pop
  have permitted := @permits_returned (.of trace) world stack frame reply beneath
  have still := seated.seated.pop
  have elsewhere (outside : frame.place? = none)
      (unfired : ∀ deferred, frame ≠ .firing deferred [])
      (nowhere : ∀ occurrence ∈ world.returned reply frame, occurrence.place? = none) :
      (returning world stack reply frame).Seated (trace ++ world.returned reply frame) := by
    have calm : State.Calm (fun _ => False) (fun _ => True) world stack
        (returning world stack reply frame) :=
      returning_calm outside unfired (.of_custody custody (fun _ _ => trivial) fun _ _ _ => trivial)
        fun _ _ _ _ _ => trivial
    refine still.quietly (seated.seated.free custody outside) calm permitted ?_
    intro occurrence member machine
    simp [nowhere occurrence member]
  cases frame with
  | inspected place number value =>
      exact inspectedValue_seated (.of_frame seated.seated custody rfl rfl) still beneath
        (seated.seated.waits_within custody rfl)
  | announced place announcement =>
      exact announcedProgress_seated (.of_frame seated.seated custody rfl rfl) still beneath
        (seated.seated.waits_within custody rfl)
  | launched place number deferred =>
      simp only [World.returned, List.append_nil]
      exact launchedWork_seated (.of_frame seated.seated custody rfl rfl) still
        (seated.seated.grounded.launches place number deferred (List.mem_cons_self ..))
        (seated.seated.waits_within custody rfl)
  | stepping machine =>
      obtain ⟨ended, free⟩ := seated.seated.ended custody
        fun form position was library under step =>
          Phase.of_reply (seated.controlled.acts machine form position rfl was library under)
            step
      have calm : State.Calm (fun _ => False) (fun _ => True) world stack
          (stepped world stack machine (world.judge machine reply)) :=
        stepped_calm fun _ _ _ => trivial
      exact ended.calm free (fun _ never => never.elim) calm
  | working deferred =>
      refine elsewhere rfl (by simp) fun occurrence member => ?_
      cases List.mem_singleton.mp member
      rfl
  | firing deferred rest =>
      cases rest with
      | nil =>
          simp only [World.returned, List.append_nil]
          exact awakening_seated still (seated.seated.free custody rfl)
      | cons _ _ => exact elsewhere rfl (by simp) fun _ member => (List.not_mem_nil member).elim
  | _ => exact elsewhere rfl (by simp) fun _ member => (List.not_mem_nil member).elim

/-- The hook of a machine panics, and its step is left. -/
theorem interrupted_seated {payload : Payload}
    (seated : Stepwise.Seated trace world (frame :: stack))
    (custody : Custody world.ledger (.of trace) [] (frame :: stack))
    (within : frame.place? = some place) (quiet : frame.holdings = [])
    (hook : ∀ place number deferred, frame ≠ .launched place number deferred) :
    State.Seated (trace ++ [.interrupted place]) ⟨world, stack, .unwind payload⟩ := by
  have seat : Seat place trace world stack := .of_frame seated custody quiet within
  have but := (seated.pop.but place).after seat.present
    (show (Chronicle.of trace).Permits (.interrupted place) from trivial)
    (fun other here => (Option.some.inj here).symm)
  have later : Seat place (trace ++ [.interrupted place]) world stack :=
    seat.carry seat.present fun machine => by rw [Chronicle.of_snoc]; rfl
  refine later.act but rfl ?_
  intro machine form _ here was library
  rw [Chronicle.of_snoc] at was
  obtain ⟨values, point, ⟨stands, -, called⟩, bound⟩ :=
    (seated.waits_within custody within machine form here was library).pauses hook
  have uncalled : calls machine (trace ++ [.interrupted place]) = calls machine trace := by
    simp [Occurrence.calls]
  exact ⟨⟨point, stands.silent rfl rfl⟩, .inl (by simp [here]), by omega⟩

/-- What panics do keeps machines seated. -/
theorem unwindingThrough_seated {payload : Payload}
    (seated : State.Seated trace ⟨world, frame :: stack, .unwind payload⟩)
    (custody : Custody world.ledger (.of trace) [] (frame :: stack))
    (sheltered : State.Sheltered ⟨world, frame :: stack, .unwind payload⟩) :
    (unwindingThrough world stack payload frame).Seated
      (trace ++ World.unwound payload frame) := by
  have beneath : Custody world.ledger (.of trace) frame.holdings stack := custody.pop
  have permitted := @permits_unwound (.of trace) world stack frame payload beneath
  have still := seated.seated.pop
  have shares : frame.Shares (fun _ => True) world :=
    .of_custody custody (fun _ _ => trivial) fun _ _ _ => trivial
  have elsewhere (outside : frame.place? = none)
      (nowhere : ∀ occurrence ∈ World.unwound payload frame, occurrence.place? = none) :
      (unwindingThrough world stack payload frame).Seated
        (trace ++ World.unwound payload frame) := by
    refine still.quietly (seated.seated.free custody outside) (unwindingThrough_calm shares)
      permitted ?_
    intro occurrence member machine
    simp [nowhere occurrence member]
  cases frame with
  | inspected place number value =>
      exact interrupted_seated seated.seated custody rfl rfl fun _ _ _ same => nomatch same
  | announced place announcement =>
      exact interrupted_seated seated.seated custody rfl rfl fun _ _ _ same => nomatch same
  | launched place number deferred =>
      have seat : Seat place trace world stack := .of_frame seated.seated custody rfl rfl
      simp only [World.unwound, List.append_nil]
      refine seat.act (still.but place) rfl ?_
      rintro machine form _ rfl
      exact absurd rfl (sheltered payload machine number deferred stack rfl)
  | stepping machine =>
      obtain ⟨ended, free⟩ := seated.seated.ended custody
        fun form position was library under step =>
          Phase.of_unwind (seated.controlled.acts machine form position rfl was library under)
            step
      have calm : State.Calm (fun _ => False) (fun _ => True) world stack
          (unwindingThrough world stack payload (.stepping machine)) :=
        unwindingThrough_calm shares
      exact ended.calm free (fun _ never => never.elim) calm
  | working deferred =>
      refine elsewhere rfl fun occurrence member => ?_
      cases List.mem_singleton.mp member
      rfl
  | _ => exact elsewhere rfl fun _ member => (List.not_mem_nil member).elim

/-- Each small step keeps machines seated, unless a panic passes a launch. -/
theorem next_seated {state : State} (seated : state.Seated trace)
    (order : state.InOrder (.of trace)) (sheltered : state.Sheltered) :
    state.next.Seated (trace ++ state.occurrences) := by
  obtain ⟨world, stack, control⟩ := state
  -- Control that only goes from one form to another acts for no machine either way.
  have same {before after : Control} (seated : State.Seated trace ⟨world, stack, before⟩)
      (plain : after.place? = none)
      (acts : ∀ machine form position, Phase.Acts machine form trace world position before →
        Phase.Acts machine form trace world position after) :
      State.Seated (trace ++ []) ⟨world, stack, after⟩ := by
    rw [List.append_nil]
    refine ⟨seated.seated, ?_, ?_⟩
    · intro machine here
      rw [plain] at here
      cases here
    · intro machine form position steps was library under
      exact acts machine form position
        (seated.controlled.acts machine form position steps was library under)
  cases control with
  | program program =>
      cases program with
      | ret reply => exact same seated rfl fun _ _ _ acts => acts.elim
      | panic payload => exact same seated rfl fun _ _ _ acts => acts.elim
      | call request rest =>
          have custody : Custody world.ledger (.of trace) [] stack := order
          have free := seated.free custody fun _ _ _ acts => acts.elim
          exact requesting_seated (seated.seated.push free rfl)
            (fun _ _ steps => nomatch steps) (custody.light rfl)
  | task task => exact carryingOut_seated seated order
  | reply reply =>
      cases stack with
      | nil => exact same seated rfl fun _ _ _ acts => acts
      | cons frame stack => exact returning_seated seated order
  | unwind payload =>
      cases stack with
      | nil => exact same seated rfl fun _ _ _ acts => acts
      | cons frame stack => exact unwindingThrough_seated seated order sheltered
  | halted reason => exact same seated rfl fun _ _ _ acts => acts

end State

end Stepwise
