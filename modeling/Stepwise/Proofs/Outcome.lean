import Stepwise.Proofs.Drive
import Stepwise.Proofs.Resumption

/-!
# Outcomes of machines

The observer of a machine is told one outcome, which is what the machine's last step,
a request to cancel it, or the loss of its resumption makes of it; nothing happens to
the machine afterwards.  Whatever settles an outcome has the observer told by the next
small step, before the call in progress goes on.
-/

namespace Stepwise

/-- The outcome that the end of a step called at a position settles, unless the machine
goes on or broke the protocol. -/
def StepEnd.outcome? (position : Position) : StepEnd → Option Outcome
  | .returned (.await _ _) => none
  | .returned (.complete value) => some (.ok value)
  | .returned (.fail error) => if error.isFatal then none else some (.error error)
  | .panicked payload => some (.error (.stepPanicked position payload.message))

/-- What is done to tell an observer an outcome. -/
def Observer.call (outcome : Outcome) : Observer → Control
  | .callback body => .program (body outcome)
  | .writer deferred => .task (.publish deferred outcome)

/-- A life explains what another explains that has the same last step, when it is no less
cancelled or abandoned. -/
theorem Life.Explains.congr {life later : Life} {outcome : Outcome}
    (explains : life.Explains outcome) (step : later.step = life.step)
    (cancelled : life.cancelled = true → later.cancelled = true)
    (abandoned : life.abandoned = true → later.abandoned = true) :
    later.Explains outcome := by
  cases explains with
  | completed ended => exact .completed (step.trans ended)
  | failed ended ordinary => exact .failed (step.trans ended) ordinary
  | panicked ended => exact .panicked (step.trans ended)
  | cancelled asked awaits => exact .cancelled (cancelled asked) (by rwa [Life.Awaits, step])
  | abandoned lost awaits => exact .abandoned (abandoned lost) (by rwa [Life.Awaits, step])

namespace Chronicle

variable {chronicle : Chronicle} {machine : Nat} {outcome : Outcome}

/-- What was told stays told. -/
theorem told_after {occurrence : Occurrence} (permitted : chronicle.Permits occurrence)
    (told : (chronicle.life machine).told = some outcome) :
    ((chronicle.after occurrence).life machine).told = some outcome := by
  cases occurrence with
  | started other form observer =>
      have different : machine ≠ other := by
        intro same
        subst same
        have unborn : chronicle.life machine = .unborn := permitted
        simp [unborn, Life.unborn] at told
      simpa [after, different] using told
  | told other settled =>
      have different : machine ≠ other := by
        intro same
        subst same
        have absent := permitted.1
        simp [told] at absent
      simpa [after, different] using told
  | called other _ | ended other _ | cancelled other | abandoned other =>
      by_cases same : machine = other
      · subst same
        simpa [after] using told
      · simpa [after, same] using told
  | dispatched _ _ _ | began _ _ | worked _ _ | discarded _ => exact told
  | shown _ _ _ | announced _ _ | interrupted _ => exact told

/-- A machine whose observer was told is told nothing more and steps no more. -/
theorem settled_of_told {newer : List Occurrence} (permitted : chronicle.PermitsAll newer)
    (told : (chronicle.life machine).told = some outcome) :
    ∀ occurrence ∈ newer, (∀ other, occurrence ≠ .told machine other) ∧
      (∀ position, occurrence ≠ .called machine position) ∧
      ∀ ending, occurrence ≠ .ended machine ending := by
  induction newer generalizing chronicle with
  | nil => simp
  | cons first rest ih =>
      obtain ⟨allowed, later⟩ := permitted
      intro occurrence member
      rcases List.mem_cons.mp member with rfl | among
      · refine ⟨?_, ?_, ?_⟩ <;>
          (intro _ same; subst same; have absent := allowed.1; simp [told] at absent)
      · exact ih later (told_after allowed told) occurrence among

/-- What a machine was told, its life explains ever after. -/
theorem explains_after {occurrence : Occurrence} (permitted : chronicle.Permits occurrence)
    (explained : ∀ outcome, (chronicle.life machine).told = some outcome →
      (chronicle.life machine).Explains outcome)
    (told : ((chronicle.after occurrence).life machine).told = some outcome) :
    ((chronicle.after occurrence).life machine).Explains outcome := by
  cases occurrence with
  | started other _ _ =>
      by_cases same : machine = other
      · simp [after, same, Life.unborn] at told
      · simpa [after, same] using explained outcome (by simpa [after, same] using told)
  | told other settled =>
      by_cases same : machine = other
      · subst same
        simp only [after, life_onLife, if_true, Option.some.injEq] at told ⊢
        subst told
        exact permitted.2.congr rfl (fun held => held) fun held => held
      · simpa [after, same] using explained outcome (by simpa [after, same] using told)
  | called other _ | ended other _ | abandoned other =>
      by_cases same : machine = other
      · subst same
        have absent := permitted.1
        simp [after, absent] at told
      · simpa [after, same] using explained outcome (by simpa [after, same] using told)
  | cancelled other =>
      by_cases same : machine = other
      · subst same
        simp only [after, life_onLife, if_true] at told ⊢
        exact (explained outcome told).congr rfl (fun _ => rfl) fun held => held
      · simpa [after, same] using explained outcome (by simpa [after, same] using told)
  | dispatched _ _ _ | began _ _ | worked _ _ | discarded _ => exact explained outcome told
  | shown _ _ _ | announced _ _ | interrupted _ => exact explained outcome told

theorem explains_afterAll {occurrences : List Occurrence}
    (permitted : chronicle.PermitsAll occurrences)
    (explained : ∀ outcome, (chronicle.life machine).told = some outcome →
      (chronicle.life machine).Explains outcome)
    (told : ((chronicle.afterAll occurrences).life machine).told = some outcome) :
    ((chronicle.afterAll occurrences).life machine).Explains outcome := by
  induction occurrences generalizing chronicle with
  | nil => exact explained outcome told
  | cons occurrence rest ih =>
      obtain ⟨allowed, later⟩ := permitted
      exact ih later (fun _ told => explains_after allowed explained told) told

/-- The machine's life explains the outcome that it ended with. -/
theorem explains_of_told {older newer : List Occurrence}
    (permitted : Chronicle.blank.PermitsAll (older ++ .told machine outcome :: newer)) :
    ((Chronicle.of older).life machine).Explains outcome ∧
      ∀ occurrence ∈ newer, (∀ other, occurrence ≠ .told machine other) ∧
        (∀ position, occurrence ≠ .called machine position) ∧
        ∀ ending, occurrence ≠ .ended machine ending := by
  obtain ⟨-, allowed, later⟩ := (permitsAll_append _ _ _).mp permitted
  have told : (((of older).after (.told machine outcome)).life machine).told =
      some outcome := by simp [after]
  exact ⟨allowed.2, settled_of_told later told⟩

end Chronicle

/-- What a machine was told, its life explains. -/
theorem Reaches.explains {trace : List Occurrence} {state : State} {machine : Nat}
    {outcome : Outcome} (reaches : Reaches trace state)
    (told : ((Chronicle.of trace).life machine).told = some outcome) :
    ((Chronicle.of trace).life machine).Explains outcome := by
  refine Chronicle.explains_afterAll reaches.permitsAll ?_ told
  intro _ absent
  cases absent

/-- No machine's life explains a breach of protocol. -/
theorem Life.Explains.not_invalid {life : Life} {outcome : Outcome}
    (explains : life.Explains outcome) (violation : Violation) :
    outcome ≠ .error (.invalid violation) := by
  intro same
  subst same
  cases explains with
  | failed _ ordinary => cases ordinary

namespace State

variable {chronicle : Chronicle} {world : World} {stack : Stack} {state : State}
  {machine : Nat} {outcome : Outcome} {ending : StepEnd}

/-- The observer is told an outcome now: its call comes next, on top of what waits
already. -/
structure Tells (state : State) (machine : Nat) (observer : Option Observer)
    (outcome : Outcome) : Prop where
  occurrences : state.occurrences = [.told machine outcome]
  control : ∃ given, observer = some given ∧ state.next.control = given.call outcome
  stack : state.next.stack = .releasing machine :: state.stack

/-- A settled outcome is told to the observer that the machine was started with. -/
theorem tells_of_finish
    (custody : Custody world.ledger chronicle [.finishing machine outcome] stack) :
    Tells ⟨world, stack, .task (.finish machine outcome)⟩ machine
      (chronicle.life machine).observer outcome := by
  obtain ⟨found, claimed⟩ := custody.claimed machine rfl
  have present : world.activations.get? machine = some found := claimed.lookup
  obtain ⟨isSome, same⟩ := claimed.observer
  obtain ⟨observer, observes⟩ := Option.isSome_iff_exists.mp isSome
  refine ⟨?_, ⟨observer, same.symm.trans observes, ?_⟩, ?_⟩
  · simp [occurrences, World.performed, present, observes]
  · simp only [next, carryingOut, finishing, present, observes]
    cases observer <;> rfl
  · simp only [next, carryingOut, finishing, present, observes]
    cases observer <;> rfl

/-- A settled outcome that comes next is told by the small step after it. -/
theorem tells_next (order : state.InOrder chronicle)
    (settled : state.next.control = .task (.finish machine outcome))
    (same : ((chronicle.afterAll state.occurrences).life machine).observer =
      (chronicle.life machine).observer) :
    state.next.Tells machine (chronicle.life machine).observer outcome := by
  have later := next_inOrder order
  rw [← same]
  cases arrived : state.next with
  | mk world stack control =>
      rw [arrived] at settled later
      subst settled
      exact tells_of_finish later

/-- The step of a machine that ends had been called, at the position of the machine. -/
theorem called_of_ends {callers : Stack} (order : state.InOrder chronicle)
    (ends : state.Ends machine ending callers) :
    state.occurrences = [.ended machine ending] ∧
      ∃ found, state.world.activations.get? machine = some found ∧
        (chronicle.life machine).step = some (found.position, none) := by
  obtain ⟨world, stack, control⟩ := state
  obtain ⟨rfl, how⟩ := ends
  cases ending with
  | returned result =>
      obtain ⟨reply, rfl, rfl⟩ := how
      have custody : Custody world.ledger chronicle [.stepping machine] callers :=
        Custody.pop order
      exact ⟨rfl, custody.rightful_head⟩
  | panicked payload =>
      cases how
      have custody : Custody world.ledger chronicle [.stepping machine] callers :=
        Custody.pop order
      exact ⟨rfl, custody.rightful_head⟩

/-- The end of a step that settles an outcome has it told by the next small step, before
those who called the step go on. -/
theorem tells_of_ends {callers : Stack} {position : Position}
    (order : state.InOrder chronicle) (ends : state.Ends machine ending callers)
    (called : (chronicle.life machine).step = some (position, none))
    (settles : ending.outcome? position = some outcome) :
    state.next.stack = callers ∧
      state.next.Tells machine (chronicle.life machine).observer outcome := by
  obtain ⟨happens, found, lookup, same⟩ := called_of_ends order ends
  cases called.symm.trans same
  have observer : ((chronicle.afterAll state.occurrences).life machine).observer =
      (chronicle.life machine).observer := by simp [happens, Chronicle.after]
  obtain ⟨world, stack, control⟩ := state
  obtain ⟨rfl, how⟩ := ends
  have present : world.activations.get? machine = some found := lookup
  cases ending with
  | panicked payload =>
      cases how
      cases settles
      refine ⟨rfl, tells_next order ?_ observer⟩
      simp [next, unwindingThrough, stepPanicked, present]
  | returned result =>
      obtain ⟨reply, rfl, rfl⟩ := how
      cases result : world.judge machine reply with
      | await _ _ => simp [result, StepEnd.outcome?] at settles
      | complete value =>
          simp only [result, StepEnd.outcome?, Option.some.injEq] at settles
          subst settles
          constructor
          · simp [next, returning, stepped, result]
          · exact tells_next order (by simp [next, returning, stepped, result]) observer
      | fail error =>
          simp only [result, StepEnd.outcome?] at settles
          split at settles
          · cases settles
          · next ordinary =>
              cases settles
              constructor
              · simp [next, returning, stepped, result, ordinary]
              · exact tells_next order
                  (by simp [next, returning, stepped, result, ordinary]) observer

/-- A step that breaks the protocol makes its resumption panic, with no outcome. -/
theorem panics_of_ends {callers : Stack} {error : Error}
    (ends : state.Ends machine (.returned (.fail error)) callers)
    (fatal : error.isFatal = true) :
    state.next.control = .reply .done ∧
      state.next.stack = .unwinding [.activation machine]
        (.text s!"state machine {machineNumber machine}: {error.message}") :: callers := by
  obtain ⟨world, stack, control⟩ := state
  obtain ⟨rfl, reply, rfl, result⟩ := ends
  constructor <;> simp [next, returning, stepped, result, fatal, violating, dropping]

/-- A resumption that is dropped has the shutdown told by the next small step. -/
theorem tells_of_abandons (order : state.InOrder chronicle)
    (abandons : state.Abandons machine) :
    state.next.stack = state.stack ∧
      state.next.Tells machine (chronicle.life machine).observer (.error .shutdown) := by
  obtain ⟨continuation, drops, carried⟩ := abandons
  obtain ⟨found, lookup, status⟩ := drop_of_inOrder order drops carried
  obtain ⟨world, stack, control⟩ := state
  subst drops
  have present : world.activations.get? machine = some found := lookup
  cases continuation with
  | callback _ | job _ _ | signal _ => simp [Continuation.assets] at carried
  | handOver _ other | resumption other =>
      simp only [Continuation.assets, List.cons.injEq, Asset.resumption.injEq, and_true]
        at carried
      subst carried
      constructor
      · simp [next, carryingOut, discarding, abandoning, present, status]
      · refine tells_next order ?_ ?_
        · simp [next, carryingOut, discarding, abandoning, present, status]
        · simp [occurrences, World.performed, World.discarded, Chronicle.after]

end State

/-- Exactly-once, correctly classified outcome.  A machine is told one outcome, which
its life explains and which is no breach of protocol; no step of it is called or ends
afterwards.  The observer it was started with is the one that is called.  Whatever
settles an outcome, the end of a step or the loss of the resumption, has it told by
the next small step, before those who are waiting go on; a step that breaks the protocol
makes its resumption panic instead. -/
theorem outcome_exactly_once {trace : List Occurrence} {state : State}
    (reaches : Reaches trace state) :
    (∀ machine outcome older newer, trace = older ++ .told machine outcome :: newer →
      ((Chronicle.of older).life machine).Explains outcome ∧
      (∀ violation, outcome ≠ .error (.invalid violation)) ∧
      ∀ occurrence ∈ newer, (∀ other, occurrence ≠ .told machine other) ∧
        (∀ position, occurrence ≠ .called machine position) ∧
        ∀ ending, occurrence ≠ .ended machine ending) ∧
    (∀ machine outcome, .told machine outcome ∈ state.occurrences →
      state.Tells machine ((Chronicle.of trace).life machine).observer outcome) ∧
    (∀ machine ending, .ended machine ending ∈ state.occurrences →
      ∃ callers position, state.Ends machine ending callers ∧
        ((Chronicle.of trace).life machine).step = some (position, none) ∧
        (∀ outcome, ending.outcome? position = some outcome →
          state.next.stack = callers ∧
          state.next.Tells machine ((Chronicle.of trace).life machine).observer outcome) ∧
        ∀ error, ending = .returned (.fail error) → error.isFatal = true →
          state.next.control = .reply .done ∧
          state.next.stack = .unwinding [.activation machine]
            (.text s!"state machine {machineNumber machine}: {error.message}") :: callers) ∧
    (∀ machine, .abandoned machine ∈ state.occurrences →
      state.next.stack = state.stack ∧
      state.next.Tells machine ((Chronicle.of trace).life machine).observer
        (.error .shutdown)) := by
  have order := reaches.inOrder
  refine ⟨?_, ?_, ?_, ?_⟩
  · rintro machine outcome older newer rfl
    obtain ⟨explains, settled⟩ := Chronicle.explains_of_told reaches.permitsAll
    exact ⟨explains, explains.not_invalid, settled⟩
  · intro machine outcome told
    have finishes : state.control = .task (.finish machine outcome) :=
      State.drives_of_occurrences told rfl
    obtain ⟨world, stack, control⟩ := state
    subst finishes
    exact State.tells_of_finish order
  · intro machine ending ended
    obtain ⟨callers, ends⟩ : ∃ callers, state.Ends machine ending callers :=
      State.drives_of_occurrences ended rfl
    obtain ⟨-, found, -, called⟩ := State.called_of_ends order ends
    refine ⟨callers, found.position, ends, called,
      fun outcome settles => State.tells_of_ends order ends called settles, ?_⟩
    rintro error rfl fatal
    exact State.panics_of_ends ends fatal
  · intro machine abandoned
    exact State.tells_of_abandons order (State.drives_of_occurrences abandoned rfl)

/-- Start a machine that completes at its first step. -/
def Program.completing : Program :=
  .call (.start (.shared "machine") (.custom fun _ => .ret (.outcome (.ok (.int 7))))
    .inline fun _ => .ret .done) .ret

/-- The end of that step has the value told by the next small step, and nothing is told
afterwards; a scheduler that drops a resumption has the shutdown told. -/
theorem outcome_exactly_once_completing :
    (∃ observer,
      ((State.ofProgram .initial .completing).walk 6).2.Tells 0 observer (.ok (.int 7))) ∧
    (∀ occurrence ∈ (((State.ofProgram .initial .completing).walk 12).1.drop 4),
      ∀ other, occurrence ≠ .told 0 other) ∧
    (∃ observer, ((State.ofProgram .initial .losing).walk 18).2.Tells 0 observer
      (.error .shutdown)) := by
  have completing := Reaches.begin .completing
  have losing := Reaches.begin .losing
  refine ⟨?_, ?_, ?_⟩
  · obtain ⟨callers, position, -, called, tells, -⟩ :=
      (outcome_exactly_once (completing.walk 5)).2.2.1 0
        (.returned (.complete (.int 7))) (.head _)
    cases called
    exact ⟨_, (tells _ rfl).2⟩
  · intro occurrence member
    exact (((outcome_exactly_once (completing.walk 12)).1 0 (.ok (.int 7))
      (((State.ofProgram .initial .completing).walk 12).1.take 3) _ rfl).2.2
        occurrence member).1
  · exact ⟨_, ((outcome_exactly_once (losing.walk 17)).2.2.2 0 (.head _)).2⟩

end Stepwise
