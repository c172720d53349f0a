import Stepwise.Proofs.Custody.Runs

/-!
# Orderly histories

Each occurrence is permitted by what happened before it: a step is called only where
the last one left off, an observer is told once and only what the machine's life
explains, a work begins once.  A history in which every occurrence is permitted is all
that is needed to reason about a run as a whole.
-/

namespace Stepwise

namespace Chronicle

/-- An occurrence may come next, after what has happened so far. -/
def Permits (chronicle : Chronicle) : Occurrence → Prop
  | .started machine _ _ => chronicle.life machine = .unborn
  | .called machine position =>
      (chronicle.life machine).told = none ∧ (chronicle.life machine).cancelled = false ∧
        ((position = .notStarted ∧ (chronicle.life machine).step = none) ∨
          ∃ resumeAt deferred, position = .suspension resumeAt ∧
            (chronicle.life machine).Awaits resumeAt deferred)
  | .ended machine _ =>
      (chronicle.life machine).told = none ∧
        ∃ position, (chronicle.life machine).step = some (position, none)
  | .abandoned machine =>
      (chronicle.life machine).told = none ∧
        ∃ resumeAt deferred, (chronicle.life machine).Awaits resumeAt deferred
  | .told machine outcome =>
      (chronicle.life machine).told = none ∧ (chronicle.life machine).Explains outcome
  | .dispatched deferred _ _ => chronicle.work deferred = none
  | .began deferred program =>
      ∃ launcher, chronicle.work deferred = some ⟨program, launcher, .waiting⟩
  | .worked deferred _ =>
      ∃ program launcher, chronicle.work deferred = some ⟨program, launcher, .running⟩
  | .discarded deferred =>
      ∃ program launcher, chronicle.work deferred = some ⟨program, launcher, .waiting⟩
  | .cancelled _ => True
  | .shown _ _ _ => True
  | .announced _ _ => True
  | .interrupted _ => True

/-- Each of several occurrences may come next, one after the other. -/
def PermitsAll (chronicle : Chronicle) : List Occurrence → Prop
  | [] => True
  | occurrence :: rest =>
      chronicle.Permits occurrence ∧ (chronicle.after occurrence).PermitsAll rest

theorem permitsAll_append (chronicle : Chronicle) (trace more : List Occurrence) :
    chronicle.PermitsAll (trace ++ more) ↔
      chronicle.PermitsAll trace ∧ (chronicle.afterAll trace).PermitsAll more := by
  induction trace generalizing chronicle with
  | nil => simp [PermitsAll]
  | cons occurrence rest ih => simp [PermitsAll, ih, and_assoc]

end Chronicle

namespace State

variable {chronicle : Chronicle} {world : World} {stack : Stack}

theorem permits_dispatch {target : Target} {work : Program}
    {launcher : Option (Place × Nat)} (custody : Custody world.ledger chronicle [] stack) :
    chronicle.PermitsAll (world.dispatch target work launcher) := by
  have unlaunched := unlaunched_next custody
  unfold World.dispatch
  split
  · refine ⟨unlaunched, ?_⟩
    split
    · exact ⟨⟨launcher, by simp [Chronicle.after]⟩, trivial⟩
    · trivial
  · trivial

theorem permits_launch {place : Place} {pipeline : Pipeline} {number : Nat} {input : Value}
    (custody : Custody world.ledger chronicle [] stack) :
    chronicle.PermitsAll (world.launch place pipeline number input) := by
  unfold World.launch
  split
  · trivial
  · exact permits_dispatch custody

theorem permits_takes {deferred : Nat} {occurrence : Value → Occurrence}
    (allowed : ∀ value, chronicle.Permits (occurrence value)) :
    chronicle.PermitsAll (world.takes deferred occurrence) := by
  unfold World.takes
  split
  · next value _ => exact ⟨allowed value, trivial⟩
  · trivial

theorem permits_stepped {place : Place} {position : Position}
    (custody : Custody world.ledger chronicle [] stack) :
    chronicle.PermitsAll (world.stepped place position) := by
  unfold World.stepped
  split
  · split
    · exact permits_launch custody
    · trivial
  · split
    · exact permits_takes fun _ => trivial
    · trivial
  · exact ⟨trivial, trivial⟩
  · split
    · exact permits_takes fun _ => trivial
    · trivial
  · split
    · exact permits_takes fun _ => trivial
    · trivial
  · trivial

theorem permits_requested {request : Request}
    (custody : Custody world.ledger chronicle [] stack) :
    chronicle.PermitsAll (world.requested request) := by
  have unborn : chronicle.life world.activations.size = .unborn :=
    custody.unowned_next_machine.2
  cases request with
  | start _ _ _ _ => exact ⟨unborn, trivial⟩
  | startAwaitable _ _ _ _ _ => exact ⟨unborn, trivial⟩
  | run _ runtime _ =>
      simp only [World.requested]
      split
      · exact ⟨unborn, trivial⟩
      · trivial
  | cancel handle =>
      simp only [World.requested]
      split
      · exact ⟨trivial, trivial⟩
      · trivial
  | dispatch _ _ _ _ _ => exact permits_dispatch custody
  | _ => trivial

/-- The claim in hand of a machine that has not been told its outcome. -/
theorem untold_of_claim {old : Holding} {machine : Nat}
    (custody : Custody world.ledger chronicle [old] stack)
    (was : old.assets = [.claim machine]) : (chronicle.life machine).told = none := by
  obtain ⟨found, claimed⟩ := custody.claimed machine was
  exact claimed.untold

theorem permits_discarded {owned : Owned}
    (custody : Custody world.ledger chronicle owned.holdings stack) :
    chronicle.PermitsAll (World.discarded owned) := by
  cases owned with
  | writer _ | activation _ | loop _ | runtime _ => trivial
  | continuation dropped =>
      have held : Custody world.ledger chronicle [.continuation .loose dropped] stack := custody
      have admits : Site.loose.Admits world.ledger chronicle dropped := held.rightful_head
      have abandoned {machine : Nat} (carried : dropped.assets = [.resumption machine]) :
          chronicle.Permits (.abandoned machine) := by
        obtain ⟨found, suspended⟩ := held.suspended machine carried
        obtain ⟨scheduler, deferred, again, lookup, -, pending⟩ := admits.suspends carried
        cases suspended.lookup.symm.trans lookup
        rcases suspended.waits with ⟨absent, -⟩ | ⟨resumeAt, awaited, -, -, awaits⟩
        · simp [absent] at pending
        · exact ⟨suspended.untold, resumeAt, awaited, awaits⟩
      cases dropped with
      | callback _ | signal _ => trivial
      | handOver _ machine => exact ⟨abandoned rfl, trivial⟩
      | resumption machine => exact ⟨abandoned rfl, trivial⟩
      | job deferred work =>
          obtain ⟨launcher, recorded⟩ := admits
          exact ⟨⟨work, launcher, recorded⟩, trivial⟩

theorem permits_performed {task : Task}
    (custody : Custody world.ledger chronicle task.holdings stack) :
    chronicle.PermitsAll (world.performed task) := by
  cases task with
  | publish _ _ | schedule _ _ | resume _ => trivial
  | discard owned => exact permits_discarded custody
  | step place position => exact permits_stepped custody
  | run continuation =>
      cases continuation with
      | job deferred work =>
          have held : Custody world.ledger chronicle
              [.continuation .loose (.job deferred work)] stack := custody
          exact ⟨held.rightful_head, trivial⟩
      | _ => trivial
  | advance machine =>
      have held : Custody world.ledger chronicle [.advancing machine] stack := custody
      obtain ⟨found, claimed⟩ := held.claimed machine rfl
      obtain ⟨again, lookup, ready⟩ := held.rightful_head
      cases claimed.lookup.symm.trans lookup
      have present : world.activations.get? machine = some found := lookup
      simp only [World.performed, present]
      split
      · trivial
      · next uncancelled =>
          refine ⟨⟨claimed.untold, ?_, ?_⟩, trivial⟩
          · rw [← claimed.cancelled]
            simpa using uncancelled
          · rcases ready with ⟨position, -, unstepped⟩ |
              ⟨resumeAt, deferred, position, awaits, -⟩
            · exact .inl ⟨position, unstepped⟩
            · exact .inr ⟨resumeAt, deferred, position, awaits⟩
  | finish machine outcome =>
      have held : Custody world.ledger chronicle [.finishing machine outcome] stack := custody
      simp only [World.performed]
      split
      · split
        · exact ⟨⟨untold_of_claim held rfl, held.rightful_head⟩, trivial⟩
        · trivial
      · trivial

/-- The step that a frame waits for has been called and has not ended. -/
theorem permits_ended {machine : Nat} {ending : StepEnd}
    (custody : Custody world.ledger chronicle [.stepping machine] stack) :
    chronicle.Permits (.ended machine ending) := by
  obtain ⟨found, -, step⟩ := custody.rightful_head
  exact ⟨untold_of_claim custody rfl, found.position, step⟩

theorem permits_returned {frame : Frame} {reply : Reply}
    (custody : Custody world.ledger chronicle frame.holdings stack) :
    chronicle.PermitsAll (world.returned reply frame) := by
  cases frame with
  | stepping machine => exact ⟨permits_ended custody, trivial⟩
  | working deferred =>
      have held : Custody world.ledger chronicle [.working deferred] stack := custody
      exact ⟨held.rightful_head, trivial⟩
  | inspected place number value =>
      simp only [World.returned]
      split
      · split
        · exact permits_launch custody
        · trivial
      · trivial
  | announced place announcement =>
      simp only [World.returned]
      split
      · split
        · exact permits_dispatch custody
        · exact permits_dispatch custody
        · exact ⟨trivial, trivial⟩
        · trivial
      · trivial
  | _ => trivial

theorem permits_unwound {frame : Frame} {payload : Payload}
    (custody : Custody world.ledger chronicle frame.holdings stack) :
    chronicle.PermitsAll (World.unwound payload frame) := by
  cases frame with
  | stepping machine => exact ⟨permits_ended custody, trivial⟩
  | working deferred =>
      have held : Custody world.ledger chronicle [.working deferred] stack := custody
      exact ⟨held.rightful_head, trivial⟩
  | inspected _ _ _ | announced _ _ => exact ⟨trivial, trivial⟩
  | _ => trivial

/-- What happens in a small step is permitted. -/
theorem permits_occurrences {state : State} (order : state.InOrder chronicle) :
    chronicle.PermitsAll state.occurrences := by
  obtain ⟨world, stack, control⟩ := state
  cases control with
  | program program =>
      cases program with
      | ret _ | panic _ => trivial
      | call request rest => exact permits_requested order
  | task task => exact permits_performed order
  | reply reply =>
      cases stack with
      | nil => trivial
      | cons frame stack => exact permits_returned (Custody.pop order)
  | unwind payload =>
      cases stack with
      | nil => trivial
      | cons frame stack => exact permits_unwound (Custody.pop order)
  | halted reason => trivial

end State

/-- Everything that happens in a run is permitted by what happened before. -/
theorem Reaches.permitsAll {trace : List Occurrence} {state : State}
    (reaches : Reaches trace state) : Chronicle.blank.PermitsAll trace := by
  induction reaches with
  | begin program => trivial
  | again program _ _ ih => exact ih
  | next reached ih =>
      rw [Chronicle.permitsAll_append]
      exact ⟨ih, State.permits_occurrences reached.inOrder⟩

end Stepwise
