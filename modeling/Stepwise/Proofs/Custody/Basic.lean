import Stepwise.Proofs.Custody.Ledger

/-!
# Custody

A state is in good custody when every asset is owned as often as it should be,
and held where it should be.  A suspended machine has exactly one resumption, a
running one has at most one claim, a pending deferred has exactly one writer, and
a machine's shares are counted by its owners.  What happened before, as the
chronicle tells it, agrees with the machines and deferreds as they are.
-/

namespace Stepwise

/-- The outcome that dispatched work has come to, if it has. -/
def Fate.outcome? : Fate → Option Outcome
  | .ended result => some (result.mapError .work)
  | .discarded => some (.error .shutdown)
  | _ => none

/-- How far a deferred has come agrees with how far its work has come. -/
def Progress.Agrees (fate : Fate) : Progress → Prop
  | .pending => True
  | .complete outcome => fate.outcome? = some outcome
  | .taken => fate.outcome?.isSome = true

namespace Life

/-- The last step of a machine awaits a deferred at a suspension. -/
def Awaits (life : Life) (resumeAt deferred : Nat) : Prop :=
  ∃ position, life.step = some (position, some (.returned (.await resumeAt deferred)))

/-- The outcome of a machine completes a deferred. -/
def Promises (life : Life) (deferred : Nat) : Prop := life.observer = some (.writer deferred)

/-- The last step of a machine broke the protocol. -/
def Violated (life : Life) : Prop :=
  ∃ position error,
    life.step = some (position, some (.returned (.fail error))) ∧ error.isFatal = true

/-- What the last step of a machine, a request to cancel it, or the loss of its
resumption makes of it. -/
inductive Explains (life : Life) : Outcome → Prop where
  | completed {position : Position} {value : Value} :
      life.step = some (position, some (.returned (.complete value))) →
        Explains life (.ok value)
  | failed {position : Position} {error : Error} :
      life.step = some (position, some (.returned (.fail error))) →
        error.isFatal = false → Explains life (.error error)
  | panicked {position : Position} {payload : Payload} :
      life.step = some (position, some (.panicked payload)) →
        Explains life (.error (.stepPanicked position payload.message))
  | cancelled {resumeAt deferred : Nat} :
      life.cancelled = true → life.Awaits resumeAt deferred →
        Explains life (.error .cancelled)
  | abandoned {resumeAt deferred : Nat} :
      life.abandoned = true → life.Awaits resumeAt deferred →
        Explains life (.error .shutdown)

end Life

namespace Activation

/-- A suspended machine was not stepped yet, or awaits what its last step said. -/
def Waits (activation : Activation) (life : Life) : Prop :=
  (activation.pending = none ∧ activation.position = .notStarted ∧ life.step = none) ∨
    ∃ resumeAt deferred, activation.pending = some deferred ∧
      activation.position = .suspension resumeAt ∧ life.Awaits resumeAt deferred

/-- A machine still has the observer it was started with. -/
def Observed (activation : Activation) (life : Life) : Prop :=
  activation.observer.isSome = true ∧ activation.observer = life.observer

/-- A started machine agrees with its life, and is owned as its status says. -/
def Accords (activation : Activation) (life : Life)
    (resumptions claims shares : Nat) : Prop :=
  activation.cancelled = life.cancelled ∧
  resumptions + claims + shares = activation.owners ∧
  match activation.status with
  | .idle =>
      resumptions = 1 ∧ claims = 0 ∧ activation.Observed life ∧
        life.told = none ∧ activation.Waits life
  | .running =>
      resumptions = 0 ∧ claims ≤ 1 ∧ life.told = none ∧
        (0 < activation.owners → activation.Observed life) ∧
        (claims = 0 → life.Violated)
  | .finished =>
      resumptions = 0 ∧ claims = 0 ∧ life.told.isSome = true ∧
        activation.position = .finished ∧ activation.pending = none ∧
        activation.observer = none

end Activation

/-- A deferred agrees with its work, and has a writer just while it is pending. -/
def Deferred.Accords (deferred : Deferred) (work : Option Work) (writers : Nat) : Prop :=
  writers = (if deferred.isComplete then 0 else 1) ∧
  (deferred.isComplete = true → deferred.continuations = []) ∧
  ∀ found, work = some found → deferred.progress.Agrees found.fate

namespace Ledger

/-- A machine with a scheduler is suspended on a deferred. -/
def Suspends (ledger : Ledger) (machine : Nat) (scheduler : Scheduler) (deferred : Nat) :
    Prop :=
  ∃ found, ledger.activations.get? machine = some found ∧
    found.scheduler = scheduler ∧ found.pending = some deferred

/-- A deferred is there and is complete. -/
def Completed (ledger : Ledger) (deferred : Nat) : Prop :=
  ∃ found, ledger.deferreds.get? deferred = some found ∧ found.isComplete = true

/-- A deferred is there, and is none that a step of a library machine launched. -/
def Public (ledger : Ledger) (chronicle : Chronicle) (deferred : Nat) : Prop :=
  (ledger.deferreds.get? deferred).isSome = true ∧
    ∀ work, chronicle.work deferred = some work → work.launcher = none

/-- A blocked thread waits for a deferred. -/
def WaitsFor (ledger : Ledger) (waiter deferred : Nat) : Prop :=
  ∃ found, ledger.waiters.get? waiter = some found ∧ found.deferred = deferred

/-- A blocked thread waits for a public deferred, until it is complete; if it ran a machine,
for the one that the machine's outcome completes. -/
structure Blocks (ledger : Ledger) (chronicle : Chronicle) (waiter : Waiter) : Prop where
  isPublic : ledger.Public chronicle waiter.deferred
  awake : waiter.signal ≠ .waiting → ledger.Completed waiter.deferred
  promised : ∀ pool machine, waiter.run = some (pool, machine) →
    (chronicle.life machine).Promises waiter.deferred

end Ledger

/-- A site is right for a continuation. -/
def Site.Admits (site : Site) (ledger : Ledger) (chronicle : Chronicle) :
    Continuation → Prop
  | .callback _ => True
  | .signal waiter =>
      match site with
      | .registered deferred => ledger.WaitsFor waiter deferred
      | .fired deferred => ledger.WaitsFor waiter deferred ∧ ledger.Completed deferred
      | .loose => ∃ deferred, ledger.WaitsFor waiter deferred ∧ ledger.Completed deferred
      | _ => False
  | .handOver scheduler machine =>
      match site with
      | .registered deferred => ledger.Suspends machine scheduler deferred
      | .fired deferred =>
          ledger.Suspends machine scheduler deferred ∧ ledger.Completed deferred
      | .loose =>
          ∃ deferred, ledger.Suspends machine scheduler deferred ∧
            ledger.Completed deferred
      | _ => False
  | .resumption machine =>
      match site with
      | .sent scheduler | .queued scheduler =>
          ∃ deferred, ledger.Suspends machine scheduler deferred ∧
            ledger.Completed deferred
      | .loose =>
          ∃ scheduler deferred, ledger.Suspends machine scheduler deferred ∧
            ledger.Completed deferred
      | _ => False
  | .job deferred program =>
      match site with
      | .queued (.pool _) | .loose =>
          ∃ launcher, chronicle.work deferred = some ⟨program, launcher, .waiting⟩
      | _ => False

namespace Site.Admits

variable {ledger : Ledger} {chronicle : Chronicle} {continuation : Continuation}
  {scheduler : Scheduler}

/-- What was sent to a scheduler may be put in its keeping. -/
theorem enqueue (admits : (Site.sent scheduler).Admits ledger chronicle continuation) :
    (Site.queued scheduler).Admits ledger chronicle continuation := by
  cases continuation with
  | callback body => trivial
  | signal _ => exact admits.elim
  | resumption machine => exact admits
  | handOver _ _ => exact admits
  | job _ _ => exact admits.elim

/-- What was sent to a scheduler may be run or dropped instead. -/
theorem loosen (admits : (Site.sent scheduler).Admits ledger chronicle continuation) :
    Site.loose.Admits ledger chronicle continuation := by
  cases continuation with
  | callback body => trivial
  | signal _ => exact admits.elim
  | resumption machine => exact ⟨scheduler, admits⟩
  | handOver _ _ => exact admits.elim
  | job _ _ => exact admits.elim

/-- What was in the keeping of a scheduler may be run or dropped. -/
theorem dequeue (admits : (Site.queued scheduler).Admits ledger chronicle continuation) :
    Site.loose.Admits ledger chronicle continuation := by
  cases continuation with
  | callback body => trivial
  | signal _ => exact admits.elim
  | resumption machine => exact ⟨scheduler, admits⟩
  | handOver _ _ => exact admits.elim
  | job _ _ =>
      cases scheduler with
      | pool _ => exact admits
      | _ => exact admits.elim

/-- What was fired may be run or dropped. -/
theorem unfire {deferred : Nat}
    (admits : (Site.fired deferred).Admits ledger chronicle continuation) :
    Site.loose.Admits ledger chronicle continuation := by
  cases continuation with
  | callback body => trivial
  | signal _ => exact ⟨deferred, admits⟩
  | resumption _ => exact admits.elim
  | handOver _ _ => exact ⟨deferred, admits⟩
  | job _ _ => exact admits.elim

/-- To drop what resumes a machine, the machine must be suspended. -/
theorem suspends {machine : Nat} (admits : Site.loose.Admits ledger chronicle continuation)
    (carried : continuation.assets = [.resumption machine]) :
    ∃ scheduler deferred, ledger.Suspends machine scheduler deferred := by
  cases continuation with
  | callback _ => cases carried
  | signal _ => cases carried
  | job _ _ => cases carried
  | resumption _ =>
      cases carried
      obtain ⟨scheduler, deferred, suspends, -⟩ := admits
      exact ⟨scheduler, deferred, suspends⟩
  | handOver scheduler _ =>
      cases carried
      obtain ⟨deferred, suspends, -⟩ := admits
      exact ⟨scheduler, deferred, suspends⟩

end Site.Admits

/-- What a call holds agrees with the machine, the deferred or the work it is
about. -/
def Holding.Rightful (ledger : Ledger) (chronicle : Chronicle) : Holding → Prop
  | .continuation site carried => site.Admits ledger chronicle carried
  | .writer deferred =>
      ∀ work, chronicle.work deferred = some work →
        work.fate.outcome? = some (.error .shutdown)
  | .publication deferred outcome =>
      ∀ work, chronicle.work deferred = some work → work.fate.outcome? = some outcome
  | .working deferred =>
      ∃ program launcher, chronicle.work deferred = some ⟨program, launcher, .running⟩
  | .resuming machine =>
      ∃ found, ledger.activations.get? machine = some found ∧
        ((found.pending = none ∧ found.cancelled = false) ∨
          ∃ deferred, found.pending = some deferred ∧ ledger.Completed deferred)
  | .advancing machine =>
      ∃ found, ledger.activations.get? machine = some found ∧
        ((found.position = .notStarted ∧ found.cancelled = false ∧
            (chronicle.life machine).step = none) ∨
          ∃ resumeAt deferred, found.position = .suspension resumeAt ∧
            (chronicle.life machine).Awaits resumeAt deferred ∧
            ((ledger.deferreds.get? deferred).map (·.isComplete)).getD true = true)
  | .stepping machine =>
      ∃ found, ledger.activations.get? machine = some found ∧
        (chronicle.life machine).step = some (found.position, none)
  | .finishing machine outcome => (chronicle.life machine).Explains outcome
  | .share _ => True
  | .receipt deferred => ledger.Public chronicle deferred
  | .promise machine deferred => (chronicle.life machine).Promises deferred

/-- How much of an asset there is, in the world and in calls. -/
def Ledger.total (ledger : Ledger) (inHand : List Holding) (stack : Stack)
    (asset : Asset) : Nat :=
  ledger.amount asset + Holding.amount asset (inHand ++ stack.holdings)

/-- A machine is owned as its activation and its life say. -/
def Ledger.MachineAccount (ledger : Ledger) (chronicle : Chronicle)
    (total : Asset → Nat) (machine : Nat) : Prop :=
  match ledger.activations.get? machine with
  | none =>
      total (.resumption machine) = 0 ∧ total (.claim machine) = 0 ∧
        total (.share machine) = 0 ∧ chronicle.life machine = .unborn
  | some activation =>
      activation.Accords (chronicle.life machine) (total (.resumption machine))
        (total (.claim machine)) (total (.share machine))

/-- A deferred is owned as it says itself. -/
def Ledger.DeferredAccount (ledger : Ledger) (chronicle : Chronicle)
    (total : Asset → Nat) (deferred : Nat) : Prop :=
  match ledger.deferreds.get? deferred with
  | none => total (.writer deferred) = 0 ∧ chronicle.work deferred = none
  | some found => found.Accords (chronicle.work deferred) (total (.writer deferred))

/-- A blocked thread has a wake-up just while it sleeps. -/
def Ledger.WaiterAccount (ledger : Ledger) (total : Asset → Nat) (waiter : Nat) : Prop :=
  match ledger.waiters.get? waiter with
  | none => total (.signal waiter) = 0
  | some found => total (.signal waiter) = if found.signal = .waiting then 1 else 0

/-- Everything is owned as often as it should be and held where it should be, by
the world, by what is in hand, and by the frames of a stack. -/
structure Custody (ledger : Ledger) (chronicle : Chronicle) (inHand : List Holding)
    (stack : Stack) : Prop where
  machines : ∀ machine,
    ledger.MachineAccount chronicle (ledger.total inHand stack) machine
  deferreds : ∀ deferred,
    ledger.DeferredAccount chronicle (ledger.total inHand stack) deferred
  signals : ∀ waiter, ledger.WaiterAccount (ledger.total inHand stack) waiter
  rightful : ∀ holding ∈ inHand ++ stack.holdings, holding.Rightful ledger chronicle
  kept : ∀ site continuation, ledger.Holds site continuation →
    site.Admits ledger chronicle continuation
  named : ∀ name deferred, ledger.writers.find? name = some deferred →
    chronicle.work deferred = none
  observed : ∀ machine found deferred,
    ledger.activations.get? machine = some found →
      found.observer = some (.writer deferred) → chronicle.work deferred = none
  receipts : ∀ name receipt, ledger.receipts.find? name = some receipt →
    ledger.Public chronicle receipt.deferred
  waiters : ∀ waiter found, ledger.waiters.get? waiter = some found →
    ledger.Blocks chronicle found

end Stepwise
