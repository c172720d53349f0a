import Stepwise.Proofs.Course.Standing
import Stepwise.Proofs.Outcome
import Stepwise.Proofs.Quiescence

/-!
# Threads that run a machine

A thread that runs a machine blocks on the deferred that the machine's outcome completes,
and keeps a share in the machine meanwhile.  So the deferred stays pending as long as the
machine has not been told its outcome: while it is suspended, and for ever once it has
broken the protocol.
-/

namespace Stepwise

variable {trace : List Occurrence} {state : State} {world later : World}
  {chronicle : Chronicle} {stack : Stack} {machine deferred : Nat} {outcome : Outcome}

/-! ## Promises kept -/

namespace Chronicle

/-- What a machine was told it was told before, unless it is told just now; and its observer
is the one that it had. -/
theorem told_before {occurrences : List Occurrence}
    (quiet : ∀ outcome, Occurrence.told machine outcome ∉ occurrences)
    (told : ((chronicle.afterAll occurrences).life machine).told = some outcome) :
    (chronicle.life machine).told = some outcome ∧
      ((chronicle.afterAll occurrences).life machine).observer =
        (chronicle.life machine).observer := by
  induction occurrences generalizing chronicle with
  | nil => exact ⟨told, rfl⟩
  | cons occurrence rest ih =>
      obtain ⟨before, same⟩ :=
        ih (fun outcome member => quiet outcome (List.mem_cons_of_mem _ member)) told
      rw [afterAll_cons, same]
      cases occurrence with
      | started other _ _ =>
          by_cases here : machine = other
          · simp [after, here, Life.unborn] at before
          · simpa [after, here] using before
      | told other settled =>
          have different : machine ≠ other := by
            rintro rfl
            exact quiet settled (List.mem_cons_self ..)
          simpa [after, different] using before
      | called other _ | ended other _ | cancelled other | abandoned other =>
          by_cases here : machine = other <;> simpa [after, here] using before
      | _ => exact ⟨before, rfl⟩

end Chronicle

namespace State

/-- A deferred whose outcome is being published is complete after the small step. -/
theorem completed_of_publish (order : state.InOrder chronicle)
    (publishes : state.control = .task (.publish deferred outcome)) :
    state.next.world.ledger.Completed deferred := by
  obtain ⟨world, stack, control⟩ := state
  subst publishes
  have custody : Custody world.ledger chronicle [.publication deferred outcome] stack := order
  obtain ⟨⟨found, lookup, -⟩, -⟩ :=
    custody.pending_of_writer deferred (by simp [Holding.assets])
  have present : world.deferreds.get? deferred = some found := lookup
  refine ⟨found.publish outcome, ?_, rfl⟩
  simp [next, carryingOut, publishing, present, World.modifyDeferred, World.record,
    World.ledger]

/-- Whoever has been told an outcome after the small step, and promised it to a deferred, had
both before; or the machine is told by the small step, and the outcome is published next. -/
theorem told_or_publishes (order : state.InOrder chronicle)
    (told : ((chronicle.afterAll state.occurrences).life machine).told = some outcome)
    (promised : ((chronicle.afterAll state.occurrences).life machine).Promises deferred) :
    ((chronicle.life machine).told = some outcome ∧
        (chronicle.life machine).Promises deferred) ∨
      state.next.control = .task (.publish deferred outcome) := by
  by_cases happens : ∃ outcome, .told machine outcome ∈ state.occurrences
  · obtain ⟨settled, happens⟩ := happens
    have finishes : state.control = .task (.finish machine settled) :=
      drives_of_occurrences happens rfl
    obtain ⟨world, stack, control⟩ := state
    subst finishes
    obtain ⟨alone, ⟨observer, observes, calls⟩, -⟩ := tells_of_finish order
    rw [alone] at told promised
    simp only [Life.Promises, Chronicle.afterAll_cons, Chronicle.afterAll_nil,
      Chronicle.after, Chronicle.life_onLife, if_true] at told promised
    cases told
    cases observes.symm.trans promised
    exact .inr calls
  · obtain ⟨before, same⟩ := Chronicle.told_before (not_exists.mp happens) told
    rw [Life.Promises, same] at promised
    exact .inl ⟨before, promised⟩

end State

/-- A machine that was told its outcome has completed the deferred that it promised to, or
does so by the next small step. -/
theorem Reaches.completed_of_told (reaches : Reaches trace state)
    (told : ((Chronicle.of trace).life machine).told = some outcome)
    (promised : ((Chronicle.of trace).life machine).Promises deferred) :
    state.world.ledger.Completed deferred ∨
      state.control = .task (.publish deferred outcome) := by
  induction reaches with
  | begin program => cases told
  | @again trace state program reached ended ih =>
      rcases ih told promised with completed | publishes
      · exact .inl completed
      · rcases ended.2 with ⟨reply, same⟩ | ⟨payload, same⟩ <;> simp [same] at publishes
  | @next trace state reached ih =>
      have order := reached.inOrder
      rw [Chronicle.of_append] at told promised
      rcases State.told_or_publishes order told promised with ⟨before, promised⟩ | publishes
      · rcases ih before promised with completed | publishes
        · exact .inl ((State.onward_next order).completed completed)
        · exact .inl (State.completed_of_publish order publishes)
      · exact .inr publishes

/-! ## Sleepers -/

namespace Custody

variable {ledger : Ledger} {inHand : List Holding}

/-- A deferred whose writer somebody owns is not complete. -/
theorem not_completed_of_owned (custody : Custody ledger chronicle inHand stack)
    (owned : 0 < ledger.total inHand stack (.writer deferred)) :
    ¬ ledger.Completed deferred := by
  rintro ⟨found, lookup, complete⟩
  have account := custody.deferreds deferred
  simp only [Ledger.DeferredAccount, lookup, Deferred.Accords, complete, if_true] at account
  omega

theorem not_completed_of_inHand (custody : Custody ledger chronicle inHand stack)
    (carried : 0 < Holding.amount (.writer deferred) inHand) : ¬ ledger.Completed deferred :=
  custody.not_completed_of_owned (by rw [Ledger.total_inHand]; omega)

/-- The machine that a blocked thread runs is there, and owned. -/
theorem exists_of_run {waiter pool : Nat} {found : Waiter}
    (custody : Custody ledger chronicle inHand stack)
    (lookup : ledger.waiters.get? waiter = some found)
    (run : found.run = some (pool, machine)) :
    ∃ activation, ledger.activations.get? machine = some activation ∧
      0 < activation.owners := by
  have shared : 0 < ledger.total inHand stack (.share machine) := by
    have bound := Store.le_total lookup fun waiter => waiter.assets.count (.share machine)
    simp only [Waiter.assets, run, List.count_singleton_self] at bound
    simp only [Ledger.total, Ledger.amount, Waiter.assets]
    omega
  have account := custody.machines machine
  cases present : ledger.activations.get? machine with
  | none =>
      simp only [Ledger.MachineAccount, present] at account
      omega
  | some activation =>
      simp only [Ledger.MachineAccount, present] at account
      obtain ⟨-, owners, -⟩ := account
      exact ⟨activation, rfl, by omega⟩

/-- A thread whose deferred is complete does not sleep when nothing is on its way. -/
theorem awake_of_completed {waiter : Nat} {found : Waiter}
    (custody : Custody world.ledger chronicle [] [])
    (lookup : world.ledger.waiters.get? waiter = some found)
    (completed : world.ledger.Completed found.deferred) : found.signal ≠ .waiting := by
  intro asleep
  have account := custody.signals waiter
  simp only [Ledger.WaiterAccount, lookup, asleep, if_true] at account
  have kept : 0 < world.ledger.amount (.signal waiter) := by
    simp only [Ledger.total, Stack.holdings, List.flatMap_nil, List.append_nil,
      Holding.amount_nil] at account
    omega
  -- The wake-up is still registered, on the very deferred.
  obtain ⟨site, holds⟩ := Ledger.exists_of_signal_pos kept
  have admits := custody.kept site _ holds
  cases site with
  | registered awaited =>
      obtain ⟨again, present, rfl⟩ := admits
      cases lookup.symm.trans present
      exact custody.not_completed_of_registered holds completed
  | queued _ => exact admits.elim
  | fired _ | sent _ | loose => exact holds.elim

end Custody

/-- A thread that runs a machine.  Whenever all code has ended, the thread sleeps on just as
long as its machine has not finished.  While the machine is suspended, its one resumption is
where it should be, to wake the thread in the end.  But a machine that has broken the
protocol has none, and its thread sleeps for ever. -/
theorem run_blocked {waiter pool : Nat} {found : Waiter} (reaches : Reaches trace state)
    (ended : state.hasEnded) (lookup : state.world.waiters.get? waiter = some found)
    (run : found.run = some (pool, machine)) :
    ∃ activation, state.world.activations.get? machine = some activation ∧
      match activation.status with
      | .idle =>
          found.signal = .waiting ∧ state.resumptions machine = 1 ∧
            ∃ deferred, activation.pending = some deferred ∧
              state.Places machine activation.scheduler deferred
      | .running =>
          found.signal = .waiting ∧ state.resumptions machine = 0 ∧
            ((Chronicle.of trace).life machine).Violated
      | .finished => found.signal ≠ .waiting := by
  have order := reaches.inOrder
  obtain ⟨nothing, custody⟩ := State.custody_of_isOpen order (State.isOpen_of_hasEnded ended)
  have waits := custody.waiters waiter found lookup
  obtain ⟨activation, present, owned⟩ := custody.exists_of_run lookup run
  refine ⟨activation, present, ?_⟩
  -- An observer that was not called keeps the deferred pending, and the thread asleep.
  have asleep (observed : activation.Observed ((Chronicle.of trace).life machine)) :
      found.signal = .waiting := by
    have observes := observed.2.trans (waits.promised pool machine run)
    have pending := custody.not_completed_of_owned
      (Ledger.total_pos_of_observed present observes)
    by_cases sleeps : found.signal = .waiting
    · exact sleeps
    · exact absurd (waits.awake sleeps) pending
  obtain ⟨_, -, -, accords⟩ := State.accords_of_hasEnded order ended present
  cases status : activation.status with
  | idle =>
      simp only [status] at accords ⊢
      obtain ⟨one, -, observed, -, -⟩ := accords
      refine ⟨asleep observed, one, State.places_of_resumption custody present ?_⟩
      rw [State.resumptions, nothing] at one
      omega
  | running =>
      simp only [status] at accords ⊢
      obtain ⟨zero, -, -, observed, violated⟩ := accords
      exact ⟨asleep (observed owned), zero, violated trivial⟩
  | finished =>
      simp only [status] at accords ⊢
      obtain ⟨-, -, told, -⟩ := accords
      obtain ⟨outcome, told⟩ := Option.isSome_iff_exists.mp told
      rw [ended.1] at custody
      rcases reaches.completed_of_told told (waits.promised pool machine run) with
        completed | publishes
      · exact custody.awake_of_completed lookup completed
      · rcases ended.2 with ⟨reply, same⟩ | ⟨payload, same⟩ <;> simp [same] at publishes

/-- Run a machine that suspends, and takes once more what it has taken when it is resumed. -/
def Program.awaiting : Program :=
  .call (.newRuntime (.shared "runtime") 1 "worker") fun _ =>
    .call (.pending (.shared "result") false (.shared "writer")) fun _ =>
      .call (.run "runner" (.shared "runtime") (.custom fun
        | .notStarted => .call (.suspend (.shared "result") 0) .ret
        | _ => .ret (.outcome (.error (.invalid .alreadyTaken))))) .ret

/-- Complete what that machine awaits. -/
def Program.breaking : Program := .call (.complete (.shared "writer") (.ok .null)) .ret

/-- While the machine is suspended, its thread sleeps, and the resumption is registered. -/
theorem run_blocked_awaiting :
    ∃ found, ((State.ofProgram .initial .awaiting).walk 17).2.world.waiters.get? 0 = some found ∧
      found.signal = .waiting ∧
      ((State.ofProgram .initial .awaiting).walk 17).2.resumptions 0 = 1 := by
  have ended : ((State.ofProgram .initial .awaiting).walk 17).2.hasEnded :=
    ⟨rfl, .inl ⟨_, rfl⟩⟩
  obtain ⟨activation, present, classified⟩ :=
    @run_blocked _ _ 0 0 0 _ ((Reaches.begin .awaiting).walk 17) ended rfl rfl
  cases present
  exact ⟨_, rfl, classified.1, classified.2.1⟩

/-- A run is not always resumed in the end.  Once that machine has broken the protocol, its
thread sleeps although no code is left, nothing is queued, and the machine has no
resumption. -/
theorem run_blocked_breaking :
    ¬ ∀ trace state machine waiter pool found, Reaches trace state → state.hasEnded →
      state.world.isDrained = true → state.world.waiters.get? waiter = some found →
      found.run = some (pool, machine) → found.signal = .waiting →
        ∃ activation, state.world.activations.get? machine = some activation ∧
          activation.status = .idle ∧ 0 < state.resumptions machine := by
  intro resumed
  have waits := (Reaches.begin .awaiting).walk 17
  have breaks := (waits.again .breaking ⟨rfl, .inl ⟨_, rfl⟩⟩).walk 17
  obtain ⟨activation, present, idle, -⟩ :=
    resumed _ _ 0 0 0 _ breaks ⟨rfl, .inr ⟨_, rfl⟩⟩ rfl rfl rfl rfl
  cases present
  cases idle

end Stepwise
