import Stepwise.Proofs.Cancellation
import Stepwise.Proofs.FastPath
import Stepwise.Proofs.Reserved
import Stepwise.Proofs.Retrieval

/-!
# Handles and promises

A machine can be watched in two ways: by its handle, which says whether it has finished, and
by the deferred that its outcome completes.  The machine finishes first, and the deferred is
completed by the next small step, before any code runs.  So whoever looks finds the two
agree; and what the deferred tells is what the machine has finished with, for every reader
of it, a thread that runs the machine among them.
-/

namespace Stepwise

variable {trace : List Occurrence} {state : State} {past : List State} {ledger : Ledger}
  {chronicle : Chronicle} {inHand : List Holding} {stack : Stack} {machine deferred : Nat}
  {outcome : Outcome}

/-! ## What machines were told -/

namespace Chronicle

/-- A machine that was started keeps the observer that it was started with. -/
theorem observer_after {occurrence : Occurrence} (permitted : chronicle.Permits occurrence)
    (born : chronicle.life machine ≠ .unborn) :
    ((chronicle.after occurrence).life machine).observer =
      (chronicle.life machine).observer := by
  cases occurrence with
  | started other _ _ =>
      have different : machine ≠ other := by
        rintro rfl
        exact born permitted
      simp [after, different]
  | called other _ | ended other _ | cancelled other | abandoned other | told other _ =>
      by_cases here : machine = other <;> simp [after, here]
  | _ => rfl

theorem observer_afterAll {occurrences : List Occurrence}
    (permitted : chronicle.PermitsAll occurrences) (born : chronicle.life machine ≠ .unborn) :
    ((chronicle.afterAll occurrences).life machine).observer =
      (chronicle.life machine).observer := by
  induction occurrences generalizing chronicle with
  | nil => rfl
  | cons occurrence rest ih =>
      exact (ih permitted.2 (form_after permitted.1 born).1).trans
        (observer_after permitted.1 born)

end Chronicle

namespace Reaches

/-- A machine has the observer that it was started with. -/
theorem observer_of_started {form : Machine} {observer : Observer} (reaches : Reaches trace state)
    (started : .started machine form observer ∈ trace) :
    ((Chronicle.of trace).life machine).observer = some observer := by
  obtain ⟨older, newer, rfl⟩ := List.append_of_mem started
  obtain ⟨-, -, later⟩ := (Chronicle.permitsAll_append _ _ _).mp reaches.permitsAll
  rw [Chronicle.of_append, Chronicle.afterAll_cons]
  refine (Chronicle.observer_afterAll later ?_).trans (by simp [Chronicle.after])
  simp [Chronicle.after, Life.unborn]

/-- A machine that was started with the writer of a deferred promises it its outcome. -/
theorem promises_of_started {form : Machine} (reaches : Reaches trace state)
    (started : .started machine form (.writer deferred) ∈ trace) :
    ((Chronicle.of trace).life machine).Promises deferred :=
  reaches.observer_of_started started

/-- What a machine was told is in its history, and the other way round. -/
theorem told_iff (reaches : Reaches trace state) :
    ((Chronicle.of trace).life machine).told = some outcome ↔
      .told machine outcome ∈ trace := by
  have known {outcome : Outcome} (member : .told machine outcome ∈ trace) :
      ((Chronicle.of trace).life machine).told = some outcome := by
    obtain ⟨older, newer, rfl⟩ := List.append_of_mem member
    obtain ⟨-, -, later⟩ := (Chronicle.permitsAll_append _ _ _).mp reaches.permitsAll
    rw [Chronicle.of_append, Chronicle.afterAll_cons]
    exact Chronicle.told_afterAll later (by simp [Chronicle.after])
  refine ⟨fun told => ?_, known⟩
  obtain ⟨other, member⟩ := (Chronicle.told_afterAll_iff reaches.permitsAll rfl).mp
    ⟨outcome, told⟩
  cases told.symm.trans (known member)
  exact member

end Reaches

/-- What a machine was told is published on the deferred that it promised, or is just about to
be. -/
theorem Passes.published_of_told (passes : Passes past state)
    (told : ((Chronicle.of (past.flatMap State.occurrences)).life machine).told = some outcome)
    (promised : ((Chronicle.of (past.flatMap State.occurrences)).life machine).Promises
      deferred) :
    Published past deferred outcome ∨ state.control = .task (.publish deferred outcome) := by
  induction passes with
  | begin _ => cases told
  | @again past state program _ ended ih =>
      rcases ih told promised with published | publishes
      · exact .inl published
      · rcases ended.2 with ⟨reply, same⟩ | ⟨payload, same⟩ <;> simp [same] at publishes
  | @next past state passes ih =>
      have order := passes.reaches.inOrder
      rw [List.flatMap_append, List.flatMap_singleton, Chronicle.of_append] at told promised
      rcases State.told_or_publishes order told promised with ⟨before, promised⟩ | publishes
      · rcases ih before promised with published | publishes
        · exact .inl (published.mono (List.subset_append_left ..))
        · exact .inl ⟨state, by simp, publishes⟩
      · exact .inr publishes

/-! ## Handles -/

/-- Somebody has a handle of a machine: it is kept under a name, a thread that runs the machine
keeps it, or the call that starts the machine is going to give it out. -/
inductive State.HasHandle (state : State) (machine : Nat) : Prop where
  | named {name : Name} : state.world.handles.find? name = some machine →
      HasHandle state machine
  | blocked {waiter pool : Nat} {found : Waiter} :
      state.world.waiters.get? waiter = some found → found.run = some (pool, machine) →
        HasHandle state machine
  | starting {name : Name} : .starting name machine ∈ state.stack → HasHandle state machine
  | blocking {pool deferred : Nat} : .blocking machine pool deferred ∈ state.stack →
      HasHandle state machine

/-- Whoever has a handle of a machine owns a share in it. -/
theorem State.HasHandle.owned (handle : state.HasHandle machine) :
    0 < state.world.ledger.total inHand state.stack (.share machine) := by
  have placed {frame : Frame} (member : frame ∈ state.stack)
      (held : Holding.share machine ∈ frame.holdings) :
      0 < Holding.amount (.share machine) (Stack.holdings state.stack) :=
    Holding.amount_pos_of_mem (List.mem_flatMap.mpr ⟨frame, member, held⟩)
      (List.mem_singleton_self _)
  rw [Ledger.total, Holding.amount_append]
  cases handle with
  | @named name lookup =>
      have kept : state.world.ledger.handles.find? name = some machine := lookup
      have bound := Table.le_total kept fun other => [Asset.share other].count (.share machine)
      simp only [List.count_singleton_self] at bound
      simp only [Ledger.amount]
      omega
  | @blocked waiter pool found lookup run =>
      have kept : state.world.ledger.waiters.get? waiter = some found := lookup
      have bound := Store.le_total kept fun sleeper => sleeper.assets.count (.share machine)
      simp only [Waiter.assets, run, List.count_singleton_self] at bound
      simp only [Ledger.amount, Waiter.assets]
      omega
  | starting member =>
      have := placed member (by simp [Frame.holdings])
      omega
  | blocking member =>
      have := placed member (by simp [Frame.holdings])
      omega

namespace Custody

/-- A machine that somebody has a handle of is there, and owned. -/
theorem exists_of_handle (custody : Custody state.world.ledger chronicle inHand state.stack)
    (handle : state.HasHandle machine) :
    ∃ found, state.world.activations.get? machine = some found ∧ 0 < found.owners := by
  have shared : 0 < state.world.ledger.total inHand state.stack (.share machine) := handle.owned
  have account := custody.machines machine
  cases present : state.world.ledger.activations.get? machine with
  | none =>
      simp only [Ledger.MachineAccount, present] at account
      omega
  | some found =>
      simp only [Ledger.MachineAccount, present] at account
      exact ⟨found, present, by have := account.2.1; omega⟩

/-- A deferred whose writer somebody owns is pending. -/
theorem isComplete_of_owned {world : World} (custody : Custody world.ledger chronicle inHand stack)
    (owned : 0 < world.ledger.total inHand stack (.writer deferred)) :
    world.isComplete deferred = false := by
  have account := custody.deferreds deferred
  cases lookup : world.ledger.deferreds.get? deferred with
  | none =>
      simp only [Ledger.DeferredAccount, lookup] at account
      omega
  | some found =>
      have present : world.deferreds.get? deferred = some found := lookup
      simp only [Ledger.DeferredAccount, lookup, Deferred.Accords] at account
      rw [World.isComplete_of_get? present]
      cases complete : found.isComplete with
      | false => rfl
      | true =>
          simp only [complete, if_true] at account
          omega

end Custody

/-- Whenever code may run and somebody has a handle of a machine, the handle says that the machine
has finished just when the deferred that it promised is complete. -/
theorem Reaches.finished_iff_complete (reaches : Reaches trace state)
    (promised : ((Chronicle.of trace).life machine).Promises deferred)
    (isOpen : state.isOpen = true) (handle : state.HasHandle machine) :
    state.world.isFinished machine = true ↔ state.world.isComplete deferred = true := by
  obtain ⟨nothing, custody⟩ := State.custody_of_isOpen reaches.inOrder isOpen
  obtain ⟨found, lookup, owned⟩ := custody.exists_of_handle handle
  obtain ⟨-, -, accords⟩ := custody.accords_of_lookup lookup
  -- As long as the observer was not told, it keeps the deferred pending.
  have pending (observed : found.Observed ((Chronicle.of trace).life machine)) :
      state.world.isComplete deferred = false :=
    custody.isComplete_of_owned
      (Ledger.total_pos_of_observed lookup (observed.2.trans promised))
  simp only [World.isFinished, lookup, Option.map_some, Option.getD_some, Activation.isFinished]
  cases status : found.status with
  | idle =>
      simp only [status] at accords
      simp [pending accords.2.2.1]
  | running =>
      simp only [status] at accords
      simp [pending (accords.2.2.2.1 owned)]
  | finished =>
      simp only [status] at accords
      obtain ⟨settled, told⟩ := Option.isSome_iff_exists.mp accords.2.2.1
      rcases reaches.completed_of_told told promised with completed | publishes
      · simp [State.isComplete_of_completed completed]
      · simp [State.isOpen, publishes] at isOpen

namespace Passes

/-- Once a machine was told an outcome, no other one is published on the deferred that it
promised. -/
theorem eq_of_told {other : Outcome} (passes : Passes past state)
    (promised : (life machine past).Promises deferred)
    (told : .told machine outcome ∈ past.flatMap State.occurrences)
    (published : Published past deferred other) : other = outcome := by
  rcases passes.published_of_told (passes.reaches.told_iff.mpr told) promised with
    again | publishes
  · exact passes.published_unique published again
  · exact absurd (passes.completed_iff_published.mpr ⟨other, published⟩)
      (passes.not_completed_of_publish publishes)

/-- Whenever code may run and somebody has a handle of a machine, what is published on the deferred
that it promised is what the machine was told. -/
theorem published_iff_told (passes : Passes past state)
    (promised : (life machine past).Promises deferred) (isOpen : state.isOpen = true)
    (handle : state.HasHandle machine) :
    Published past deferred outcome ↔ .told machine outcome ∈ past.flatMap State.occurrences := by
  have reaches := passes.reaches
  constructor
  · intro published
    have complete := State.isComplete_of_completed
      (passes.completed_iff_published.mpr ⟨outcome, published⟩)
    obtain ⟨settled, told⟩ := (reaches.isFinished_iff fun reason halts => by
      simp [State.isOpen, halts] at isOpen).mp
      ((reaches.finished_iff_complete promised isOpen handle).mpr complete)
    have member := reaches.told_iff.mp told
    cases passes.eq_of_told promised member published
    exact member
  · intro told
    rcases passes.published_of_told (reaches.told_iff.mpr told) promised with
      published | publishes
    · exact published
    · simp [State.isOpen, publishes] at isOpen

end Passes

/-! ## Observers of every kind -/

/-- The same state, in which a machine has another observer. -/
def State.observedBy (state : State) (machine : Nat) (observer : Observer) : State :=
  { state with world := state.world.modifyActivation machine fun activation =>
      { activation with observer := some observer } }

/-- Whoever else had observed a machine would have been told the same outcome. -/
theorem State.call_of_observedBy {found : Activation} (observer : Observer)
    (finishes : state.control = .task (.finish machine outcome))
    (lookup : state.world.activations.get? machine = some found) :
    (state.observedBy machine observer).next.control = observer.call outcome := by
  obtain ⟨world, stack, control⟩ := state
  subst finishes
  have present : world.activations.get? machine = some found := lookup
  have observed : (world.activations.modify machine fun activation =>
      { activation with observer := some observer }).get? machine =
        some { found with observer := some observer } := by simp [present]
  simp only [observedBy, next, carryingOut, finishing, World.modifyActivation, observed]
  cases observer <;> rfl

/-- Where an outcome is published, the deferred has it by the next small step. -/
theorem State.complete_of_publish (order : state.InOrder chronicle)
    (publishes : state.control = .task (.publish deferred outcome)) :
    ∃ found, state.next.world.deferreds.get? deferred = some found ∧
      found.progress = .complete outcome := by
  have custody := order.custody (by simp [publishes])
  rw [publishes] at custody
  obtain ⟨⟨found, lookup, -⟩, -⟩ := custody.pending_of_writer deferred
    (by simp [Control.holdings, Task.holdings, Holding.assets])
  obtain ⟨world, stack, control⟩ := state
  subst publishes
  have present : world.deferreds.get? deferred = some found := lookup
  refine ⟨found.publish outcome, ?_, rfl⟩
  simp [next, carryingOut, publishing, present, World.modifyDeferred, World.record]

/-! ## Threads that run a machine -/

/-- A share of a machine that tells nobody is dropped without any effect on whoever waits. -/
theorem State.walk_releasing {world : World} {activation : Activation} {rest : Reply → Program}
    {reply : Reply} (present : world.activations.get? machine = some activation)
    (unobserved : activation.observer = none) :
    let dropped := State.disposing world (.program rest :: stack) [.activation machine] reply
    (dropped.walk 5).2.control = .program (rest reply) ∧ (dropped.walk 5).2.stack = stack := by
  have released (callers : Stack) : ∃ changed,
      releasingShare world callers machine = .replying changed callers .done := by
    simp only [releasingShare, present, unobserved]
    split <;> exact ⟨_, rfl⟩
  obtain ⟨changed, same⟩ :=
    released (.disposing [] :: .answering reply :: .program rest :: stack)
  simp only [disposing, walk, next, returning, disposingNext, carryingOut, discarding, same]
  exact ⟨rfl, rfl⟩

/-- A thread that is awake is told what it has waited for, and then drops the handle of the machine
that it ran.  The machine is finished, so nothing else happens. -/
theorem State.walk_collect {waiter pool : Nat} {found : Waiter} {activation : Activation}
    {rest : Reply → Program}
    (calls : state.control = .program (.call (.collect waiter) rest))
    (lookup : state.world.waiters.get? waiter = some found)
    (run : found.run = some (pool, machine)) (woken : found.signal = .woken)
    (present : state.world.activations.get? machine = some activation)
    (unobserved : activation.observer = none) :
    (state.walk 6).2.control =
        .program (rest (.outcome (state.world.retrieve found.deferred).2)) ∧
      (state.walk 6).2.stack = state.stack := by
  obtain ⟨world, stack, control⟩ := state
  subst calls
  have there : world.waiters.get? waiter = some found := lookup
  let released := world.modifyWaiter waiter fun waiter => { waiter with run := none }
  have retrieves : (world.retrieve found.deferred).2 = (released.retrieve found.deferred).2 := by
    simp only [World.retrieve, released, World.modifyWaiter]
    split <;> rfl
  have kept : (released.retrieve found.deferred).1.activations.get? machine =
      some activation := by
    simp only [World.retrieve, released, World.modifyWaiter]
    split <;> exact present
  have asked : next ⟨world, stack, .program (.call (.collect waiter) rest)⟩ =
      .disposing (released.retrieve found.deferred).1 (.program rest :: stack)
        [.activation machine] (.outcome (released.retrieve found.deferred).2) := by
    simp only [next, requesting, collecting, there, run, woken, released]
  have walked := @walk_releasing stack _ _ _ rest
    (.outcome (released.retrieve found.deferred).2) kept unobserved
  rw [← asked, ← retrieves] at walked
  exact walked

/-- A thread that asks whether the machine it runs has finished is told that it has not, or
the outcome that the machine was told. -/
def State.Collected (state : State) (machine : Nat) (trace : List Occurrence)
    (rest : Reply → Program) : Prop :=
  if state.world.isFinished machine then
    ∃ outcome, .told machine outcome ∈ trace ∧
      (state.walk 6).2.control = .program (rest (.outcome outcome)) ∧
      (state.walk 6).2.stack = state.stack
  else
    state.next.control = .reply .notYet ∧ state.next.stack = .program rest :: state.stack

/-- Whoever blocks on a machine gets what the machine was told. -/
theorem Passes.collected {waiter pool : Nat} {found : Waiter} {rest : Reply → Program}
    (passes : Passes past state) (promised : (life machine past).Promises deferred)
    (calls : state.control = .program (.call (.collect waiter) rest))
    (lookup : state.world.waiters.get? waiter = some found)
    (run : found.run = some (pool, machine)) :
    found.deferred = deferred ∧
      state.Collected machine (past.flatMap State.occurrences) rest := by
  have reaches := passes.reaches
  have custody := reaches.inOrder.custody (by simp [calls])
  have isOpen : state.isOpen = true := by simp [State.isOpen, calls]
  have handle : state.HasHandle machine := .blocked lookup run
  obtain rfl : found.deferred = deferred := by
    have same := ((custody.waiters waiter found lookup).promised pool machine run).symm.trans
      promised
    simpa using same
  have agree := reaches.finished_iff_complete promised isOpen handle
  obtain ⟨kept, asleep⟩ := passes.signal_of_run lookup (by simp [run]) calls
  refine ⟨rfl, ?_⟩
  cases signal : found.signal with
  | lost => exact absurd signal kept
  | waiting =>
      have unfinished : ¬ state.world.isFinished machine = true := by
        intro finished
        obtain ⟨outcome, told⟩ := (reaches.isFinished_iff (by simp [calls])).mp finished
        exact asleep.mp signal (passes.completed_iff_published.mpr ⟨outcome,
          (passes.published_iff_told promised isOpen handle).mpr (reaches.told_iff.mp told)⟩)
      rw [State.Collected, if_neg unfinished]
      obtain ⟨world, stack, control⟩ := state
      subst calls
      have there : world.waiters.get? waiter = some found := lookup
      simp [State.next, State.requesting, State.collecting, there, signal, State.replying]
  | woken =>
      have completed : state.world.ledger.Completed found.deferred := by
        refine Classical.byContradiction fun pending => ?_
        simp [asleep.mpr pending] at signal
      have finished := agree.mpr (State.isComplete_of_completed completed)
      rw [State.Collected, if_pos finished]
      obtain ⟨activation, present, -⟩ := custody.exists_of_handle handle
      obtain ⟨-, -, accords⟩ := custody.accords_of_lookup present
      simp only [World.isFinished, present, Option.map_some, Option.getD_some,
        Activation.isFinished, beq_iff_eq] at finished
      rw [finished] at accords
      exact ⟨_, (passes.published_iff_told promised isOpen handle).mp
          (passes.published_of_retrieve completed
            (passes.untaken_of_reserves (.inr ⟨waiter, found, lookup, rfl, by simp [run]⟩))),
        State.walk_collect calls lookup run signal present accords.2.2.2.2.2⟩

/-! ## Agreement -/

/-- What those who watch a machine find, by its handle, by the deferred that it promised, and by
blocking on it. -/
structure Agreement (past : List State) (state : State) (machine deferred : Nat) : Prop where
  /-- Whoever has a handle finds the machine finished just when the deferred is complete. -/
  ready : state.isOpen = true → state.HasHandle machine →
    (state.world.isFinished machine = true ↔ state.world.isComplete deferred = true)
  /-- The deferred was completed with what the machine was told. -/
  outcome : state.isOpen = true → state.HasHandle machine → ∀ outcome,
    Published past deferred outcome ↔ .told machine outcome ∈ past.flatMap State.occurrences
  /-- What the machine was told its life explains, and nobody finds anything else. -/
  explained : ∀ outcome, .told machine outcome ∈ past.flatMap State.occurrences →
    (life machine past).Explains outcome ∧
      ∀ other, Published past deferred other → other = outcome
  /-- When the machine is told, the deferred is completed; code would have been told the same. -/
  observed : ∀ outcome, .told machine outcome ∈ state.occurrences →
    state.next.control = .task (.publish deferred outcome) ∧
      (∃ found, state.next.next.world.deferreds.get? deferred = some found ∧
        found.progress = .complete outcome) ∧
      ∀ observer, (state.observedBy machine observer).next.control = observer.call outcome
  /-- A thread that has started the machine blocks on the deferred. -/
  blocks : ∀ pool awaited callers, state.stack = .blocking machine pool awaited :: callers →
    (∃ reply, state.control = .reply reply) → awaited = deferred ∧
      state.next.world.waiters =
        state.world.waiters.push ⟨deferred, .waiting, some (pool, machine)⟩
  /-- A thread that runs the machine gets what the machine was told. -/
  collects : ∀ waiter found pool rest,
    state.control = .program (.call (.collect waiter) rest) →
      state.world.waiters.get? waiter = some found → found.run = some (pool, machine) →
        found.deferred = deferred ∧
          state.Collected machine (past.flatMap State.occurrences) rest

/-- A handle and a promise agree.  Whenever code may run and somebody has a handle of a machine,
the handle says that the machine has finished just when the deferred that it promised is
complete; and the outcome of the deferred is the one that the machine was told.  No matter
whether a deferred or code observes the machine, it is told the same; and so is a thread that
runs the machine. -/
theorem promise_agrees {form : Machine} (passes : Passes past state)
    (started : .started machine form (.writer deferred) ∈ past.flatMap State.occurrences) :
    Agreement past state machine deferred := by
  have reaches := passes.reaches
  have promised := reaches.promises_of_started started
  refine ⟨reaches.finished_iff_complete promised,
    fun isOpen handle _ => passes.published_iff_told promised isOpen handle,
    fun outcome told => ⟨reaches.explains (reaches.told_iff.mpr told),
      fun other published => passes.eq_of_told promised told published⟩, ?_, ?_,
    fun waiter found pool rest calls lookup run => passes.collected promised calls lookup run⟩
  · intro outcome told
    have finishes : state.control = .task (.finish machine outcome) :=
      State.drives_of_occurrences told rfl
    have custody := reaches.inOrder.custody (by simp [finishes])
    rw [finishes] at custody
    obtain ⟨found, claimed⟩ := custody.claimed machine rfl
    have publishes : state.next.control = .task (.publish deferred outcome) := by
      obtain ⟨world, stack, control⟩ := state
      subst finishes
      obtain ⟨-, ⟨observer, observes, calls⟩, -⟩ := State.tells_of_finish custody
      cases observes.symm.trans promised
      exact calls
    exact ⟨publishes, State.complete_of_publish passes.next.reaches.inOrder publishes,
      fun observer => State.call_of_observedBy observer finishes claimed.lookup⟩
  · intro pool awaited callers placed replies
    obtain ⟨waiters, -, -⟩ := State.next_of_blocking placed replies
    have newest : state.next.world.waiters.get? state.world.waiters.size =
        some ⟨awaited, .waiting, some (pool, machine)⟩ := by
      rw [waiters, Store.get?_push, if_pos rfl]
    have later := passes.next.reaches
    have still := later.promises_of_started
      (by rw [List.flatMap_append]; exact List.mem_append_left _ started)
    have going (reason : Halt) : state.next.control ≠ .halted reason := by
      obtain ⟨reply, replies⟩ := replies
      obtain ⟨world, stack, control⟩ := state
      cases placed
      cases replies
      simp only [State.next, State.returning, State.waiting, State.registering]
      split <;> simp [State.replying]
    have same := (((later.inOrder.custody going).waiters _ _ newest).promised pool machine
      rfl).symm.trans still
    obtain rfl : awaited = deferred := by simpa using same
    exact ⟨rfl, waiters⟩

/-- Run a machine that suspends, complete what it awaits, and ask what it has ended with. -/
def Program.running : Program :=
  .call (.newRuntime (.shared "runtime") 1 "worker") fun _ =>
    .call (.pending (.shared "result") false (.shared "writer")) fun _ =>
      .call (.run "runner" (.shared "runtime") (.custom fun
        | .notStarted => .call (.suspend (.shared "result") 0) .ret
        | _ => .ret (.outcome (.ok (.int 7))))) fun _ =>
          .call (.complete (.shared "writer") (.ok .null)) fun _ => .call (.collect 0) .ret

/-- The thread is told what the machine has ended with, and so is whoever has the deferred. -/
theorem promise_agrees_running :
    ((State.ofProgram .initial .running).walk 37).2.world.isFinished 0 = true ∧
      ((State.ofProgram .initial .running).walk 37).2.Collected 0
        (((State.ofProgram .initial .running).visits 37).flatMap State.occurrences) .ret ∧
      Published ((State.ofProgram .initial .running).visits 37) 1 (.ok (.int 7)) := by
  have agrees : Agreement ((State.ofProgram .initial .running).visits 37)
      ((State.ofProgram .initial .running).walk 37).2 0 1 :=
    promise_agrees ((Passes.begin .running).walk 37) (.head _)
  have told : .told 0 (.ok (.int 7)) ∈
      ((State.ofProgram .initial .running).visits 37).flatMap State.occurrences :=
    .tail _ (.tail _ (.tail _ (.tail _ (.tail _ (.head _)))))
  exact ⟨rfl, (agrees.collects 0 _ 0 _ rfl rfl rfl).2,
    (agrees.outcome rfl (@State.HasHandle.blocked _ _ 0 0 _ rfl rfl) _).mpr told⟩

end Stepwise
