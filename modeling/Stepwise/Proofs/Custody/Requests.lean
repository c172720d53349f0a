import Stepwise.Proofs.Custody.Returns

/-!
# Requests keep order

User code owns things under names only.  A request takes what it needs from a name
and hands it to the task it comes down to, and puts what it makes under a name; what
was there before is dropped.
-/

namespace Stepwise.State

variable {chronicle : Chronicle} {world : World} {stack : Stack}

/-! ## Deferreds -/

/-- The next deferred is nobody's work yet. -/
theorem unlaunched_next {inHand : List Holding}
    (custody : Custody world.ledger chronicle inHand stack) :
    chronicle.work world.deferreds.size = none := by
  have account := custody.deferreds world.deferreds.size
  have absent : world.ledger.deferreds.get? world.deferreds.size = none := by
    simp [World.ledger, Store.get?, Store.size]
  simp only [Ledger.DeferredAccount, absent] at account
  exact account.2

/-- A new deferred is public, and its writer comes into hand. -/
theorem newDeferred_custody (custody : Custody world.ledger chronicle [] stack) :
    Custody world.newDeferred.1.ledger chronicle [.writer world.deferreds.size] stack ∧
      world.newDeferred.1.ledger.Public chronicle world.deferreds.size := by
  have unlaunched := unlaunched_next custody
  have vacuous {claim : Work → Prop} :
      ∀ work, chronicle.work world.deferreds.size = some work → claim work := by
    intro work recorded
    simp [unlaunched] at recorded
  exact ⟨custody.added (by simp) rfl rfl (fun _ _ => rfl) vacuous,
    by simp [World.newDeferred, World.ledger], vacuous⟩

theorem makingPending_inOrder {receipt writer : Name} {raw : Bool}
    (custody : Custody world.ledger chronicle [] stack) :
    (makingPending world stack receipt raw writer).InOrder chronicle := by
  obtain ⟨added, isPublic⟩ := newDeferred_custody custody
  have named := (added.receiptNamed receipt raw isPublic).writerNamed writer
    (unlaunched_next custody)
  unfold makingPending
  refine disposing_inOrder _ ?_
  have present : world.newDeferred.1.ledger.writers = world.writers := rfl
  simp only [present] at named
  cases lookup : world.writers.find? writer with
  | none => rw [lookup] at named; exact named
  | some other => rw [lookup] at named; exact named

/-- A writer that is nobody's work may publish anything. -/
theorem publication_custody {ledger : Ledger} {deferred : Nat} {outcome : Outcome}
    (custody : Custody ledger chronicle [.writer deferred] stack)
    (unlaunched : chronicle.work deferred = none) :
    Custody ledger chronicle [.publication deferred outcome] stack := by
  refine custody.become rfl ?_
  intro work recorded
  simp [unlaunched] at recorded

/-- A call may hold a receipt for a public deferred beside anything else. -/
theorem placing_custody {ledger : Ledger} {inHand : List Holding} {receipt : Name}
    {raw : Bool} {deferred : Nat} (custody : Custody ledger chronicle inHand stack)
    (isPublic : ledger.Public chronicle deferred) :
    Custody ledger chronicle inHand (.placing receipt raw deferred :: stack) := by
  refine Custody.push ?_
  refine custody.exchange (fun asset => by simp [Frame.holdings, Holding.assets]) ?_
  intro holding member
  rcases List.mem_append.mp member with held | receipt
  · exact custody.rightful holding (List.mem_append_left _ held)
  · rw [List.mem_singleton.mp receipt]
    exact isPublic

theorem makingReady_inOrder {receipt : Name} {raw : Bool} {outcome : Outcome}
    (custody : Custody world.ledger chronicle [] stack) :
    (makingReady world stack receipt raw outcome).InOrder chronicle := by
  obtain ⟨added, isPublic⟩ := newDeferred_custody custody
  have published : Custody world.newDeferred.1.ledger chronicle
      [.publication world.deferreds.size outcome] stack :=
    publication_custody added (unlaunched_next custody)
  exact placing_custody (published.light rfl) isPublic

theorem polling_inOrder {deferred : Nat} {waker : Waker}
    (custody : Custody world.ledger chronicle [] stack) :
    (polling world stack deferred waker).InOrder chronicle := by
  unfold polling
  split
  · exact custody
  · split
    · trivial
    · exact custody
    · split
      · exact custody.retrieved deferred (by simp)
      · refine custody.wakerChanged ?_
        intro found
        unfold Deferred.keepWaker
        split
        · split <;> exact ⟨rfl, rfl⟩
        · exact ⟨rfl, rfl⟩

theorem collecting_inOrder {waiter : Nat} (custody : Custody world.ledger chronicle [] stack) :
    (collecting world stack waiter).InOrder chronicle := by
  unfold collecting
  split
  · exact custody
  · next found lookup =>
      have collected {owned : List Owned}
          (share : owned.flatMap Owned.holdings = (found.run.map (·.2)).toList.map .share) :
          Custody (world.modifyWaiter waiter ({ · with run := none })).ledger chronicle
            (owned.flatMap Owned.holdings) stack :=
        share ▸ custody.collected lookup
      cases found.signal with
      | waiting =>
          simp only
          exact custody
      | lost =>
          simp only
          exact disposing_inOrder _ (collected (by cases found.run <;> rfl))
      | woken =>
          simp only
          refine disposing_inOrder _ ((collected (by cases found.run <;> rfl)).retrieved _ ?_)
          intro holding member
          obtain ⟨owned, -, held⟩ := List.mem_flatMap.mp member
          exact Owned.rests_of_mem_holdings held

/-! ## Machines -/

/-- A machine is started: its first resumption is next, and its starter's share waits
with whatever else was in hand. -/
theorem starting_inOrder {machine : Machine} {scheduler : Scheduler} {observer : Observer}
    {waiting : Nat → Frame} {before kept : List Holding}
    (custody : Custody world.ledger chronicle before stack)
    (balance : ∀ asset, Holding.amount asset before =
      observer.assets.count asset + Holding.amount asset kept)
    (rests : ∀ holding ∈ kept, holding ∈ before ∧ holding.rests = true)
    (observed : ∀ deferred, observer = .writer deferred → chronicle.work deferred = none)
    (frame : (waiting world.activations.size).holdings =
      .share world.activations.size :: kept) :
    (starting world stack machine scheduler observer waiting).InOrder
      (chronicle.after (.started world.activations.size machine observer)) := by
  refine Custody.push ?_
  rw [frame]
  exact custody.begun balance rests observed

theorem startingAwaitable_inOrder {handle receipt : Name} {machine : Machine}
    {scheduler : Scheduler} {early : Bool} (custody : Custody world.ledger chronicle [] stack) :
    (startingAwaitable world stack handle machine scheduler receipt early).InOrder
      (chronicle.after (.started world.activations.size machine
        (.writer world.deferreds.size))) := by
  obtain ⟨added, isPublic⟩ := newDeferred_custody custody
  have observed (deferred : Nat)
      (same : Observer.writer world.deferreds.size = .writer deferred) :
      chronicle.work deferred = none := by
    cases same
    exact unlaunched_next custody
  have balance (asset : Asset) :
      Holding.amount asset [.writer world.deferreds.size] =
        (Observer.writer world.deferreds.size).assets.count asset +
          Holding.amount asset [] := by
    simp [Holding.assets, Observer.assets]
  unfold startingAwaitable
  simp only
  split
  · exact starting_inOrder (added.receiptNamed receipt false isPublic) balance (by simp)
      observed rfl
  · exact starting_inOrder (placing_custody added isPublic) balance (by simp) observed rfl

theorem runningMachine_inOrder {threadName : String} {pool : Nat} {machine : Machine}
    (custody : Custody world.ledger chronicle [] stack) :
    (runningMachine world stack threadName pool machine).InOrder
      (chronicle.after (.started world.activations.size machine
        (.writer world.deferreds.size))) := by
  obtain ⟨added, isPublic⟩ := newDeferred_custody custody
  have held : Custody world.newDeferred.1.ledger chronicle
      [.writer world.deferreds.size, .receipt world.deferreds.size] stack := by
    refine added.exchange (fun asset => by simp [Holding.assets]) ?_
    intro holding member
    simp only [List.mem_cons, List.not_mem_nil, or_false] at member
    rcases member with rfl | rfl
    · exact added.rightful_head
    · exact isPublic
  have entered : Custody
      (entered { world.newDeferred.1 with thread := ⟨threadName, none⟩ } pool).ledger chronicle
      [.writer world.deferreds.size, .receipt world.deferreds.size] stack :=
    held.poolRetouched fun _ => rfl
  refine Custody.push ?_
  change Custody _ _ ([.resuming world.activations.size, .share world.activations.size,
    .receipt world.deferreds.size] ++ [.promise world.activations.size world.deferreds.size])
      (.thread world.thread :: stack)
  refine Custody.besides ((entered.light rfl).begun ?_ ?_ ?_) rfl ?_
  · intro asset
    simp [Holding.assets, Observer.assets]
  · intro holding member
    rw [List.mem_singleton.mp member]
    exact ⟨by simp, rfl⟩
  · intro deferred same
    cases same
    exact unlaunched_next custody
  · simp [Holding.Rightful, Life.Promises, Chronicle.after]

/-! ## Schedulers and runtimes -/

/-- What is taken out of a custom scheduler's list is no longer in it. -/
theorem amount_set_none {queue : ManualQueue} {index : Nat} {continuation : Continuation}
    (asset : Asset) (present : queue[index]? = some (some continuation)) :
    Continuation.amount asset ((queue.set index none).filterMap id) +
        continuation.assets.count asset =
      Continuation.amount asset (queue.filterMap id) := by
  induction queue generalizing index with
  | nil => simp at present
  | cons head rest ih =>
      cases index with
      | zero =>
          simp only [List.getElem?_cons_zero, Option.some.injEq] at present
          subst present
          simp [Nat.add_comm]
      | succ index =>
          simp only [List.getElem?_cons_succ] at present
          have tail := ih present
          cases head with
          | none => simpa using tail
          | some first =>
              have kept (more : ManualQueue) :
                  (some first :: more).filterMap id = first :: more.filterMap id := rfl
              rw [List.set_cons_succ, kept, kept, Continuation.amount_cons,
                Continuation.amount_cons]
              omega

theorem takingQueued_inOrder {name : Name} {index : Nat} {use : Continuation → Task}
    (custody : Custody world.ledger chronicle [] stack)
    (loose : ∀ continuation, (use continuation).holdings = [.continuation .loose continuation]) :
    (takingQueued world stack name index use).InOrder chronicle := by
  unfold takingQueued withNamed
  split
  · exact custody
  · next queue _ =>
      simp only
      split
      · next continuation present =>
          cases lookup : world.queues.get? queue with
          | none => simp [lookup] at present
          | some found =>
              simp only [lookup, Option.getD_some] at present
              have member : some continuation ∈ found := List.mem_of_getElem? present
              refine performing_inOrder _ ?_
              rw [loose]
              refine custody.onQueue lookup ?_ ?_ ?_
              · intro asset
                simpa [Holding.assets] using amount_set_none asset present
              · intro holding held
                rw [List.mem_singleton.mp held]
                exact (custody.kept (.queued (.queue queue)) continuation
                  ⟨found, lookup, member⟩).dequeue
              · intro queued stays
                rcases List.mem_or_eq_of_mem_set stays with old | new
                · exact .inl old
                · cases new
      · exact custody

theorem turning_inOrder {name : Name} {loop : Nat}
    (custody : Custody world.ledger chronicle [] stack) :
    (turning world stack name loop).InOrder chronicle := by
  unfold turning
  split
  · exact parking_inOrder custody
  · next queue => exact Custody.light (loopPopped custody queue) rfl

theorem makingLoop_inOrder {name : Name} (custody : Custody world.ledger chronicle [] stack) :
    (makingLoop world stack name).InOrder chronicle := by
  have added := custody.loopAdded
  unfold makingLoop World.restoreLoop
  refine disposing_inOrder _ ?_
  cases world.ownedLoops.find? name <;> exact added

theorem makingRuntime_inOrder {name : Name} {workers : Nat} {threadName : String}
    (custody : Custody world.ledger chronicle [] stack) :
    (makingRuntime world stack name workers threadName).InOrder chronicle := by
  unfold makingRuntime
  split
  · exact custody
  · have added : Custody
        { world.ledger with
          pools := world.pools.push (.fresh world.pools.size workers threadName) }
        chronicle [] stack := custody.poolAdded rfl
    refine disposing_inOrder _ ?_
    cases world.runtimes.find? name <;> exact added

theorem working_inOrder {pool : Nat} (custody : Custody world.ledger chronicle [] stack) :
    (working world stack pool).InOrder chronicle := by
  unfold working
  split
  · exact custody
  · next found lookup =>
      split
      · next job rest number jobs _ =>
          refine Custody.light ?_ rfl
          refine custody.onPool lookup ?_ ?_ ?_
          · intro asset
            simp [jobs, Pool.modifyWorker, Task.holdings, Control.holdings, Holding.assets,
              Nat.add_comm]
          · intro holding member
            rw [List.mem_singleton.mp member]
            exact (custody.kept (.queued (.pool pool)) job
              ⟨found, lookup, by simp [jobs]⟩).dequeue
          · intro other member
            exact .inl (by rw [jobs]; exact List.mem_cons_of_mem _ member)
      · exact custody

/-! ## All requests -/

theorem withNamed_inOrder {α : Type} {table : Table α} {name : Name} {use : α → State}
    (custody : Custody world.ledger chronicle [] stack)
    (found : ∀ value, table.find? name = some value → (use value).InOrder chronicle) :
    (withNamed world stack table name use).InOrder chronicle := by
  unfold withNamed
  split
  · exact custody
  · next value lookup => exact found value lookup

theorem withReceipt_inOrder {name : Name} {use : Receipt → State}
    (custody : Custody world.ledger chronicle [] stack)
    (found : ∀ receipt, world.ledger.Public chronicle receipt.deferred →
      (use receipt).InOrder chronicle) :
    (withReceipt world stack name use).InOrder chronicle := by
  unfold withReceipt
  split
  · exact custody
  · next receipt lookup => exact found receipt (custody.receipts name receipt lookup)

theorem withAwaiter_inOrder {name : Name} {use : Nat → State}
    (custody : Custody world.ledger chronicle [] stack)
    (found : ∀ deferred, world.ledger.Public chronicle deferred →
      (use deferred).InOrder chronicle) :
    (withAwaiter world stack name use).InOrder chronicle := by
  refine withReceipt_inOrder custody fun receipt isPublic => ?_
  split
  · exact custody
  · exact found receipt.deferred isPublic

/-- A machine under a name is asked to stop; its life knows. -/
theorem cancelled_custody {handle : Name} {machine : Nat}
    (custody : Custody world.ledger chronicle [] stack)
    (named : world.handles.find? handle = some machine) :
    Custody (world.modifyActivation machine ({ · with cancelled := true })).ledger
      (chronicle.after (.cancelled machine)) [] stack := by
  cases lookup : world.activations.get? machine with
  | none =>
      have account := custody.machines machine
      have absent : world.ledger.activations.get? machine = none := lookup
      have bound := Table.le_total named fun other => [Asset.share other].count (.share machine)
      simp only [List.count_singleton_self] at bound
      have present : world.ledger.handles = world.handles := rfl
      simp only [Ledger.MachineAccount, absent, Ledger.total, Ledger.amount, present] at account
      omega
  | some found =>
      have present : world.ledger.activations.get? machine = some found := lookup
      obtain ⟨-, owners, status⟩ := custody.accords_of_lookup present
      have waits (waiting : found.Waits (chronicle.life machine)) :
          Activation.Waits { found with cancelled := true }
            ((chronicle.after (.cancelled machine)).life machine) := by
        simpa [Activation.Waits, Life.Awaits, Chronicle.after] using waiting
      have violated (broken : (chronicle.life machine).Violated) :
          ((chronicle.after (.cancelled machine)).life machine).Violated := by
        simpa [Life.Violated, Chronicle.after] using broken
      have told : ((chronicle.after (.cancelled machine)).life machine).told =
          (chronicle.life machine).told := by
        simp [Chronicle.after]
      have observed (before : found.Observed (chronicle.life machine)) :
          Activation.Observed { found with cancelled := true }
            ((chronicle.after (.cancelled machine)).life machine) := by
        simpa [Activation.Observed, Chronicle.after] using before
      refine custody.evolved present
        (fun other different => by simp [Chronicle.after, different])
        (by simp [Chronicle.after]) rfl (fun _ _ => rfl)
        ⟨by simp [Chronicle.after], owners, ?_⟩ (.inr ⟨rfl, rfl⟩)
        (.inr ⟨rfl, by simp [Chronicle.after]⟩) (fun _ written => written) (by simp)
      cases state : found.status with
      | idle =>
          simp only [state, told] at status ⊢
          obtain ⟨resumptions, claims, observer, untold, waiting⟩ := status
          exact ⟨resumptions, claims, observed observer, untold, waits waiting⟩
      | running =>
          simp only [state, told] at status ⊢
          obtain ⟨resumptions, claims, untold, observer, broken⟩ := status
          exact ⟨resumptions, claims, untold, fun one => observed (observer one),
            fun none => violated (broken none)⟩
      | finished =>
          simp only [state, told] at status ⊢
          exact status

theorem driving_inOrder {name : Name} {drive : World → Nat → State}
    (custody : Custody world.ledger chronicle [] stack)
    (drives : ∀ loop, (drive { world with ownedLoops := world.ownedLoops.erase name }
      loop).InOrder chronicle) :
    (driving world stack name drive).InOrder chronicle :=
  withNamed_inOrder custody fun loop _ => drives loop

theorem droppingRuntime_inOrder {name : Name}
    (custody : Custody world.ledger chronicle [] stack) :
    (droppingRuntime world stack name).InOrder chronicle := by
  refine withNamed_inOrder custody fun pool _ => ?_
  split
  · exact custody
  · exact Custody.light custody rfl

/-- Each request keeps order. -/
theorem requesting_inOrder {request : Request}
    (custody : Custody world.ledger chronicle [] stack) :
    (requesting world stack request).InOrder
      (chronicle.afterAll (world.requested request)) := by
  cases request with
  | pending receipt raw writer => exact makingPending_inOrder custody
  | ready receipt raw outcome => exact makingReady_inOrder custody
  | complete writer outcome =>
      refine withNamed_inOrder custody fun deferred lookup => performing_inOrder _ ?_
      exact publication_custody (custody.writerTaken lookup)
        (custody.named writer deferred lookup)
  | dropWriter writer =>
      refine withNamed_inOrder custody fun deferred lookup => performing_inOrder _ ?_
      exact custody.writerTaken lookup
  | toAwaiter receipt =>
      refine withReceipt_inOrder custody fun found isPublic => ?_
      split
      · exact custody.receiptNamed receipt false isPublic
      · exact custody
  | readiness receipt => exact withReceipt_inOrder custody fun _ _ => custody
  | isComplete deferred => exact custody
  | onComplete receipt body =>
      refine withReceipt_inOrder custody fun found _ => ?_
      have offered : Custody world.ledger chronicle [.continuation .loose (.callback body)]
          stack :=
        custody.exchange (fun asset => by simp [Holding.assets, Continuation.assets])
          fun holding member => by rw [List.mem_singleton.mp member]; trivial
      exact registering_inOrder (offered.light rfl) rfl (fun _ => trivial) fun _ => trivial
  | retrieve receipt =>
      exact withAwaiter_inOrder custody fun deferred _ => custody.retrieved deferred (by simp)
  | dropReceipt receipt =>
      exact withReceipt_inOrder custody fun _ _ => custody.receiptDropped receipt
  | suspend receipt resumeAt => exact withAwaiter_inOrder custody fun _ _ => custody
  | dispatch receipt raw infallible target work =>
      refine dispatching_inOrder none custody fun later sequel inHand held there => ?_
      exact placing_custody (held.light rfl) there
  | newWaker waker body => exact custody
  | poll receipt waker =>
      exact withNamed_inOrder custody fun _ _ =>
        withAwaiter_inOrder custody fun _ _ => polling_inOrder custody
  | wait receipt =>
      refine withAwaiter_inOrder custody fun deferred isPublic => ?_
      exact waiting_inOrder (custody.receiptDropped receipt) (fun asset => rfl)
        ⟨isPublic, fun awake => (awake rfl).elim,
          fun _ _ run => (Option.some_ne_none _ run.symm).elim⟩
  | collect waiter => exact collecting_inOrder custody
  | schedule scheduler body =>
      refine performing_inOrder _ ?_
      exact custody.exchange
        (fun asset => by simp [Task.holdings, Holding.assets, Continuation.assets])
        fun holding member => by rw [List.mem_singleton.mp member]; trivial
  | newLoop loop => exact makingLoop_inOrder custody
  | findLoop loop => exact withNamed_inOrder custody fun _ _ => custody
  | turnLoop loop => exact driving_inOrder custody fun _ => turning_inOrder custody
  | runLoop loop => exact driving_inOrder custody fun _ => runningNext_inOrder custody
  | runLoopUntil loop deadline clock condition =>
      exact driving_inOrder custody fun _ => Custody.light custody rfl
  | dropLoop loop => exact driving_inOrder custody fun _ => Custody.light custody rfl
  | newQueue queue => exact custody.queueAdded
  | findQueue queue => exact withNamed_inOrder custody fun _ _ => custody
  | queueLength queue => exact withNamed_inOrder custody fun _ _ => custody
  | runQueued queue index => exact takingQueued_inOrder custody fun _ => rfl
  | dropQueued queue index => exact takingQueued_inOrder custody fun _ => rfl
  | newRuntime runtime workers threadName => exact makingRuntime_inOrder custody
  | dropRuntime runtime => exact droppingRuntime_inOrder custody
  | findPool runtime => exact withNamed_inOrder custody fun _ _ => custody
  | isShutdown runtime => exact withNamed_inOrder custody fun _ _ => custody
  | enter runtime body =>
      refine withNamed_inOrder custody fun pool _ => ?_
      exact Custody.light (custody.poolRetouched fun _ => rfl) rfl
  | run threadName runtime machine =>
      cases lookup : world.runtimes.find? runtime with
      | none =>
          simp only [requesting, withNamed, World.requested, lookup]
          exact custody
      | some pool =>
          simp only [requesting, withNamed, World.requested, lookup]
          exact runningMachine_inOrder custody
  | runtimes => exact custody
  | queuedJobs runtime => exact withNamed_inOrder custody fun _ _ => custody
  | work runtime => exact withNamed_inOrder custody fun _ _ => working_inOrder custody
  | start handle machine scheduler observer =>
      exact starting_inOrder custody (fun asset => rfl) (by simp) (by simp) rfl
  | startAwaitable handle machine scheduler receipt early =>
      exact startingAwaitable_inOrder custody
  | cancel handle =>
      cases lookup : world.handles.find? handle with
      | none =>
          simp only [requesting, withNamed, World.requested, lookup]
          exact custody
      | some machine =>
          simp only [requesting, withNamed, World.requested, lookup]
          exact cancelled_custody custody lookup
  | handle handle => exact withNamed_inOrder custody fun _ _ => custody
  | isFinished machine => exact custody
  | dropHandle handle =>
      refine withNamed_inOrder custody fun machine lookup => performing_inOrder _ ?_
      exact custody.handleTaken lookup
  | newMachine name machine => exact custody
  | stepMachine machine position => exact withNamed_inOrder custody fun _ _ => custody
  | dropMachine machine => exact withNamed_inOrder custody fun _ _ => custody
  | newRegion => exact custody
  | load cell => exact withNamed_inOrder custody fun _ _ => custody
  | store cell content => exact custody
  | note entry => exact custody
  | record record => exact custody
  | threadName => exact custody
  | thread name body => exact Custody.light custody rfl
  | attempt body => exact Custody.light custody rfl

end Stepwise.State
