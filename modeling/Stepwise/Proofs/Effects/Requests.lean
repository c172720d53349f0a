import Stepwise.Proofs.Effects.Tasks

/-!
# Effects of requests

A request registers a continuation when it asks for one to be called or blocks the thread,
and retrieves a result when it asks for one that is there.
-/

namespace Stepwise

/-- The effect of a request. -/
def World.effect (world : World) (request : Request) : Effect :=
  match request with
  | .onComplete receipt body =>
      match world.receipts.find? receipt with
      | some found => .registers found.deferred (.callback body)
      | none => .nothing
  | .wait receipt =>
      match world.awaiter? receipt with
      | some deferred => .registers deferred (.signal world.waiters.size)
      | none => .nothing
  | _ =>
      match world.asks request with
      | some deferred => .retrieves deferred
      | none => .nothing

namespace World

/-- A thread blocks on a deferred. -/
def block (world : World) (deferred : Nat) (run : Option (Nat × Nat)) : World :=
  { world with waiters := world.waiters.push ⟨deferred, .waiting, run⟩ }

variable {world : World} {deferred : Nat}

theorem exists_of_awaiter {receipt : Name} (awaited : world.awaiter? receipt = some deferred) :
    ∃ found, world.receipts.find? receipt = some found ∧ found.deferred = deferred := by
  simp only [awaiter?] at awaited
  split at awaited
  · next found kept =>
      split at awaited
      · cases awaited
      · exact ⟨found, kept, Option.some.inj awaited⟩
  · cases awaited

/-- A thread that blocks on a deferred will read it. -/
theorem reads_block (given : Nat) (run : Option (Nat × Nat)) :
    (world.block given run).reads deferred =
      world.reads deferred + if given = deferred then 1 else 0 := by
  simp only [reads, block, Store.total_push]
  omega

/-- One more may read what a receipt is put down for. -/
theorem reads_putReceipt (name : Name) (given : Nat) (raw : Bool) :
    (world.putReceipt name given raw).reads deferred ≤
      world.reads deferred + if given = deferred then 1 else 0 := by
  have inserted := world.receipts.total_insert name ⟨given, raw⟩
    fun receipt => if receipt.deferred = deferred then 1 else 0
  simp only [reads, putReceipt] at inserted ⊢
  omega

/-- A receipt that is put down again reads what it did. -/
theorem reads_putReceipt_again {name : Name} {found : Receipt}
    (kept : world.receipts.find? name = some found) (raw : Bool) :
    (world.putReceipt name found.deferred raw).reads deferred = world.reads deferred := by
  have inserted := world.receipts.total_insert name ⟨found.deferred, raw⟩
    fun receipt => if receipt.deferred = deferred then 1 else 0
  rw [kept] at inserted
  simp only [Option.map_some, Option.getD_some] at inserted
  simp only [reads, putReceipt]
  omega

/-- A receipt that is dropped reads nothing any more. -/
theorem reads_erase (name : Name) :
    { world with receipts := world.receipts.erase name }.reads deferred ≤
      world.reads deferred := by
  have erased := world.receipts.total_erase name
    fun receipt => if receipt.deferred = deferred then 1 else 0
  simp only [reads]
  omega

/-- A thread that blocks on a receipt reads in its place. -/
theorem reads_block_erase {name : Name} {found : Receipt}
    (kept : world.receipts.find? name = some found) (run : Option (Nat × Nat)) :
    (block { world with receipts := world.receipts.erase name } found.deferred run).reads
      deferred = world.reads deferred := by
  have erased := world.receipts.total_erase name
    fun receipt => if receipt.deferred = deferred then 1 else 0
  rw [kept] at erased
  simp only [Option.map_some, Option.getD_some] at erased
  rw [reads_block]
  simp only [reads]
  omega

end World

namespace State

variable {may : Task → Prop} {world : World} {stack : Stack}

theorem withNamed_affects {α : Type} {table : Table α} {name : Name} {use : α → State}
    (affects : ∀ value, Affects .nothing may world stack (use value)) :
    Affects .nothing may world stack (withNamed world stack table name use) := by
  unfold withNamed
  split
  · exact refusing_affects
  · exact affects _

theorem withReceipt_affects {name : Name} {use : Receipt → State}
    (affects : ∀ receipt, world.receipts.find? name = some receipt →
      Affects .nothing may world stack (use receipt)) :
    Affects .nothing may world stack (withReceipt world stack name use) := by
  unfold withReceipt
  split
  · exact refusing_affects
  · next receipt kept => exact affects receipt kept

/-- Without a receipt to await, a request is refused. -/
theorem withAwaiter_of_none {name : Name} {use : Nat → State}
    (nothing : world.awaiter? name = none) :
    ∃ refusal, withAwaiter world stack name use = .refusing world stack refusal := by
  simp only [World.awaiter?] at nothing
  simp only [withAwaiter, withReceipt]
  split at nothing
  · split at nothing
    · next found kept raw => exact ⟨.notAwaiter name.text, by simp [kept, raw]⟩
    · cases nothing
  · next absent => exact ⟨.noSuch name.text, by simp [absent]⟩

theorem withAwaiter_affects {name : Name} {use : Nat → State} {effectOf : Nat → Effect}
    (affects : ∀ deferred, world.awaiter? name = some deferred →
      Affects (effectOf deferred) may world stack (use deferred)) :
    Affects (match world.awaiter? name with
      | some deferred => effectOf deferred
      | none => .nothing) may world stack (withAwaiter world stack name use) := by
  cases awaited : world.awaiter? name with
  | none =>
      obtain ⟨refusal, refused⟩ := @withAwaiter_of_none world stack name use awaited
      rw [refused]
      exact refusing_affects
  | some deferred =>
      rw [World.withAwaiter_of_awaiter awaited]
      exact affects deferred awaited

/-- What is retrieved is retrieved from one deferred. -/
theorem retrieving_affects {deferred : Nat} {reply : Outcome → Reply} :
    Affects (.retrieves deferred) may world stack
      (.replying (world.retrieve deferred).1 stack (reply (world.retrieve deferred).2)) := by
  refine .inert (.retrieved deferred) ?_ ?_ ⟨[], rfl, rfl⟩ rfl
  · simp only [replying, World.waiters_retrieve]
    exact .same fun _ _ => rfl
  · exact fun other => Nat.le_of_eq (by simp [replying, World.reads])

theorem polling_affects {deferred : Nat} {waker : Waker} :
    Affects (match (match world.deferreds.get? deferred with
        | some found => if found.lock = .free ∧ found.isComplete then some deferred else none
        | none => none) with
      | some deferred => .retrieves deferred
      | none => .nothing) may world stack (polling world stack deferred waker) := by
  unfold polling
  cases world.deferreds.get? deferred with
  | none => exact replying_affects
  | some found =>
      cases lock : found.lock with
      | held | poisoned =>
          simp only [lock, reduceCtorEq, false_and, if_false]
          exact .plain rfl rfl rfl ⟨[], rfl, rfl⟩ rfl
      | free =>
          cases complete : found.isComplete with
          | true =>
              simp only [lock, complete, and_self, if_true]
              exact retrieving_affects
          | false =>
              simp only [lock, complete, Bool.false_eq_true, and_false, if_false]
              refine .inert (.retouched deferred ?_ ?_) (.same fun _ _ => rfl)
                (fun _ => Nat.le_refl _) ⟨[], rfl, rfl⟩ rfl
              all_goals
                intro found
                simp only [Deferred.keepWaker]
                split
                · split <;> rfl
                · rfl

theorem collecting_affects {waiter : Nat} :
    Affects (match (match world.waiters.get? waiter with
        | some found => if found.signal = .woken then some found.deferred else none
        | none => none) with
      | some deferred => .retrieves deferred
      | none => .nothing) may world stack (collecting world stack waiter) := by
  unfold collecting
  cases world.waiters.get? waiter with
  | none => exact replying_affects
  | some found =>
      have reads (deferred : Nat) :
          (world.modifyWaiter waiter fun found => { found with run := none }).reads deferred =
            world.reads deferred := World.reads_modifyWaiter waiter fun _ => rfl
      have disposed {later : World} {displaced : List Owned} {reply : Reply} {effect : Effect}
          (alters : effect.Alters world.deferreds later.deferreds)
          (receipts : later.receipts = world.receipts)
          (waiters : later.waiters =
            (world.modifyWaiter waiter fun found => { found with run := none }).waiters)
          (unsettled : ∀ waiter found, effect.signal waiter found = found.signal) :
          Affects effect may world stack (.disposing later stack displaced reply) := by
        have bound (deferred : Nat) : later.reads deferred ≤ world.reads deferred := by
          refine Nat.le_of_eq (Eq.trans ?_ (reads deferred))
          simp [World.reads, receipts, waiters, World.modifyWaiter]
        have rouses : effect.Rouses world.waiters later.waiters := by
          rw [waiters]
          exact .modify (fun other found _ => unsettled other found)
            (fun found => (unsettled waiter found).symm) (fun _ => rfl) fun _ => .inr rfl
        cases displaced with
        | nil => exact .inert alters rouses bound ⟨[], rfl, rfl⟩ rfl
        | cons first rest =>
            exact .inert alters rouses bound
              ⟨[.disposing (first :: rest), .answering reply], rfl, rfl⟩ rfl
      cases signal : found.signal with
      | waiting =>
          simp only [signal, reduceCtorEq, if_false]
          exact replying_affects
      | lost =>
          simp only [signal, reduceCtorEq, if_false]
          exact disposed (.nothing _) rfl rfl fun _ _ => rfl
      | woken =>
          simp only [signal, if_true]
          exact disposed (@Effect.Alters.retrieved (world.modifyWaiter waiter fun found =>
            { found with run := none }) found.deferred) (World.receipts_retrieve ..)
            (World.waiters_retrieve ..) fun _ _ => rfl

theorem starting_affects {machine : Machine} {scheduler : Scheduler} {observer : Observer}
    {waiting : Nat → Frame} (inert : ∀ number, (waiting number).isInert = true) :
    Affects .nothing may world stack
      (starting world stack machine scheduler observer waiting) :=
  .plain rfl rfl rfl ⟨[waiting world.activations.size], rfl, by simp [inert]⟩ rfl

theorem startingAwaitable_affects {handle receipt : Name} {machine : Machine}
    {scheduler : Scheduler} {early : Bool} :
    Affects .nothing may world stack
      (startingAwaitable world stack handle machine scheduler receipt early) := by
  unfold startingAwaitable
  cases early with
  | true =>
      refine .added rfl rfl rfl ?_ rfl
      intro deferred
      have bound := @World.reads_putReceipt world deferred receipt world.deferreds.size false
      have same : State.reads (starting
          ((world.newDeferred.1).putReceipt receipt world.deferreds.size false) stack machine
          scheduler (.writer world.deferreds.size) (.starting handle)) deferred =
          (world.putReceipt receipt world.deferreds.size false).reads deferred +
            stack.reads deferred := rfl
      simp only [if_true, World.newDeferred] at same ⊢
      omega
  | false =>
      refine .added rfl rfl rfl ?_ rfl
      intro deferred
      have same : State.reads (starting world.newDeferred.1
          (.placing receipt false world.deferreds.size :: stack) machine scheduler
          (.writer world.deferreds.size) (.starting handle)) deferred =
          world.reads deferred +
            Stack.reads (.placing receipt false world.deferreds.size :: stack) deferred := rfl
      simp only [Bool.false_eq_true, if_false, World.newDeferred] at same ⊢
      simp only [same, Stack.reads_cons, Frame.reads, beq_iff_eq]
      omega

theorem takingQueued_affects {name : Name} {index : Nat} {use : Continuation → Task}
    (idle : ∀ continuation, (use continuation).drives = false) :
    Affects .nothing may world stack (takingQueued world stack name index use) := by
  refine withNamed_affects fun queue => ?_
  split
  · exact (performing_affects (idle _)).beyond rfl rfl rfl
  · exact refusing_affects

theorem turning_affects {name : Name} {loop : Nat} :
    Affects .nothing may world stack (turning world stack name loop) := by
  unfold turning
  split
  · exact parking_affects
  · exact .plain rfl rfl rfl ⟨[.turning name loop], rfl, rfl⟩ rfl

theorem driving_affects {name : Name} {drive : World → Nat → State}
    (affects : ∀ later loop, Affects .nothing may later stack (drive later loop)) :
    Affects .nothing may world stack (driving world stack name drive) :=
  withNamed_affects fun loop => (affects _ loop).beyond rfl rfl rfl

theorem makingPending_affects {receipt writer : Name} {raw : Bool} :
    Affects .nothing may world stack (makingPending world stack receipt raw writer) := by
  have reads (deferred : Nat) :=
    @World.reads_putReceipt world deferred receipt world.deferreds.size raw
  have added {later : World} {displaced : List Owned}
      (deferreds : later.deferreds = world.deferreds.push .fresh)
      (receipts : later.receipts =
        (world.putReceipt receipt world.deferreds.size raw).receipts)
      (waiters : later.waiters = world.waiters) :
      Affects .nothing may world stack (.disposing later stack displaced .done) := by
    have bound (deferred : Nat) : later.reads deferred ≤
        world.reads deferred + if world.deferreds.size = deferred then 1 else 0 := by
      refine Nat.le_trans (Nat.le_of_eq ?_) (reads deferred)
      rw [World.reads, World.reads, receipts, waiters]
      rfl
    cases displaced with
    | nil =>
        refine .added deferreds waiters rfl ?_ rfl
        intro deferred
        have := bound deferred
        simp only [State.reads, disposing, replying]
        omega
    | cons first rest =>
        refine .added deferreds waiters rfl ?_ rfl
        intro deferred
        have := bound deferred
        simp only [State.reads, disposing, Stack.reads_cons, Frame.reads, Bool.false_eq_true,
          if_false]
        omega
  exact added rfl rfl rfl

/-- A thread that blocks registers its signal. -/
theorem waiting_affects {deferred : Nat} {run : Option (Nat × Nat)} :
    Affects (.registers deferred (.signal world.waiters.size)) may (world.block deferred run)
      stack (waiting world stack deferred run) :=
  Affects.above [.answering (.reference world.waiters.size)] rfl registering_affects

/-- A request has the effect that can be read off it. -/
theorem requesting_affects {request : Request} :
    Affects (world.effect request) may world stack (requesting world stack request) := by
  cases request with
  | onComplete receipt body =>
      simp only [World.effect, requesting, withReceipt]
      cases world.receipts.find? receipt with
      | none => exact refusing_affects
      | some found => exact Affects.above [.answering .done] rfl registering_affects
  | wait receipt =>
      simp only [World.effect, requesting]
      refine withAwaiter_affects fun deferred awaited => ?_
      obtain ⟨found, kept, rfl⟩ := World.exists_of_awaiter awaited
      have affects := @waiting_affects may { world with receipts := world.receipts.erase receipt }
        stack found.deferred none
      exact affects.of_world rfl affects.rouses.of_push fun _ =>
        Nat.le_of_eq (World.reads_block_erase kept none)
  | retrieve receipt =>
      simp only [World.effect, World.asks, requesting]
      exact withAwaiter_affects fun deferred _ => retrieving_affects
  | poll receipt waker =>
      simp only [World.effect, World.asks, requesting, withNamed]
      cases world.wakers.find? waker with
      | none => exact refusing_affects
      | some found =>
          cases awaited : world.awaiter? receipt with
          | none =>
              obtain ⟨refusal, refused⟩ := @withAwaiter_of_none world stack receipt
                (fun deferred => polling world stack deferred found) awaited
              simp only [refused]
              exact refusing_affects
          | some deferred =>
              simp only [World.withAwaiter_of_awaiter awaited]
              exact polling_affects
  | collect waiter => exact collecting_affects
  | pending receipt raw writer => exact makingPending_affects
  | ready receipt raw outcome =>
      refine .added rfl rfl rfl ?_ rfl
      intro deferred
      have same : State.reads (makingReady world stack receipt raw outcome) deferred =
          world.reads deferred + Stack.reads
            (.placing receipt raw world.deferreds.size :: .answering .done :: stack) deferred :=
        rfl
      simp only [requesting, same, Stack.reads_cons, Frame.reads, beq_iff_eq,
        Bool.false_eq_true, if_false]
      omega
  | complete writer outcome =>
      exact withNamed_affects fun _ => (performing_affects rfl).beyond rfl rfl rfl
  | dropWriter writer =>
      exact withNamed_affects fun _ => (performing_affects rfl).beyond rfl rfl rfl
  | toAwaiter receipt =>
      refine withReceipt_affects fun found kept => ?_
      split
      · exact .inert (.nothing _) (.same fun _ _ => rfl)
          (fun _ => Nat.le_of_eq (World.reads_putReceipt_again kept false)) ⟨[], rfl, rfl⟩ rfl
      · exact refusing_affects
  | readiness receipt => exact withReceipt_affects fun _ _ => replying_affects
  | dropReceipt receipt =>
      exact withReceipt_affects fun _ _ =>
        .inert (.nothing _) (.same fun _ _ => rfl) (fun _ => World.reads_erase receipt)
          ⟨[], rfl, rfl⟩ rfl
  | suspend receipt resumeAt =>
      have affects := @withAwaiter_affects may world stack receipt
        (fun deferred => .replying world stack (.suspended resumeAt deferred))
        (fun _ => .nothing) fun _ _ => replying_affects
      have same : (match world.awaiter? receipt with
          | some _ => Effect.nothing
          | none => .nothing) = .nothing := by split <;> rfl
      rw [same] at affects
      exact affects
  | dispatch receipt raw infallible target work =>
      refine @dispatching_affects may world stack target infallible work
        (fun deferred => .placing receipt raw deferred :: .answering .done :: stack) rfl
        fun deferred => ?_
      simp only [Stack.reads_cons, Frame.reads, beq_iff_eq, Bool.false_eq_true, if_false]
      omega
  | schedule scheduler body => exact performing_affects rfl
  | newLoop loop => exact disposing_affects.beyond rfl rfl rfl
  | turnLoop loop =>
      simp only [requesting]
      exact driving_affects fun _ _ => turning_affects
  | runLoop loop =>
      simp only [requesting]
      exact driving_affects fun _ _ => runningNext_affects
  | runLoopUntil loop deadline clock condition =>
      simp only [requesting]
      exact driving_affects fun _ _ => deciding_affects
  | dropLoop loop =>
      simp only [requesting]
      exact driving_affects fun _ _ => performing_affects rfl
  | runQueued queue index => exact takingQueued_affects fun _ => rfl
  | dropQueued queue index => exact takingQueued_affects fun _ => rfl
  | newRuntime runtime workers threadName =>
      simp only [requesting, makingRuntime]
      split
      · exact .plain rfl rfl rfl ⟨[], rfl, rfl⟩ rfl
      · exact disposing_affects.beyond rfl rfl rfl
  | dropRuntime runtime =>
      refine withNamed_affects fun pool => ?_
      split
      · exact refusing_affects
      · exact (performing_affects rfl).beyond rfl rfl rfl
  | enter runtime body =>
      exact withNamed_affects fun pool =>
        .plain rfl rfl rfl ⟨[.context world.thread.context pool], rfl, rfl⟩ rfl
  | run threadName runtime machine =>
      refine withNamed_affects fun pool => .added rfl rfl rfl ?_ rfl
      intro deferred
      have same : State.reads (runningMachine world stack threadName pool machine) deferred =
          world.reads deferred + Stack.reads (.blocking world.activations.size pool
            world.deferreds.size :: .thread world.thread :: stack) deferred := rfl
      simp only [same, Stack.reads_cons, Frame.reads, beq_iff_eq, Bool.false_eq_true, if_false]
      omega
  | work runtime =>
      refine withNamed_affects fun pool => ?_
      simp only [working]
      split
      · exact replying_affects
      · split
        · exact .plain rfl rfl rfl ⟨[.worker _ _ world.thread], rfl, rfl⟩ rfl
        · exact replying_affects
  | start handle machine scheduler observer => exact starting_affects fun _ => rfl
  | startAwaitable handle machine scheduler receipt early => exact startingAwaitable_affects
  | cancel handle => exact withNamed_affects fun _ => .plain rfl rfl rfl ⟨[], rfl, rfl⟩ rfl
  | dropHandle handle =>
      exact withNamed_affects fun _ => (performing_affects rfl).beyond rfl rfl rfl
  | stepMachine machine position =>
      exact withNamed_affects fun _ => .plain rfl rfl rfl ⟨[], rfl, rfl⟩ rfl
  | dropMachine machine =>
      exact withNamed_affects fun _ => .plain rfl rfl rfl ⟨[], rfl, rfl⟩ rfl
  | thread name body => exact .plain rfl rfl rfl ⟨[.thread world.thread], rfl, rfl⟩ rfl
  | attempt body => exact .plain rfl rfl rfl ⟨[.attempting], rfl, rfl⟩ rfl
  | findLoop _ | findQueue _ | queueLength _ | findPool _ | isShutdown _ | queuedJobs _
  | handle _ | load _ => exact withNamed_affects fun _ => replying_affects
  | isComplete _ | newWaker _ _ | newQueue _ | runtimes | isFinished _ | newMachine _ _
  | newRegion | store _ _ | note _ | record _ | threadName =>
      exact .plain rfl rfl rfl ⟨[], rfl, rfl⟩ rfl

end State

end Stepwise
