import Stepwise.Proofs.Course.Shelter
import Stepwise.Proofs.Resumption

/-!
# No machine is lost

A suspended library machine awaits a work of its own.  While the work is under way, the
writer of its deferred is with the job or with the frame that runs it, and never with a
name or an observer; once it is over, the resumption has left the deferred for the
scheduler.  So when all code has ended and nothing is queued, every library machine has
been told its outcome.
-/

namespace Stepwise

/-- Whether nothing is queued: no job on any runtime, no continuation on any event loop,
nor with any custom scheduler. -/
def World.isDrained (world : World) : Bool :=
  world.pools.values.toList.all (·.jobs.isEmpty) &&
    world.loops.values.toList.all (·.queue.isEmpty) &&
    world.queues.values.toList.all fun queue => queue.all (·.isNone)

variable {trace : List Occurrence} {state : State} {world : World} {chronicle : Chronicle}
  {machine : Nat} {form : Machine}

/-- Where nothing is queued, the world keeps continuations on deferreds only. -/
theorem Ledger.Holds.registered {site : Site} {continuation : Continuation}
    (holds : world.ledger.Holds site continuation) (drained : world.isDrained = true) :
    ∃ deferred, site = .registered deferred := by
  simp only [World.isDrained, Bool.and_eq_true, List.all_eq_true, Array.mem_toList_iff]
    at drained
  obtain ⟨⟨pools, loops⟩, queues⟩ := drained
  match site, holds with
  | .registered deferred, _ => exact ⟨deferred, rfl⟩
  | .queued (.pool pool), ⟨found, lookup, member⟩ =>
      have empty := pools found (Array.mem_of_getElem? lookup)
      rw [List.isEmpty_iff.mp empty] at member
      cases member
  | .queued (.loop loop), ⟨found, lookup, member⟩ =>
      have empty := loops found (Array.mem_of_getElem? lookup)
      rw [List.isEmpty_iff.mp empty] at member
      cases member
  | .queued (.queue queue), ⟨found, lookup, member⟩ =>
      cases queues found (Array.mem_of_getElem? lookup) _ member

namespace Custody

/-- Where nothing is queued and nothing is in hand, a work under way has lost its writer:
there is none. -/
theorem over_of_drained {deferred : Nat} {work : Work}
    (custody : Custody world.ledger chronicle [] []) (drained : world.isDrained = true)
    (recorded : chronicle.work deferred = some work) :
    world.isComplete deferred = true := by
  have account := custody.deferreds deferred
  cases lookup : world.deferreds.get? deferred with
  | none => simp [World.isComplete, lookup]
  | some found =>
      have present : world.ledger.deferreds.get? deferred = some found := lookup
      simp only [Ledger.DeferredAccount, present, Deferred.Accords] at account
      cases complete : found.isComplete with
      | true => simp [World.isComplete, lookup, complete]
      | false =>
          simp only [complete, Bool.false_eq_true, if_false] at account
          have positive : 0 < world.ledger.amount (.writer deferred) := by
            have one := account.1
            simp only [Ledger.total, Stack.holdings, List.flatMap_nil, List.append_nil,
              Holding.amount_nil] at one
            omega
          rcases Ledger.cases_of_writer_pos positive with ⟨site, work, holds⟩ |
            ⟨machine, activation, observing, observes⟩ | ⟨name, named⟩
          · obtain ⟨elsewhere, rfl⟩ := holds.registered drained
            exact (custody.kept _ _ holds).elim
          · rw [custody.observed machine activation deferred observing observes] at recorded
            cases recorded
          · rw [custody.named name deferred named] at recorded
            cases recorded

end Custody

namespace State

/-- When all code has ended, nothing is on its way. -/
theorem isOpen_of_hasEnded (ended : state.hasEnded) : state.isOpen = true := by
  rcases ended.2 with ⟨reply, same⟩ | ⟨payload, same⟩ <;> simp [isOpen, same]

/-- When all code has ended, no machine is claimed. -/
theorem accords_of_hasEnded {found : Activation} (order : state.InOrder chronicle)
    (ended : state.hasEnded) (lookup : state.world.activations.get? machine = some found) :
    ∃ shares, found.Accords (chronicle.life machine) (state.resumptions machine) 0 shares := by
  obtain ⟨nothing, custody⟩ := custody_of_isOpen order (isOpen_of_hasEnded ended)
  have accords := custody.accords_of_lookup lookup
  have counted : state.resumptions machine =
      state.world.ledger.total [] state.stack (.resumption machine) := by
    rw [resumptions, nothing]
  have unclaimed : state.world.ledger.total [] state.stack (.claim machine) = 0 := by
    simp [ended.1, Ledger.total, Ledger.unclaimed, Stack.holdings]
  simp only [Holding.amount_nil, Nat.add_zero, unclaimed, ← counted] at accords
  exact ⟨_, accords⟩

end State

/-- No machine is lost.  When all code has ended and nothing is queued, every library
machine that was started is finished, and its observer was told. -/
theorem finished_of_drained (reaches : Reaches trace state) (ended : state.hasEnded)
    (drained : state.world.isDrained = true)
    (started : ((Chronicle.of trace).life machine).form = some form)
    (library : form.isLibrary = true) :
    ∃ found, state.world.activations.get? machine = some found ∧ found.status = .finished ∧
      ((Chronicle.of trace).life machine).told.isSome = true := by
  have phase := reaches.seated.seated.phases machine form started library
  have order := reaches.inOrder
  obtain ⟨world, stack, control⟩ := state
  obtain ⟨rfl, settled⟩ := ended
  have custody : Custody world.ledger (.of trace) [] [] := by
    rcases settled with ⟨reply, rfl⟩ | ⟨payload, rfl⟩ <;> exact order
  cases lookup : world.activations.get? machine with
  | none =>
      have account := custody.machines machine
      have absent : world.ledger.activations.get? machine = none := lookup
      simp only [Ledger.MachineAccount, absent] at account
      simp [account.2.2.2, Life.unborn] at started
  | some found =>
      obtain ⟨-, -, accords⟩ := custody.accords_of_lookup lookup
      simp only [Holding.amount_nil, Nat.add_zero] at accords
      cases status : found.status with
      | finished =>
          simp only [status] at accords
          exact ⟨found, rfl, status, accords.2.2.1⟩
      | running =>
          -- A machine that runs for ever has broken the protocol, which no plan does.
          simp only [status] at accords
          have unclaimed : world.ledger.total [] [] (.claim machine) = 0 := by
            simp [Ledger.total, Ledger.unclaimed, Stack.holdings]
          obtain ⟨position, error, step, fatal⟩ := accords.2.2.2.2 unclaimed
          simp only [Phase, step] at phase
          obtain ⟨⟨point, -, outcome⟩, -⟩ := phase
          simp [Point.isFatal_of_outcome outcome] at fatal
      | idle =>
          -- The resumption is on the deferred of a work, which is still under way then.
          simp only [status] at accords
          obtain ⟨one, -, -, -, waits⟩ := accords
          obtain ⟨site, continuation, carried, admits, holds | held⟩ :=
            @State.exists_of_resumption (.of trace) ⟨world, [], control⟩ machine custody
              (by rw [one]; exact Nat.one_pos)
          · obtain ⟨deferred, rfl⟩ := holds.registered drained
            have incomplete : world.isComplete deferred = false :=
              custody.isComplete_of_registered holds
            have pending : found.pending = some deferred := by
              cases continuation with
              | callback _ | job _ _ | signal _ => simp [Continuation.assets] at carried
              | resumption _ => exact admits.elim
              | handOver scheduler other =>
                  simp only [Continuation.assets, List.mem_singleton, Asset.resumption.injEq]
                    at carried
                  subst carried
                  obtain ⟨again, lookupAgain, -, pending⟩ := admits
                  cases lookup.symm.trans lookupAgain
                  exact pending
            rcases waits with ⟨absent, -⟩ | ⟨resumeAt, awaited, same, -, position, step⟩
            · simp [absent] at pending
            · cases same.symm.trans pending
              simp only [Phase, step] at phase
              obtain ⟨values, -, rests⟩ := phase
              obtain ⟨work, fate, -, recorded, -⟩ := rests.expects.planned
              simp [custody.over_of_drained drained recorded] at incomplete
          · simp [Stack.holdings] at held

/-- Start a pipeline whose stage is queued on a runtime, and let a worker run it. -/
def Program.queueing : Program :=
  .call (.newRuntime (.shared "runtime") 1 "worker") fun _ =>
    .call (.start (.shared "machine")
      (.pipeline (.int 1) [fun _ => .ret (.value (.int 2))] (.always (.pool 0))
        fun _ _ => .ret .done) .inline fun _ => .ret .done) fun _ =>
      .call (.work (.shared "runtime")) .ret

/-- Nothing is queued after that run, and the pipeline is finished. -/
theorem finished_of_drained_queueing :
    ((State.ofProgram .initial .queueing).walk 40).2.world.isDrained = true ∧
      ∃ found, ((State.ofProgram .initial .queueing).walk 40).2.world.activations.get? 0 =
        some found ∧ found.status = .finished := by
  have ended : ((State.ofProgram .initial .queueing).walk 40).2.hasEnded :=
    ⟨rfl, .inl ⟨_, rfl⟩⟩
  obtain ⟨found, lookup, status, -⟩ :=
    @finished_of_drained _ _ 0 _ ((Reaches.begin .queueing).walk 40) ended rfl rfl rfl
  exact ⟨rfl, found, lookup, status⟩

end Stepwise
