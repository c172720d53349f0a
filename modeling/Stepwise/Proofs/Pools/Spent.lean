import Stepwise.Proofs.Pools.Runtimes
import Stepwise.Proofs.Writer

/-!
# What a pool has done with

A pool that accepts no jobs refuses the work that is sent to it, and completes its deferred
by that at once.  So once all work that was sent to such a pool is complete, it stays so,
and nobody is suspended on any of it.
-/

namespace Stepwise

variable {state : State} {world : World} {stack : Stack} {chronicle : Chronicle}
  {past : List State} {pool machine deferred : Nat} {scheduler : Scheduler}

/-! ## Who keeps a resumption -/

/-- A continuation that resumes a machine, and is registered nowhere, comes after what the
machine awaits is complete. -/
theorem Site.Admits.completed {site : Site} {ledger : Ledger} {continuation : Continuation}
    (admits : site.Admits ledger chronicle continuation)
    (carried : .resumption machine ∈ continuation.assets)
    (unregistered : ∀ deferred, site ≠ .registered deferred) :
    ∃ scheduler deferred, ledger.Suspends machine scheduler deferred ∧
      ledger.Completed deferred := by
  rcases Continuation.cases_of_resumption carried with ⟨scheduler, rfl⟩ | rfl
  · cases site with
    | registered deferred => exact absurd rfl (unregistered deferred)
    | fired deferred => exact ⟨scheduler, deferred, admits⟩
    | loose =>
        obtain ⟨deferred, both⟩ := admits
        exact ⟨scheduler, deferred, both⟩
    | sent _ | queued _ => exact admits.elim
  · cases site with
    | registered _ | fired _ => exact admits.elim
    | loose => exact admits
    | sent scheduler | queued scheduler =>
        obtain ⟨deferred, both⟩ := admits
        exact ⟨scheduler, deferred, both⟩

namespace State

/-- How much of an asset calls in progress hold. -/
def held (state : State) (asset : Asset) : Nat :=
  Holding.amount asset (state.control.holdings ++ Stack.holdings state.stack)

/-- Calls in progress hold no continuation as registered. -/
theorem unregistered {site : Site} {continuation : Continuation}
    (member : .continuation site continuation ∈
      state.control.holdings ++ Stack.holdings state.stack) (deferred : Nat) :
    site ≠ .registered deferred := by
  rintro rfl
  rcases List.mem_append.mp member with inHand | held
  · obtain ⟨world, stack, control⟩ := state
    cases control with
    | task task =>
        cases task with
        | discard owned =>
            cases owned <;> simp [Control.holdings, Task.holdings, Owned.holdings] at inHand
        | _ => simp [Control.holdings, Task.holdings] at inHand
    | _ => cases inHand
  · rcases exists_of_mem_holdings held with ⟨_, _, -, same, -⟩ | ⟨same, -⟩ <;> cases same

end State

/-- A suspended machine has one resumption, and has not lost its place. -/
theorem Custody.suspended_once {inHand : List Holding}
    (custody : Custody world.ledger chronicle inHand stack)
    (suspended : world.Suspended machine scheduler deferred) :
    world.ledger.total inHand stack (.resumption machine) = 1 := by
  obtain ⟨found, lookup, idle, -, -⟩ := suspended
  obtain ⟨-, -, accords⟩ := custody.accords_of_lookup lookup
  simp only [idle] at accords
  rw [Ledger.total_inHand]
  exact accords.1

/-- The resumption that the world keeps of a suspended machine is registered on what the
machine awaits, or is with its scheduler. -/
theorem Custody.keeper_of_resumption {inHand : List Holding}
    (custody : Custody world.ledger chronicle inHand stack)
    (suspended : world.Suspended machine scheduler deferred)
    (kept : 0 < world.ledger.amount (.resumption machine)) :
    world.ledger.Holds (.registered deferred) (.handOver scheduler machine) ∨
      world.ledger.Holds (.queued scheduler) (.resumption machine) ∧
        world.ledger.Completed deferred := by
  obtain ⟨found, lookup, idle, rfl, pending⟩ := suspended
  have same {scheduler : Scheduler} {awaited : Nat}
      (suspends : world.ledger.Suspends machine scheduler awaited) :
      found.scheduler = scheduler ∧ awaited = deferred := by
    obtain ⟨again, lookupAgain, rfl, waits⟩ := suspends
    cases lookup.symm.trans lookupAgain
    exact ⟨rfl, Option.some.inj (waits.symm.trans pending)⟩
  obtain ⟨site, continuation, holds, carried⟩ := Ledger.exists_of_resumption_pos kept
  have admits := custody.kept site continuation holds
  rcases Continuation.cases_of_resumption carried with ⟨scheduler, rfl⟩ | rfl
  · cases site with
    | registered awaited =>
        obtain ⟨rfl, rfl⟩ := same admits
        exact .inl holds
    | queued _ => exact admits.elim
    | fired _ | sent _ | loose => exact holds.elim
  · cases site with
    | registered _ => exact admits.elim
    | queued scheduler =>
        obtain ⟨awaited, suspends, completed⟩ := admits
        obtain ⟨rfl, rfl⟩ := same suspends
        exact .inr ⟨holds, completed⟩
    | fired _ | sent _ | loose => exact holds.elim

namespace State

/-- The resumption of a machine that is suspended on what is not complete is registered there,
and calls in progress hold nothing of it. -/
theorem registered_of_suspended (order : state.InOrder chronicle)
    (running : ∀ reason, state.control ≠ .halted reason)
    (suspended : state.world.Suspended machine scheduler deferred)
    (pending : ¬ state.world.ledger.Completed deferred) :
    state.world.ledger.Holds (.registered deferred) (.handOver scheduler machine) ∧
      state.held (.resumption machine) = 0 := by
  have custody := order.custody running
  have once := custody.suspended_once suspended
  have nothing : state.held (.resumption machine) = 0 := by
    refine Nat.eq_zero_of_not_pos fun held => ?_
    obtain ⟨found, lookup, -, -, waits⟩ := suspended
    obtain ⟨holding, member, carried⟩ := List.mem_flatMap.mp (List.count_pos_iff.mp held)
    have rightful := custody.rightful holding member
    cases holding with
    | continuation site continuation =>
        obtain ⟨_, awaited, ⟨again, lookupAgain, -, same⟩, completed⟩ :=
          Site.Admits.completed rightful carried (unregistered member)
        cases lookup.symm.trans lookupAgain
        cases waits.symm.trans same
        exact pending completed
    | resuming other =>
        simp only [Holding.assets, List.mem_singleton, Asset.resumption.injEq] at carried
        subst carried
        obtain ⟨again, lookupAgain, ⟨absent, -⟩ | ⟨awaited, same, completed⟩⟩ := rightful
        · cases lookup.symm.trans lookupAgain
          cases waits.symm.trans absent
        · cases lookup.symm.trans lookupAgain
          cases waits.symm.trans same
          exact pending completed
    | _ => simp [Holding.assets] at carried
  refine ⟨?_, nothing⟩
  have parts : state.world.ledger.amount (.resumption machine) +
      state.held (.resumption machine) = 1 := once
  rcases custody.keeper_of_resumption suspended (by omega) with registered | ⟨-, completed⟩
  · exact registered
  · exact absurd completed pending

/-! ## Refusals -/

/-- Work is refused: its job is dropped, and its deferred is completed by that. -/
def Refuses (deferred : Nat) (state : State) : Prop :=
  (∃ work, state.control = .task (.discard (.continuation (.job deferred work)))) ∨
    state.control = .task (.discard (.writer deferred)) ∨
      ∃ outcome, state.control = .task (.publish deferred outcome)

/-- To refuse work takes a few small steps, which end with its deferred complete. -/
theorem Refuses.next (refuses : state.Refuses deferred) (order : state.InOrder chronicle) :
    state.next.Refuses deferred ∨ state.next.world.ledger.Completed deferred := by
  rcases refuses with ⟨work, drops⟩ | drops | ⟨outcome, publishes⟩
  · left
    obtain ⟨world, stack, control⟩ := state
    subst drops
    exact .inr (.inl rfl)
  · left
    obtain ⟨world, stack, control⟩ := state
    subst drops
    exact .inr (.inr ⟨_, rfl⟩)
  · exact .inr (completed_of_publish order publishes)

/-- To refuse work touches no machine. -/
theorem Refuses.activations (refuses : state.Refuses deferred) :
    state.next.world.activations = state.world.activations := by
  rcases refuses with ⟨work, drops⟩ | drops | ⟨outcome, publishes⟩
  · obtain ⟨world, stack, control⟩ := state
    subst drops
    rfl
  · obtain ⟨world, stack, control⟩ := state
    subst drops
    rfl
  · exact (world_of_publish publishes).1

theorem not_refuses_of_isOpen (isOpen : state.isOpen = true) : ¬ state.Refuses deferred := by
  rintro (⟨work, same⟩ | same | ⟨outcome, same⟩) <;> simp [State.isOpen, same] at isOpen

end State

/-! ## Spent pools -/

/-- All work that was sent to a pool is complete, but for what is refused just now, and no
machine that awaits any of it is to be resumed inline or by the pool. -/
structure Spent (past : List State) (pool : Nat) (state : State) : Prop where
  completed : ∀ deferred, Sent past pool deferred →
    state.world.ledger.Completed deferred ∨ state.Refuses deferred
  resumed : ∀ machine scheduler deferred, state.world.Suspended machine scheduler deferred →
    scheduler = .inline ∨ scheduler = .pool pool → ¬ Sent past pool deferred

/-- A pool that accepts no jobs stays spent. -/
theorem Spent.next (spent : Spent past pool state) (passes : Passes past state)
    (closed : state.world.acceptsJobs pool = false) :
    Spent (past ++ [state]) pool state.next := by
  have order := passes.reaches.inOrder
  have tidy := passes.reaches.tidy
  refine ⟨?_, ?_⟩
  · intro deferred sent
    rcases sent_snoc.mp sent with before | now
    · rcases spent.completed deferred before with completed | refuses
      · exact .inl ((State.onward_next order).completed completed)
      · exact (refuses.next order).symm
    · exact .inr (.inl (now.refused closed))
  · intro machine scheduler deferred suspended resumes sent
    rcases sent_snoc.mp sent with before | now
    · -- It was suspended on this already.
      have still : state.world.Suspended machine scheduler deferred := by
        rcases spent.completed deferred before with completed | refuses
        · rcases State.suspends_next tidy suspended with was | pending
          · exact was
          · exact absurd ((State.onward_next order).completed completed) pending
        · obtain ⟨found, lookup, rest⟩ := suspended
          exact ⟨found, by rwa [← refuses.activations], rest⟩
      exact spent.resumed machine scheduler deferred still resumes before
    · -- Nothing is registered on what is fresh.
      obtain ⟨work, drops⟩ := now.refused closed
      have fresh : state.next.world.deferreds.get? deferred = some .fresh := now.lookup_next
      have pending : ¬ state.next.world.ledger.Completed deferred := by
        rintro ⟨found, lookup, complete⟩
        cases fresh.symm.trans lookup
        cases complete
      obtain ⟨⟨found, lookup, registered⟩, -⟩ := State.registered_of_suspended
        passes.next.reaches.inOrder (by simp [drops]) suspended pending
      cases fresh.symm.trans lookup
      cases registered

/-- A spent pool stays so when more code is run. -/
theorem Spent.again (spent : Spent past pool state) (ended : state.hasEnded)
    (program : Program) : Spent past pool (.ofProgram state.world program) where
  completed := by
    intro deferred sent
    rcases spent.completed deferred sent with completed | refuses
    · exact .inl completed
    · exact absurd refuses (State.not_refuses_of_isOpen (State.isOpen_of_hasEnded ended))
  resumed := spent.resumed

end Stepwise
