import Stepwise.Proofs.Blocked
import Stepwise.Proofs.Pools.Tidy

/-!
# The writer of a deferred

A pending deferred has exactly one writer, which somebody holds: user code under a name, a
job that waits or runs, or the observer of a machine.  A complete one has none.  So whoever
gives a writer up completes its deferred by that, and no deferred is completed twice.
-/

namespace Stepwise

variable {trace : List Occurrence} {chronicle : Chronicle} {past : List State} {state : State}
  {deferred : Nat}

theorem Deferred.pending_iff {found : Deferred} :
    found.progress = .pending ↔ found.isComplete = false := by
  unfold isComplete
  cases found.progress <;> simp

theorem Ledger.pending_iff {ledger : Ledger} {found : Deferred}
    (lookup : ledger.deferreds.get? deferred = some found) :
    found.progress = .pending ↔ ¬ ledger.Completed deferred := by
  rw [Deferred.pending_iff]
  constructor
  · rintro incomplete ⟨again, present, complete⟩
    cases lookup.symm.trans present
    cases complete.symm.trans incomplete
  · exact fun pending => Bool.eq_false_iff.mpr fun complete => pending ⟨found, lookup, complete⟩

/-- A writer that the world keeps is with a job in the queue of a pool, under a name, or with
the observer of a machine that has not finished. -/
theorem Custody.keeper_of_writer {ledger : Ledger} {inHand : List Holding} {stack : Stack}
    (custody : Custody ledger chronicle inHand stack)
    (kept : 0 < ledger.amount (.writer deferred)) :
    (∃ pool work, ledger.Holds (.queued (.pool pool)) (.job deferred work)) ∨
    (∃ name, ledger.writers.find? name = some deferred) ∨
    ∃ machine found, ledger.activations.get? machine = some found ∧
      found.status ≠ .finished ∧ found.observer = some (.writer deferred) := by
  rcases Ledger.cases_of_writer_pos kept with ⟨site, work, holds⟩ |
    ⟨machine, found, lookup, watching⟩ | named
  · have admits := custody.kept site _ holds
    cases site with
    | queued scheduler =>
        cases scheduler with
        | pool pool => exact .inl ⟨pool, work, holds⟩
        | _ => exact admits.elim
    | loose => exact holds.elim
    | registered _ | fired _ | sent _ => exact admits.elim
  · refine .inr (.inr ⟨machine, found, lookup, ?_, watching⟩)
    intro finished
    have accords := custody.accords_of_lookup lookup
    simp only [Activation.Accords, finished, watching] at accords
    simp at accords
  · exact .inr (.inl named)

namespace State

/-- How many writers of a deferred are live. -/
def writers (state : State) (deferred : Nat) : Nat :=
  state.world.ledger.total state.control.holdings state.stack (.writer deferred)

/-- Who holds the writer of a deferred. -/
inductive Entrusts (state : State) (deferred : Nat) : Prop where
  /-- User code, under a name. -/
  | named {name : Name} : state.world.writers.find? name = some deferred →
      Entrusts state deferred
  /-- A request that has just displaced it by another writer of its name, and drops it by the
  next small step. -/
  | displaced {rest : Stack} : state.stack = .disposing [.writer deferred] :: rest →
      Entrusts state deferred
  /-- A job in the queue of a pool. -/
  | queued {pool : Nat} {work : Program} :
      state.world.ledger.Holds (.queued (.pool pool)) (.job deferred work) →
        Entrusts state deferred
  /-- A job that is being dropped with its queue. -/
  | drained {work : Program} : state.Drops (.job deferred work) → Entrusts state deferred
  /-- The work that is being run. -/
  | running : Frame.working deferred ∈ state.stack → Entrusts state deferred
  /-- The observer of a machine that has not finished. -/
  | observing {machine : Nat} {found : Activation} :
      state.world.activations.get? machine = some found → found.status ≠ .finished →
        found.observer = some (.writer deferred) → Entrusts state deferred

/-- The small step publishes the outcome of a deferred. -/
def publishes (deferred : Nat) (state : State) : Bool :=
  match state.control with
  | .task (.publish published _) => published == deferred
  | _ => false

theorem publishes_iff :
    state.publishes deferred = true ↔
      ∃ outcome, state.control = .task (.publish deferred outcome) := by
  obtain ⟨world, stack, control⟩ := state
  cases control with
  | task task => cases task <;> simp [publishes]
  | _ => simp [publishes]

/-- A writer that the stack drops in its own right was displaced just now. -/
theorem Tidy.displaced (tidy : state.Tidy)
    (held : Holding.writer deferred ∈ Stack.holdings state.stack) :
    ∃ rest, state.stack = .disposing [.writer deferred] :: rest := by
  obtain ⟨frame, among, held⟩ := List.mem_flatMap.mp held
  -- A frame that holds a bare writer is not tidy.
  have bare {rest : List Owned}
      (member : Holding.writer deferred ∈ rest.flatMap Owned.holdings) :
      Owned.writer deferred ∈ rest := by
    obtain ⟨owned, inside, held⟩ := List.mem_flatMap.mp member
    cases owned with
    | writer other =>
        cases List.mem_singleton.mp held
        exact inside
    | continuation _ | activation _ => cases List.mem_singleton.mp held
    | loop _ | runtime _ => cases held
  have untidy : frame.isTidy = false := by
    cases frame with
    | disposing rest | unwinding rest _ =>
        have dropped : rest.any Owned.isBare = true :=
          List.any_eq_true.mpr ⟨_, bare held, rfl⟩
        simp [Frame.isTidy, dropped]
    | firing fired rest =>
        obtain ⟨_, _, other⟩ := List.mem_map.mp held
        cases other
    | _ => simp [Frame.holdings] at held
  rcases tidy with all | ⟨owned, rest, placed, -, all⟩
  · rw [List.all_eq_true.mp all frame among] at untidy
    cases untidy
  · rw [placed] at among
    rcases List.mem_cons.mp among with rfl | below
    · cases List.mem_singleton.mp (bare held)
      exact ⟨rest, placed⟩
    · rw [List.all_eq_true.mp all frame below] at untidy
      cases untidy

/-- A writer at rest is held by somebody. -/
theorem entrusts_of_writer (custody : Custody state.world.ledger chronicle [] state.stack)
    (tidy : state.Tidy)
    (rests : 0 < state.world.ledger.total [] state.stack (.writer deferred)) :
    state.Entrusts deferred := by
  rcases kept_or_held custody rests with kept | ⟨holding, member, carried, rightful⟩
  · rcases custody.keeper_of_writer kept with ⟨pool, work, holds⟩ | ⟨name, named⟩ |
      ⟨machine, found, lookup, unfinished, watching⟩
    · exact .queued holds
    · exact .named named
    · exact .observing lookup unfinished watching
  · have resting := Stack.rests_of_mem_holdings member
    cases holding with
    | continuation site continuation =>
        obtain ⟨work, rfl⟩ := Continuation.eq_job_of_writer carried
        rcases exists_of_mem_holdings member with ⟨_, _, -, rfl, -⟩ | ⟨rfl, dropped⟩
        · exact rightful.elim
        · exact .drained dropped
    | writer other =>
        simp only [Holding.assets, List.mem_singleton, Asset.writer.injEq] at carried
        subst carried
        obtain ⟨rest, placed⟩ := tidy.displaced member
        exact .displaced placed
    | working other =>
        simp only [Holding.assets, List.mem_singleton, Asset.writer.injEq] at carried
        subst carried
        obtain ⟨frame, among, held⟩ := List.mem_flatMap.mp member
        have same : frame = .working deferred := by
          cases frame with
          | working other => cases List.mem_singleton.mp held; rfl
          | firing fired rest =>
              obtain ⟨_, _, other⟩ := List.mem_map.mp held
              cases other
          | disposing rest | unwinding rest _ =>
              obtain ⟨owned, _, held⟩ := List.mem_flatMap.mp held
              cases owned <;> simp [Owned.holdings] at held
          | _ => simp [Frame.holdings] at held
        exact .running (same ▸ among)
    | publication _ _ => cases resting
    | _ => simp [Holding.assets] at carried

/-- In a state that is open a deferred has one writer, which somebody holds, just while it is
pending. -/
theorem writers_of_isOpen {found : Deferred} (order : state.InOrder chronicle)
    (tidy : state.Tidy) (isOpen : state.isOpen = true)
    (lookup : state.world.deferreds.get? deferred = some found) :
    state.writers deferred = (if found.isComplete then 0 else 1) ∧
      (found.isComplete = false → state.Entrusts deferred) := by
  obtain ⟨nothing, custody⟩ := custody_of_isOpen order isOpen
  have account := custody.deferreds deferred
  have present : state.world.ledger.deferreds.get? deferred = some found := lookup
  simp only [Ledger.DeferredAccount, present] at account
  have counted : state.writers deferred =
      state.world.ledger.total [] state.stack (.writer deferred) := by
    rw [writers, nothing]
  refine ⟨counted.trans account.1, ?_⟩
  intro pending
  refine entrusts_of_writer custody tidy ?_
  have one := account.1
  rw [pending] at one
  simp at one
  omega

end State

/-! ## Publications -/

/-- A deferred is complete just when its outcome has been published, which happens once. -/
theorem Passes.countP_publishes (passes : Passes past state) (deferred : Nat) :
    (state.world.ledger.Completed deferred ∧ past.countP (State.publishes deferred) = 1) ∨
      (¬ state.world.ledger.Completed deferred ∧
        past.countP (State.publishes deferred) = 0) := by
  induction passes with
  | begin program =>
      refine .inr ⟨?_, rfl⟩
      rintro ⟨found, lookup, -⟩
      have absent : World.initial.deferreds.get? deferred = some found := lookup
      simp [World.initial] at absent
  | again program _ _ ih => exact ih
  | @next past state passes ih =>
      have order := passes.reaches.inOrder
      rw [List.countP_append, List.countP_singleton]
      by_cases publishes : state.publishes deferred = true
      · obtain ⟨outcome, publishing⟩ := State.publishes_iff.mp publishes
        have custody := order.custody (by simp [publishing])
        rw [publishing] at custody
        have pending : ¬ state.world.ledger.Completed deferred :=
          custody.not_completed_of_inHand
            (by simp [Control.holdings, Task.holdings, Holding.assets])
        rcases ih with ⟨completed, -⟩ | ⟨-, none⟩
        · exact absurd completed pending
        · exact .inl ⟨State.completed_of_publish order publishing, by simp [none, publishes]⟩
      · simp only [publishes]
        rcases ih with ⟨completed, one⟩ | ⟨pending, none⟩
        · exact .inl ⟨(State.onward_next order).completed completed, one⟩
        · refine .inr ⟨?_, none⟩
          intro completed
          rcases State.completes_next passes.reaches.tidy completed with before | publishing
          · exact pending before
          · exact publishes (State.publishes_iff.mpr publishing)

/-- Single live writer.  Whenever code may run, a deferred is pending just when exactly one
writer of it is live, which is then held by user code, a job, a work under way, or the
observer of a machine that has not finished; a complete one has no writer.  And the outcome
of a deferred is published once at most. -/
theorem single_writer (passes : Passes past state) :
    (∀ deferred found, state.isOpen = true →
      state.world.deferreds.get? deferred = some found →
        (found.progress = .pending ↔ state.writers deferred = 1) ∧
        (found.progress ≠ .pending → state.writers deferred = 0) ∧
        (found.progress = .pending → state.Entrusts deferred)) ∧
    ∀ deferred, past.countP (State.publishes deferred) ≤ 1 := by
  refine ⟨?_, ?_⟩
  · intro deferred found isOpen lookup
    obtain ⟨counted, entrusted⟩ :=
      State.writers_of_isOpen passes.reaches.inOrder passes.reaches.tidy isOpen lookup
    rw [Ne, Deferred.pending_iff, counted]
    refine ⟨?_, ?_, entrusted⟩
    · cases found.isComplete <;> simp
    · cases found.isComplete <;> simp
  · intro deferred
    rcases passes.countP_publishes deferred with ⟨-, one⟩ | ⟨-, none⟩
    · omega
    · omega

/-- Give the three kinds of writers away, to a name, a job and an observer, and then drop the
one under a name. -/
def Program.sharing : Program :=
  .call (.pending (.shared "result") false (.shared "writer")) fun _ =>
    .call (.newRuntime (.shared "runtime") 1 "worker") fun _ =>
      .call (.dispatch (.shared "job") false false (.pool 0) (.ret .done)) fun _ =>
        .call (.startAwaitable (.shared "machine")
          (.custom fun position =>
            if position = .notStarted then .call (.suspend (.shared "result") 7) .ret
            else .ret .done)
          .inline (.shared "outcome") true) fun _ =>
            .call (.dropWriter (.shared "writer")) .ret

/-- The writers are live together; the two that end with the machine are then gone, while the
job still waits in its queue. -/
theorem single_writer_sharing :
    (∀ deferred < 3, ((State.ofProgram .initial .sharing).walk 18).2.writers deferred = 1 ∧
      ((State.ofProgram .initial .sharing).walk 18).2.Entrusts deferred) ∧
    ((State.ofProgram .initial .sharing).walk 39).2.writers 0 = 0 ∧
    ((State.ofProgram .initial .sharing).walk 39).2.writers 1 = 1 ∧
    ((State.ofProgram .initial .sharing).walk 39).2.writers 2 = 0 ∧
    ((State.ofProgram .initial .sharing).visits 39).countP (State.publishes 0) = 1 := by
  have passes := Passes.begin .sharing
  obtain ⟨during, -⟩ := single_writer (passes.walk 18)
  obtain ⟨after, once⟩ := single_writer (passes.walk 39)
  refine ⟨?_, (after 0 _ rfl rfl).2.1 (by rintro ⟨⟩), (after 1 _ rfl rfl).1.mp rfl,
    (after 2 _ rfl rfl).2.1 (by rintro ⟨⟩), Nat.le_antisymm (once 0) (by decide)⟩
  intro deferred bound
  obtain rfl | rfl | rfl : deferred = 0 ∨ deferred = 1 ∨ deferred = 2 := by omega
  · exact ⟨(during 0 _ rfl rfl).1.mp rfl, (during 0 _ rfl rfl).2.2 rfl⟩
  · exact ⟨(during 1 _ rfl rfl).1.mp rfl, (during 1 _ rfl rfl).2.2 rfl⟩
  · exact ⟨(during 2 _ rfl rfl).1.mp rfl, (during 2 _ rfl rfl).2.2 rfl⟩

end Stepwise
