import Stepwise.Proofs.Pools.Tidy

/-!
# Work that was sent to a pool

Work that is sent to a pool which accepts jobs is queued there.  A pool that accepts none
has it dropped at once.
-/

namespace Stepwise

variable {world : World} {stack : Stack} {state after : State} {past : List State}
  {pool deferred : Nat}

namespace State

/-- Work with an addressee is queued there, or refused and dropped. -/
theorem dispatching_of_addressee {target : Target} {infallible : Bool} {work : Program}
    {waiting : Nat → Stack} (addressed : world.addressee target = some pool) :
    dispatching world stack target infallible work waiting =
      if world.acceptsJobs pool then
        .replying
          (world.newDeferred.1.modifyPool pool (·.push (.job world.deferreds.size work)))
          (waiting world.deferreds.size) .done
      else
        ⟨world.newDeferred.1,
          .recording .dispatchedAfterShutdown :: waiting world.deferreds.size,
          .task (.discard (.continuation (.job world.deferreds.size work)))⟩ := by
  cases target with
  | immediate => cases addressed
  | pool _ =>
      cases addressed
      rfl
  | context =>
      have known : world.thread.context = some pool := addressed
      simp only [dispatching, known]
      rfl

/-- What a small step does with work that it dispatches to an addressee. -/
theorem next_of_dispatch {target : Target} {work : Program}
    (asks : state.dispatch? = some (target, work))
    (addressed : state.world.addressee target = some pool) :
    ∃ (later : World) (waiting : Stack),
      state.world.Quiet later ∧ later.deferreds.size = state.world.deferreds.size ∧
      (∀ asset, Holding.amount asset (Stack.holdings waiting) = 0) ∧
      state.next =
        if state.world.acceptsJobs pool then
          .replying (later.newDeferred.1.modifyPool pool
            (·.push (.job state.world.deferreds.size work))) (waiting ++ state.base) .done
        else
          ⟨later.newDeferred.1,
            .recording .dispatchedAfterShutdown :: (waiting ++ state.base),
            .task (.discard (.continuation (.job state.world.deferreds.size work)))⟩ := by
  obtain ⟨launcher, dispatching⟩ := dispatching_of_dispatch? asks
  obtain ⟨later, front, infallible, waiting, changed, same, -, waits, goes⟩ :=
    dispatching.handsOver
  refine ⟨later, waiting later.deferreds.size, changed, by rw [same],
    (waits _).2, ?_⟩
  rw [← addressee_of_thread changed.thread] at addressed
  rw [goes, dispatching_of_addressee addressed, acceptsJobs_of_pools changed.pools, same]

/-- What a small step does with the work that it sends to a pool. -/
theorem Sends.next (sends : state.Sends pool deferred) :
    ∃ (later : World) (work : Program) (waiting : Stack),
      state.world.Quiet later ∧ later.deferreds.size = deferred ∧
      (∀ asset, Holding.amount asset (Stack.holdings waiting) = 0) ∧
      state.next =
        if state.world.acceptsJobs pool then
          .replying (later.newDeferred.1.modifyPool pool (·.push (.job deferred work)))
            (waiting ++ state.base) .done
        else
          ⟨later.newDeferred.1,
            .recording .dispatchedAfterShutdown :: (waiting ++ state.base),
            .task (.discard (.continuation (.job deferred work)))⟩ := by
  obtain ⟨rfl, target, work, asks, addressed⟩ := sends
  obtain ⟨later, waiting, goes⟩ := next_of_dispatch asks addressed
  exact ⟨later, work, waiting, goes⟩

/-- Work that is refused is dropped next. -/
theorem Sends.refused (sends : state.Sends pool deferred)
    (closed : state.world.acceptsJobs pool = false) :
    ∃ work, state.next.control = .task (.discard (.continuation (.job deferred work))) := by
  obtain ⟨later, work, waiting, -, -, -, goes⟩ := sends.next
  exact ⟨work, by simp [goes, closed]⟩

/-- The deferred of work that is sent is fresh. -/
theorem Sends.lookup_next (sends : state.Sends pool deferred) :
    state.next.world.deferreds.get? deferred = some .fresh := by
  obtain ⟨later, work, waiting, -, size, -, goes⟩ := sends.next
  rw [goes]
  split <;> simp [replying, World.newDeferred, World.modifyPool, size]

/-- Work that is accepted is queued, and nothing is in hand then. -/
theorem Sends.accepted (sends : state.Sends pool deferred)
    (accepts : state.world.acceptsJobs pool = true) :
    ∃ work, state.next.world.ledger.Holds (.queued (.pool pool)) (.job deferred work) := by
  obtain ⟨later, work, waiting, quiet, -, -, goes⟩ := sends.next
  rw [if_pos accepts] at goes
  cases lookup : state.world.pools.get? pool with
  | none => simp [World.acceptsJobs, lookup] at accepts
  | some found =>
      refine ⟨work, found.push (.job deferred work), ?_, by simp [Pool.push]⟩
      rw [goes]
      simp [replying, World.ledger, World.modifyPool, World.newDeferred, quiet.pools, lookup]

/-! ## What becomes of a pool -/

/-- What a small step does to the jobs of a pool. -/
inductive Proceeds (state after : State) (pool : Nat) : Option Pool → Option Pool → Prop where
  | absent : Proceeds state after pool none none
  | opened {found : Pool} {program : Program} :
      state.control = .program program → found.jobs = [] → found.shutdown = false →
        Proceeds state after pool none (some found)
  | kept {found changed : Pool} :
      changed.jobs = found.jobs → changed.shutdown = found.shutdown →
        Proceeds state after pool (some found) (some changed)
  | queued {found changed : Pool} {job : Continuation} :
      state.Queues pool job → found.shutdown = false → changed.jobs = found.jobs ++ [job] →
        changed.shutdown = false → Proceeds state after pool (some found) (some changed)
  /-- A worker takes the oldest job. -/
  | took {found changed : Pool} {job : Continuation} {number : Nat} {saved : ThreadState}
      {rest : Reply → Program} :
      after.control = .task (.run job) →
        after.stack = .worker pool number saved :: .program rest :: state.base →
          found.jobs = job :: changed.jobs → changed.shutdown = found.shutdown →
            Proceeds state after pool (some found) (some changed)
  /-- The pool is shut down; its jobs are dropped next. -/
  | closed {found changed : Pool} :
      state.control = .task (.discard (.runtime pool)) → changed.jobs = [] →
        changed.shutdown = true → Proceeds state after pool (some found) (some changed)

namespace Proceeds

variable {pools : Store Pool}

theorem same {found : Option Pool} : Proceeds state after pool found found := by
  cases found with
  | none => exact .absent
  | some _ => exact .kept rfl rfl

/-- Some pool changes, but neither its jobs nor whether it is shut down. -/
theorem modified (other : Nat) {change : Pool → Pool}
    (jobs : ∀ found, (change found).jobs = found.jobs)
    (shutdown : ∀ found, (change found).shutdown = found.shutdown) :
    Proceeds state after pool (pools.get? pool) ((pools.modify other change).get? pool) := by
  rw [Store.get?_modify]
  split
  · cases pools.get? pool with
    | none => exact .absent
    | some found => exact .kept (jobs found) (shutdown found)
  · exact same

theorem pushed {program : Program} (runs : state.control = .program program) {added : Pool}
    (jobs : added.jobs = []) (shutdown : added.shutdown = false) :
    Proceeds state after pool (pools.get? pool) ((pools.push added).get? pool) := by
  rw [Store.get?_push]
  split
  · next newest =>
      have unused : pools.get? pool = none := by simp [newest, Store.get?, Store.size]
      rw [unused]
      exact .opened runs jobs shutdown
  · exact same

/-- To cross a border takes no job. -/
theorem left (frame : Frame) :
    Proceeds state after pool (world.pools.get? pool) ((world.left frame).pools.get? pool) := by
  cases frame with
  | context _ _ | blocking _ _ _ | worker _ _ _ => exact .modified _ (fun _ => rfl) fun _ => rfl
  | _ => exact .same

/-- Nor does a panic that breaks it. -/
theorem broken (frame : Frame) :
    Proceeds state after pool (world.pools.get? pool) ((world.broken frame).pools.get? pool) := by
  cases frame with
  | context _ _ | blocking _ _ _ | worker _ _ _ => exact .modified _ (fun _ => rfl) fun _ => rfl
  | _ => exact .same

end Proceeds

theorem Stirs.proceeds (stirs : Stirs state after) :
    Proceeds state after pool (state.world.pools.get? pool) (after.world.pools.get? pool) := by
  cases stirs with
  | published _ | dropped _ _ | shed | threaded => exact .same
  | overwrote _ quiet =>
      rw [quiet.pools]
      exact .same
  | @queued _ later other job new reply _ quiet accepts queues _ _ =>
      show Proceeds _ _ pool (state.world.pools.get? pool)
        ((later.pools.modify other (·.push job)).get? pool)
      rw [quiet.pools, Store.get?_modify]
      split
      · next same =>
          subst same
          cases lookup : state.world.pools.get? other with
          | none => exact .absent
          | some found =>
              have living : found.shutdown = false := by
                simpa [World.acceptsJobs, lookup] using accepts
              exact .queued queues living rfl living
      · exact .same
  | @closed world later stack other found lookup _ quiet =>
      show Proceeds _ _ pool (world.pools.get? pool) (later.pools.get? pool)
      rw [quiet.pools]
      show Proceeds _ _ pool (world.pools.get? pool) ((world.pools.modify other _).get? pool)
      rw [Store.get?_modify]
      split
      · next same =>
          subst same
          simp only [lookup, Option.map_some]
          exact .closed rfl rfl rfl
      · exact .same
  | opened _ quiet | reopened _ quiet =>
      rw [quiet.pools]
      exact .pushed rfl rfl rfl
  | entered _ => exact .modified _ (fun _ => rfl) fun _ => rfl
  | ran _ quiet =>
      rw [quiet.pools]
      exact .modified _ (fun _ => rfl) fun _ => rfl
  | @took world stack rest name other number found job jobs lookup oldest _ =>
      show Proceeds _ _ pool (world.pools.get? pool) ((world.pools.modify other _).get? pool)
      rw [Store.get?_modify]
      split
      · next same =>
          subst same
          simp only [lookup, Option.map_some]
          exact .took rfl rfl oldest rfl
      · exact .same
  | crossed _ quiet =>
      rw [quiet.world.pools]
      exact .left _
  | broke _ quiet =>
      rw [quiet.world.pools]
      exact .broken _

/-- A small step leaves the jobs of a pool as they are, or the pool is opened, given a job,
relieved of one by a worker, or shut down. -/
theorem proceeds_next (tidy : state.Tidy) (pool : Nat) :
    Proceeds state state.next pool (state.world.pools.get? pool)
      (state.next.world.pools.get? pool) := by
  rcases next_cases tidy with ⟨-, quiet⟩ | stirs
  · rw [quiet.world.pools]
    exact .same
  · exact stirs.proceeds

end State

/-! ## Works that were sent -/

/-- The work of a deferred was sent to a pool. -/
def Sent (past : List State) (pool deferred : Nat) : Prop :=
  ∃ before ∈ past, before.Sends pool deferred

theorem Sent.append {more : List State} (sent : Sent past pool deferred) :
    Sent (past ++ more) pool deferred := by
  obtain ⟨before, member, sends⟩ := sent
  exact ⟨before, List.mem_append_left _ member, sends⟩

theorem sent_snoc : Sent (past ++ [state]) pool deferred ↔
    Sent past pool deferred ∨ state.Sends pool deferred := by
  simp [Sent, or_and_right, exists_or]

namespace Passes

variable {other : Nat}

end Passes

end Stepwise
