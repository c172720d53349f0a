import Stepwise.Proofs.JobQueue

/-!
# The workers of a pool

A pool loses a worker whenever a panic leaves a job on it, and only so: works and steps are
captured, but not the continuations, wakers and observers that run above them, nor the panic
of a machine that breaks the protocol.  A worker that is alive and idle takes the oldest job; a
pool that has lost all of its workers begins none any more, although it accepts them.
-/

namespace Stepwise

variable {past more : List State} {world middle : World} {state later after : State}
  {pool number : Nat}

namespace World

/-- A worker of a pool. -/
def worker? (world : World) (pool number : Nat) : Option Worker :=
  (world.pools.get? pool).bind (·.workers[number]?)

theorem worker?_of_pools (same : middle.pools = world.pools) :
    middle.worker? pool number = world.worker? pool number := by
  rw [worker?, worker?, same]

/-- A pool changes, but not its workers. -/
theorem worker?_modified {other : Nat} {change : Pool → Pool}
    (pools : middle.pools = world.pools.modify other change)
    (kept : ∀ found : Pool, (change found).workers = found.workers) :
    middle.worker? pool number = world.worker? pool number := by
  rw [worker?, worker?, pools, Store.get?_modify]
  split
  · cases world.pools.get? pool with
    | none => rfl
    | some found => simp [kept]
  · rfl

/-- One worker changes. -/
theorem worker?_modifyWorker {other index : Nat} (adjust : Pool → Pool) {change : Worker → Worker}
    (pools : middle.pools =
      world.pools.modify other fun pool => (adjust pool).modifyWorker index change)
    (same : ∀ found : Pool, (adjust found).workers = found.workers) :
    middle.worker? pool number =
      if other = pool ∧ index = number then (world.worker? pool number).map change
      else world.worker? pool number := by
  rw [worker?, worker?, pools, Store.get?_modify]
  by_cases here : other = pool
  · cases lookup : world.pools.get? pool with
    | none => simp
    | some found =>
        simp only [here, if_true, true_and, Option.map_some, Option.bind_some, Pool.modifyWorker,
          same, List.getElem?_modify]
        split
        · rfl
        · exact congrFun Option.map_id _
  · simp [here]

/-- A pool is opened; the others keep their workers. -/
theorem worker?_pushed {added : Pool} (pools : middle.pools = world.pools.push added)
    (older : pool ≠ world.pools.size) :
    middle.worker? pool number = world.worker? pool number := by
  rw [worker?, worker?, pools, Store.get?_push, if_neg older]

end World

namespace State

/-- Whether a panic leaves the job that a worker runs. -/
def breaks (pool number : Nat) (state : State) : Bool :=
  match state.control, state.stack with
  | .unwind _, frame :: _ => frame.posts pool number
  | _, _ => false

theorem breaks_of_crosses (uncrossed : state.crosses = false) :
    state.breaks pool number = false := by
  obtain ⟨world, stack, control⟩ := state
  cases control with
  | unwind payload =>
      cases stack with
      | nil => rfl
      | cons frame rest =>
          cases frame with
          | worker _ _ _ => cases uncrossed
          | _ => rfl
  | _ => rfl

/-- What a small step does to a worker of a pool that is not shut down. -/
inductive Serves (state : State) (pool number : Nat) (worker changed : Worker) : Prop where
  | kept : state.breaks pool number = false → changed.alive = worker.alive →
      (changed.busy = true → worker.busy = true ∨ worker.alive = true) →
        Serves state pool number worker changed
  /-- A panic leaves its job. -/
  | died : state.breaks pool number = true → changed.alive = false → changed.busy = false →
      Serves state pool number worker changed

theorem serves_same (unbroken : state.breaks pool number = false) {former found : Option Worker}
    (same : found = former) : Option.Rel (state.Serves pool number) former found := by
  subst same
  cases found with
  | none => exact .none
  | some _ => exact .some (.kept unbroken rfl .inl)

/-- One worker changes, and the others stay as they are. -/
theorem serves_modifyWorker {other index : Nat} {former found : Option Worker}
    {change : Worker → Worker}
    (changed : found = if other = pool ∧ index = number then former.map change else former)
    (serves : ∀ worker, other = pool → index = number → former = some worker →
      state.Serves pool number worker (change worker))
    (unbroken : ¬ (other = pool ∧ index = number) → state.breaks pool number = false) :
    Option.Rel (state.Serves pool number) former found := by
  subst changed
  split
  · next here =>
      cases former with
      | none => exact .none
      | some worker => exact .some (serves worker here.1 here.2 rfl)
  · next elsewhere => exact serves_same (unbroken elsewhere) rfl

theorem Stirs.serves (stirs : Stirs state after) (accepts : state.world.acceptsJobs pool = true)
    (stays : state.control ≠ .task (.discard (.runtime pool))) :
    Option.Rel (state.Serves pool number) (state.world.worker? pool number)
      (after.world.worker? pool number) := by
  cases stirs with
  | @queued state later other job new reply uncrossed quiet _ _ _ _ =>
      refine serves_same (breaks_of_crosses uncrossed) ?_
      refine Eq.trans (World.worker?_modified rfl ?_) (World.worker?_of_pools quiet.pools)
      exact fun _ => rfl
  | published _ | dropped _ _ | shed | threaded => exact serves_same rfl rfl
  | overwrote _ quiet => exact serves_same rfl (World.worker?_of_pools quiet.pools)
  | @closed world later stack other found lookup _ quiet =>
      have different : other ≠ pool := by
        rintro rfl
        exact stays rfl
      refine serves_same rfl ((World.worker?_of_pools quiet.pools).trans ?_)
      simp [World.worker?, World.modifyPool, different]
  | opened _ quiet | reopened _ quiet =>
      exact serves_same rfl (World.worker?_pushed quiet.pools (lt_of_acceptsJobs accepts))
  | entered _ => exact serves_same rfl (World.worker?_modified rfl fun _ => rfl)
  | ran _ quiet => exact serves_same rfl (World.worker?_modified quiet.pools fun _ => rfl)
  | @took world stack rest name other index found job jobs lookup _ idle =>
      refine serves_modifyWorker (World.worker?_modifyWorker
        (fun pool => { pool with jobs := jobs }) rfl fun _ => rfl) ?_ fun _ => rfl
      rintro worker rfl rfl known
      obtain ⟨bound, resting, -⟩ := List.findIdx?_eq_some_iff_getElem.mp idle
      have same : found.workers[index] = worker := by
        simpa [World.worker?, lookup, List.getElem?_eq_getElem bound] using known
      simp only [same, Bool.and_eq_true] at resting
      exact .kept rfl rfl fun _ => .inr resting.1
  | @crossed world stack frame reply after _ quiet =>
      rw [World.worker?_of_pools quiet.world.pools]
      cases frame with
      | context _ _ | blocking _ _ _ =>
          exact serves_same rfl (World.worker?_modified rfl fun _ => rfl)
      | worker other index saved =>
          refine serves_modifyWorker (World.worker?_modifyWorker id rfl fun _ => rfl) ?_
            fun _ => rfl
          rintro worker rfl rfl -
          exact .kept rfl rfl (by rintro ⟨⟩)
      | _ => exact serves_same rfl rfl
  | @broke world stack frame payload after _ quiet =>
      rw [World.worker?_of_pools quiet.world.pools]
      cases frame with
      | context _ _ | blocking _ _ _ =>
          exact serves_same rfl (World.worker?_modified rfl fun _ => rfl)
      | worker other index saved =>
          refine serves_modifyWorker (World.worker?_modifyWorker id rfl fun _ => rfl) ?_
            fun elsewhere => ?_
          · rintro worker rfl rfl -
            exact .died (by simp [breaks, Frame.posts]) rfl rfl
          · simpa [breaks, Frame.posts] using elsewhere
      | _ => exact serves_same rfl rfl

/-- What a small step does to the workers of a pool that accepts jobs before and after. -/
theorem serves_next (passes : Passes past state) (accepts : state.world.acceptsJobs pool = true)
    (still : state.next.world.acceptsJobs pool = true) :
    Option.Rel (state.Serves pool number) (state.world.worker? pool number)
      (state.next.world.worker? pool number) := by
  have tidy := passes.reaches.tidy
  by_cases drops : state.control = .task (.discard (.runtime pool))
  · rcases next_of_drop tidy accepts drops with waits | ⟨shut, -⟩
    · exact serves_same (by simp [breaks, drops]) (by rw [waits])
    · rw [shut.acceptsJobs] at still
      cases still
  · rcases next_cases tidy with ⟨uncrossed, quiet⟩ | stirs
    · exact serves_same (breaks_of_crosses uncrossed) (World.worker?_of_pools quiet.world.pools)
    · exact stirs.serves accepts drops

/-- A worker whose job is left by a panic is busy. -/
theorem busy_of_breaks {worker : Worker} (passes : Passes past state)
    (known : state.world.worker? pool number = some worker)
    (broken : state.breaks pool number = true) : worker.busy = true := by
  have counted := passes.reaches.posted pool number
  obtain ⟨world, stack, control⟩ := state
  cases control with
  | unwind payload =>
      cases stack with
      | nil => cases broken
      | cons frame rest =>
          have posts : frame.posts pool number = true := broken
          have busy : world.isPosted pool number = worker.busy := by
            have found : (world.pools.get? pool).bind (·.workers[number]?) = some worker := known
            simp [World.isPosted, found]
          rw [List.countP_cons, if_pos posts, busy] at counted
          cases same : worker.busy with
          | true => rfl
          | false =>
              rw [same, Bool.toNat_false] at counted
              omega
  | _ => cases broken

/-- A worker that is asked to take a job takes the oldest, if one is idle. -/
theorem begun_of_work {name : Name} {rest : Reply → Program} {found : Pool} {job : Continuation}
    {jobs : List Continuation} (asks : state.control = .program (.call (.work name) rest))
    (named : state.world.runtimes.find? name = some pool)
    (lookup : state.world.pools.get? pool = some found) (queued : found.jobs = job :: jobs) :
    state.begun pool =
      if found.workers.any fun worker => worker.alive && !worker.busy then [job] else [] := by
  rw [← List.findIdx?_isSome]
  obtain ⟨world, stack, control⟩ := state
  subst asks
  have idle : (found.workers.findIdx? fun worker => worker.alive && !worker.busy) =
    found.idleWorker? := rfl
  rw [idle]
  cases known : found.idleWorker? with
  | none =>
      simp [begun, next, requesting, withNamed, named, working, lookup, queued, known, replying]
  | some number => simp [begun, next, requesting, withNamed, named, working, lookup, queued, known]

/-- A runtime is opened on a pool of its own. -/
theorem opened_next {name : Name} {threadName : String} {rest : Reply → Program} {size : Nat}
    (opens : state.control = .program (.call (.newRuntime name size threadName) rest))
    (positive : size ≠ 0) :
    state.next.world.pools.get? state.world.pools.size =
      some (.fresh state.world.pools.size size threadName) := by
  obtain ⟨world, stack, control⟩ := state
  subst opens
  simp only [next, requesting, makingRuntime, if_neg positive]
  cases world.runtimes.find? name <;> simp [disposing, replying, World.record]

/-- A pool that is there stays there. -/
theorem present_next (tidy : state.Tidy) (present : (state.world.pools.get? pool).isSome = true) :
    (state.next.world.pools.get? pool).isSome = true := by
  have proceeds := proceeds_next tidy pool
  generalize state.world.pools.get? pool = former at proceeds present
  generalize state.next.world.pools.get? pool = changed at proceeds
  cases proceeds with
  | absent | opened _ _ _ => cases present
  | _ => rfl

end State

/-- The workers of a pool, and the panics that have left their jobs. -/
structure Crew (pool size : Nat) (more : List State) (state : State) : Prop where
  size : ∀ number, (state.world.worker? pool number).isSome = true ↔ number < size
  /-- A worker is alive, or one panic has left a job on it. -/
  account : ∀ number worker, state.world.worker? pool number = some worker →
    worker.alive.toNat + more.countP (State.breaks pool number) = 1
  /-- A worker that runs a job is alive. -/
  manned : ∀ number worker, state.world.worker? pool number = some worker →
    worker.busy = true → worker.alive = true

namespace Crew

variable {size : Nat}

/-- What a small step does to the workers of a pool keeps the account of them. -/
theorem next (passes : Passes past state) (accepts : state.world.acceptsJobs pool = true)
    (still : state.next.world.acceptsJobs pool = true) (crew : Crew pool size more state) :
    Crew pool size (more ++ [state]) state.next := by
  have served {number : Nat} {changed : Worker}
      (known : state.next.world.worker? pool number = some changed) :
      ∃ worker, state.world.worker? pool number = some worker ∧
        state.Serves pool number worker changed := by
    have serves := @State.serves_next _ _ _ number passes accepts still
    rw [known] at serves
    generalize state.world.worker? pool number = former at serves
    cases serves with
    | some serves => exact ⟨_, rfl, serves⟩
  refine ⟨fun number => ?_, fun number changed known => ?_, fun number changed known busy => ?_⟩
  · rw [← crew.size number]
    have serves := @State.serves_next _ _ _ number passes accepts still
    generalize state.world.worker? pool number = former at serves
    generalize state.next.world.worker? pool number = changed at serves
    cases serves <;> simp
  · obtain ⟨worker, was, serves⟩ := served known
    have account := crew.account number worker was
    rw [List.countP_append, List.countP_singleton]
    cases serves with
    | kept unbroken same _ => simpa [unbroken, same] using account
    | died broken dead _ =>
        -- It was alive, so no panic had left a job on it before.
        have alive := crew.manned number worker was (State.busy_of_breaks passes was broken)
        rw [alive, Bool.toNat_true] at account
        rw [dead, if_pos broken, Bool.toNat_false]
        omega
  · obtain ⟨worker, was, serves⟩ := served known
    cases serves with
    | kept _ same before =>
        rw [same]
        rcases before busy with busy | alive
        · exact crew.manned number worker was busy
        · exact alive
    | died _ _ idle => cases idle.symm.trans busy

/-- The account of the workers of a pool is kept until the pool is shut down. -/
theorem goesOn (passes : Passes past state) (present : (state.world.pools.get? pool).isSome = true)
    (crew : Crew pool size [] state) (goesOn : state.GoesOn more later) :
    (later.world.pools.get? pool).isSome = true ∧
      (later.world.acceptsJobs pool = true → Crew pool size more later) := by
  induction goesOn with
  | here => exact ⟨present, fun _ => crew⟩
  | again program _ _ ih =>
      obtain ⟨present, crew⟩ := ih
      exact ⟨present, fun accepts =>
        ⟨(crew accepts).size, (crew accepts).account, (crew accepts).manned⟩⟩
  | @next more later comes ih =>
      have passed := passes.goesOn comes
      refine ⟨State.present_next passed.reaches.tidy ih.1, fun still => ?_⟩
      rcases State.accepts_before passed.reaches.tidy still with accepts | ⟨absent, -⟩
      · exact (ih.2 accepts).next passed accepts still
      · simp [absent] at ih

/-- The workers of a pool that has just been opened are alive, and idle. -/
theorem of_fresh {threadName : String}
    (lookup : state.world.pools.get? pool = some (.fresh pool size threadName)) :
    Crew pool size [] state := by
  have known (number : Nat) (worker : Worker)
      (found : state.world.worker? pool number = some worker) :
      worker = ⟨true, false, some pool⟩ := by
    simp only [World.worker?, lookup, Pool.fresh, Option.bind_some,
      List.getElem?_replicate] at found
    split at found
    · exact (Option.some.inj found).symm
    · cases found
  refine ⟨fun number => ?_, fun number worker found => ?_, fun number worker found busy => ?_⟩
  · simp [World.worker?, lookup, Pool.fresh, List.getElem?_replicate]
  · rw [known number worker found]
    rfl
  · rw [known number worker found]

end Crew

/-- The workers of a pool.  A runtime that is opened with a number of workers keeps that number of
places for them until it is dropped.  Each of them is alive until a panic leaves a job on it, and
one panic does so at most.  When the workers are asked to take a job and there is one, it is begun
just when some worker is alive and idle; so none is begun when each has been left by a panic. -/
theorem workers_are_lost_to_panics {name : Name} {threadName : String} {rest : Reply → Program}
    {size : Nat} (passes : Passes past state)
    (opens : state.control = .program (.call (.newRuntime name size threadName) rest))
    (positive : size ≠ 0) (goesOn : state.next.GoesOn more later)
    (accepts : later.world.acceptsJobs state.world.pools.size = true) :
    ∃ found, later.world.pools.get? state.world.pools.size = some found ∧
      found.workers.length = size ∧
      (∀ number worker, found.workers[number]? = some worker →
        worker.alive.toNat + more.countP (State.breaks state.world.pools.size number) = 1) ∧
      (∀ name rest job jobs, later.control = .program (.call (.work name) rest) →
        later.world.runtimes.find? name = some state.world.pools.size →
          found.jobs = job :: jobs →
            (later.begun state.world.pools.size = [job] ↔
              ∃ worker ∈ found.workers, worker.alive = true ∧ worker.busy = false)) ∧
      ((∀ number < size, 0 < more.countP (State.breaks state.world.pools.size number)) →
        later.begun state.world.pools.size = []) := by
  have opened : state.next.world.pools.get? state.world.pools.size =
      some (.fresh state.world.pools.size size threadName) :=
    State.opened_next opens positive
  obtain ⟨present, crew⟩ := Crew.goesOn passes.next (by rw [opened]; rfl) (.of_fresh opened) goesOn
  obtain ⟨found, lookup⟩ := Option.isSome_iff_exists.mp present
  have known (number : Nat) :
      later.world.worker? state.world.pools.size number = found.workers[number]? := by
    simp [World.worker?, lookup]
  have crew := crew accepts
  refine ⟨found, lookup, ?_, fun number worker here => ?_, ?_, fun lost => ?_⟩
  · have bounds (number : Nat) : number < found.workers.length ↔ number < size := by
      rw [← crew.size, known]
      simp
    have := bounds size
    have := bounds found.workers.length
    omega
  · exact crew.account number worker ((known number).trans here)
  · intro name rest job jobs asks named queued
    rw [State.begun_of_work asks named lookup queued]
    by_cases idle : (found.workers.any fun worker => worker.alive && !worker.busy) = true
    · rw [if_pos idle]
      simpa using idle
    · rw [if_neg idle]
      simpa using idle
  · rcases State.begun_cases state.world.pools.size later with unbegun |
      ⟨-, other, number, -, -, same, idle, -⟩
    · exact unbegun
    · -- The worker that would take a job is alive, so no panic has left a job on it.
      cases lookup.symm.trans same
      obtain ⟨bound, resting, -⟩ := List.findIdx?_eq_some_iff_getElem.mp idle
      have here := (known number).trans (List.getElem?_eq_getElem bound)
      have account := crew.account number _ here
      have left := lost number ((crew.size number).mp (by rw [here]; rfl))
      simp only [Bool.and_eq_true] at resting
      rw [resting.1, Bool.toNat_true] at account
      omega

/-- Queue a panic and a work on a runtime with one worker, and ask for both of them to be begun. -/
def Program.depleting : Program :=
  .call (.newRuntime (.shared "runtime") 1 "worker") fun _ =>
    .call (.schedule (.pool 0) (.panic (.text "boom"))) fun _ =>
      .call (.dispatch (.shared "work") false false (.pool 0) (.ret .done)) fun _ =>
        .call (.work (.shared "runtime")) fun _ =>
          .call (.work (.shared "runtime")) .ret

/-- The panic has left the worker, and the work is about to be asked for. -/
def State.depleting : State := ((State.ofProgram .initial .depleting).walk 15).2

/-- The panic is the only one that has left a job on the worker, and the work is not begun. -/
theorem workers_are_lost_to_panics_depleting :
    (∃ found, State.depleting.world.pools.get? 0 = some found ∧ found.workers.length = 1 ∧
      found.jobs = [.job 0 (.ret .done)] ∧ ∀ worker ∈ found.workers, worker.alive = false) ∧
    (((State.ofProgram .initial .depleting).next.visits 14).countP (State.breaks 0 0)) = 1 ∧
    State.depleting.begun 0 = [] := by
  obtain ⟨found, lookup, size, -, -, idle⟩ := workers_are_lost_to_panics (.begin .depleting) rfl
    Nat.one_ne_zero (State.goesOn_walk _ 14) rfl
  refine ⟨⟨found, lookup, size, ?_, ?_⟩, rfl, idle ?_⟩
  · cases lookup
    rfl
  · cases lookup
    decide
  · intro number bound
    cases Nat.lt_one_iff.mp bound
    decide

/-- A pool does not keep its workers: it may have none while it accepts jobs, and has some. -/
theorem workers_are_not_kept :
    ¬ ∀ (past more : List State) (state later : State) (name : Name) (size : Nat)
      (threadName : String) (rest : Reply → Program) (found : Pool) (worker : Worker),
      Passes past state →
        state.control = .program (.call (.newRuntime name size threadName) rest) →
          state.next.GoesOn more later →
            later.world.acceptsJobs state.world.pools.size = true →
              later.world.pools.get? state.world.pools.size = some found →
                worker ∈ found.workers → worker.alive = true := by
  intro kept
  have alive := kept [] _ _ _ _ _ _ _
    ⟨[.job 0 (.ret .done)], false, [⟨false, false, some 0⟩], "worker", 0⟩
    ⟨false, false, some 0⟩ (.begin .depleting) rfl (State.goesOn_walk _ 14) rfl rfl
    (List.mem_singleton_self _)
  cases alive

end Stepwise
