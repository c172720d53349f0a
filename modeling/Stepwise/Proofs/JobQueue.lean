import Stepwise.Proofs.Shutdown

/-!
# The jobs of a pool

A pool loses no job and changes the order of none.  What has been begun and what is queued
are together what was accepted, in that order; when the pool is shut down, what is queued is
dropped, in that order; and from then on nothing is begun, and whoever hands over a job has it
back.

The small step obeys one law: what leaves the queue, followed by what stays in it, is what was
in it, followed by what enters.
-/

namespace Stepwise

variable {past more : List State} {state later : State} {pool number : Nat}
  {job : Continuation} {saved : ThreadState} {rest : Reply → Program}

/-- The jobs queued on a pool. -/
def World.jobs (world : World) (pool : Nat) : List Continuation :=
  ((world.pools.get? pool).map (·.jobs)).getD []

namespace State

/-- What the small step schedules on a pool. -/
def scheduledOn (pool : Nat) (state : State) : List Continuation :=
  match state.control with
  | .task (.schedule (.pool other) job) => if other = pool then [job] else []
  | _ => []

/-- The work that the small step dispatches to a pool. -/
def dispatchedTo (pool : Nat) (state : State) : List Continuation :=
  match state.dispatch? with
  | some (target, work) =>
      if state.world.addressee target = some pool then
        [.job state.world.deferreds.size work]
      else []
  | none => []

/-- The job that the small step hands over to a pool. -/
def handed (pool : Nat) (state : State) : List Continuation :=
  state.scheduledOn pool ++ state.dispatchedTo pool

/-- The job that the small step hands over to a pool which accepts it. -/
def accepted (pool : Nat) (state : State) : List Continuation :=
  if state.world.acceptsJobs pool then state.handed pool else []

/-- The job that a worker of a pool begins in the small step. -/
def begun (pool : Nat) (state : State) : List Continuation :=
  match state.control, state.next.control, state.next.stack with
  | .program (.call (.work _) _), .task (.run job), .worker other _ _ :: _ =>
      if other = pool then [job] else []
  | _, _, _ => []

/-- The jobs that the small step, which shuts a pool down, leaves to be dropped. -/
def drained (pool : Nat) (state : State) : List Continuation :=
  match state.control, state.next.control, state.next.stack with
  | .task (.discard (.runtime other)), .reply _, .disposing owned :: _ =>
      if other = pool then
        owned.filterMap fun
          | .continuation job => some job
          | _ => none
      else []
  | _, _, _ => []

/-! ## What enters the queue -/

theorem handed_of_schedule (schedules : state.control = .task (.schedule (.pool pool) job)) :
    state.handed pool = [job] := by
  simp [handed, scheduledOn, dispatchedTo, dispatch?, schedules]

theorem handed_of_dispatch {target : Target} {work : Program}
    (asks : state.dispatch? = some (target, work))
    (addressed : state.world.addressee target = some pool) :
    state.handed pool = [.job state.world.deferreds.size work] := by
  have unscheduled : state.scheduledOn pool = [] := by
    obtain ⟨launcher, dispatching⟩ := dispatching_of_dispatch? asks
    cases dispatching <;> rfl
  simp [handed, unscheduled, dispatchedTo, asks, addressed]

/-- The small step hands over nothing, or schedules a job, or dispatches one. -/
theorem handed_cases (pool : Nat) (state : State) :
    state.handed pool = [] ∨
      (∃ job, state.control = .task (.schedule (.pool pool) job)) ∨
        ∃ target work, state.dispatch? = some (target, work) ∧
          state.world.addressee target = some pool := by
  by_cases schedules : ∃ job, state.control = .task (.schedule (.pool pool) job)
  · exact .inr (.inl schedules)
  by_cases dispatches : ∃ target work, state.dispatch? = some (target, work) ∧
      state.world.addressee target = some pool
  · exact .inr (.inr dispatches)
  have unscheduled : state.scheduledOn pool = [] := by
    unfold scheduledOn
    split
    · next other job control =>
        rw [if_neg]
        rintro rfl
        exact schedules ⟨job, control⟩
    · rfl
  have undispatched : state.dispatchedTo pool = [] := by
    unfold dispatchedTo
    split
    · next target work asks =>
        rw [if_neg]
        exact fun addressed => dispatches ⟨target, work, asks, addressed⟩
    · rfl
  exact .inl (by rw [handed, unscheduled, undispatched, List.append_nil])

/-- Where a job is queued it has been handed over. -/
theorem handed_ne_nil (queues : state.Queues pool job) : state.handed pool ≠ [] := by
  rcases queues with ⟨_, -, -, target, work, asks, addressed⟩ | schedules
  · simp [handed_of_dispatch asks addressed]
  · simp [handed_of_schedule schedules]

/-- A pool that accepts a job has it behind the others. -/
theorem jobs_of_accepted (accepts : state.accepted pool = [job]) :
    state.next.world.jobs pool = state.world.jobs pool ++ [job] := by
  by_cases living : state.world.acceptsJobs pool = true
  · rw [accepted, if_pos living] at accepts
    cases lookup : state.world.pools.get? pool with
    | none => simp [World.acceptsJobs, lookup] at living
    | some found =>
        rcases handed_cases pool state with nothing | ⟨job, schedules⟩ |
          ⟨target, work, asks, addressed⟩
        · cases nothing.symm.trans accepts
        · cases (handed_of_schedule schedules).symm.trans accepts
          obtain ⟨world, stack, control⟩ := state
          subst schedules
          simp [next, carryingOut, scheduling, living, replying, World.jobs, World.modifyPool,
            lookup, Pool.push]
        · cases (handed_of_dispatch asks addressed).symm.trans accepts
          obtain ⟨later, waiting, quiet, -, -, goes⟩ := next_of_dispatch asks addressed
          rw [goes, if_pos living]
          simp [replying, World.jobs, World.modifyPool, World.newDeferred, quiet.pools, lookup,
            Pool.push]
  · rw [accepted, if_neg living] at accepts
    cases accepts

/-- At most one job is accepted. -/
theorem exists_of_accepted (accepts : state.accepted pool ≠ []) :
    ∃ job, state.accepted pool = [job] := by
  by_cases living : state.world.acceptsJobs pool = true
  · rw [accepted, if_pos living] at accepts ⊢
    rcases handed_cases pool state with nothing | ⟨job, schedules⟩ | ⟨target, work, asks, addressed⟩
    · exact absurd nothing accepts
    · exact ⟨job, handed_of_schedule schedules⟩
    · exact ⟨_, handed_of_dispatch asks addressed⟩
  · rw [accepted, if_neg living] at accepts
    exact absurd rfl accepts

/-! ## What leaves it -/

/-- A worker's frame is put on the stack only when a worker is asked to take a job. -/
theorem work_of_worker (tidy : state.Tidy)
    (placed : state.next.stack = .worker pool number saved :: .program rest :: state.base) :
    ∃ name, state.control = .program (.call (.work name) rest) := by
  have above {new base : Stack} (all : new.all Frame.isQuiet = true)
      (placed : new ++ base = .worker pool number saved :: .program rest :: base) : False := by
    have same : new = [.worker pool number saved, .program rest] :=
      List.append_cancel_right placed
    subst same
    cases all
  have quiet {world : World} {base : Stack} {after : State} (calm : State.Quiet world base after)
      (placed : after.stack = .worker pool number saved :: .program rest :: base) : False := by
    obtain ⟨-, ⟨new, stacked, all⟩, -⟩ := calm
    exact above all (stacked.symm.trans placed)
  rcases next_cases tidy with ⟨-, calm⟩ | stirs
  · exact (quiet calm placed).elim
  · generalize state.next = after at stirs placed
    cases stirs with
    | queued _ _ _ _ all _ => exact (above all placed).elim
    | crossed _ calm | broke _ calm => exact (quiet calm placed).elim
    | took _ _ _ =>
        cases placed
        exact ⟨_, rfl⟩
    | _ => cases placed

/-- Where a worker is asked to take a job, an idle one takes the oldest, if there are both. -/
theorem next_of_work {name : Name} (asks : state.control = .program (.call (.work name) rest)) :
    (∃ reply, state.next = ⟨state.world, .program rest :: state.stack, .reply reply⟩) ∨
      ∃ pool found job jobs number,
        state.world.runtimes.find? name = some pool ∧
        state.world.pools.get? pool = some found ∧ found.jobs = job :: jobs ∧
        found.idleWorker? = some number ∧
        state.next =
          ⟨{ state.world.modifyPool pool fun pool =>
              { pool with jobs := jobs }.modifyWorker number fun worker =>
                { worker with busy := true } with
              thread := ⟨found.workerName number, found.workers[number]?.bind (·.context)⟩ },
            .worker pool number state.world.thread :: .program rest :: state.stack,
            .task (.run job)⟩ := by
  obtain ⟨world, stack, _⟩ := state
  subst asks
  cases named : world.runtimes.find? name with
  | none =>
      simp only [next, requesting, withNamed, named]
      exact .inl ⟨_, rfl⟩
  | some pool =>
      simp only [next, requesting, withNamed, named, working]
      cases lookup : world.pools.get? pool with
      | none => exact .inl ⟨_, rfl⟩
      | some found =>
          cases queued : found.jobs with
          | nil =>
              simp only [queued]
              exact .inl ⟨_, rfl⟩
          | cons job jobs =>
              cases idle : found.idleWorker? with
              | none =>
                  simp only [queued, idle]
                  exact .inl ⟨_, rfl⟩
              | some number =>
                  simp only [queued, idle]
                  exact .inr ⟨pool, found, job, jobs, number, rfl, lookup, queued, idle, rfl⟩

/-- What a worker begins is the oldest job, and it is one that was alive and idle. -/
theorem begun_cases (pool : Nat) (state : State) :
    state.begun pool = [] ∨ ∃ job found number, state.begun pool = [job] ∧
      state.accepted pool = [] ∧ state.world.pools.get? pool = some found ∧
      found.idleWorker? = some number ∧
      state.world.jobs pool = job :: state.next.world.jobs pool := by
  unfold begun
  split
  · next name rest job other number saved stack control runs placed =>
      split
      · next same =>
          subst same
          rcases next_of_work control with ⟨reply, goes⟩ |
            ⟨other, found, oldest, jobs, number, -, lookup, queued, idle, goes⟩
          · rw [goes] at runs
            cases runs
          · rw [goes] at runs placed ⊢
            cases runs
            cases placed
            refine .inr ⟨job, found, number, rfl, ?_, lookup, idle, ?_⟩
            · simp [accepted, handed, scheduledOn, dispatchedTo, dispatch?, control]
            · simp [World.jobs, World.modifyPool, Pool.modifyWorker, lookup, queued]
      · exact .inl rfl
  · exact .inl rfl

/-- A worker that is put on the stack begins a job. -/
theorem begun_of_worker (tidy : state.Tidy) (runs : state.next.control = .task (.run job))
    (placed : state.next.stack = .worker pool number saved :: .program rest :: state.base) :
    state.begun pool = [job] := by
  obtain ⟨name, asks⟩ := work_of_worker tidy placed
  simp [begun, asks, runs, placed]

theorem drained_eq_nil (stays : state.control ≠ .task (.discard (.runtime pool))) :
    state.drained pool = [] := by
  unfold drained
  split
  · next other reply owned stack control replies placed =>
      rw [if_neg]
      rintro rfl
      exact stays control
  · rfl

/-- The jobs that are put up to be dropped are drained. -/
theorem drained_of_placed {jobs : List Continuation} {reply : Reply} {below : Stack}
    (drops : state.control = .task (.discard (.runtime pool)))
    (replies : state.next.control = .reply reply)
    (placed : state.next.stack = .disposing (jobs.map .continuation) :: below) :
    state.drained pool = jobs := by
  simp only [drained, drops, replies, placed, if_true, List.filterMap_map]
  exact List.filterMap_some

/-- A pool whose runtime is dropped is shut down, and its jobs are dropped next; or the thread
that drops it waits for itself. -/
theorem next_of_drop (tidy : state.Tidy) (accepts : state.world.acceptsJobs pool = true)
    (drops : state.control = .task (.discard (.runtime pool))) :
    state.next = ⟨state.world, state.stack, .halted .deadlock⟩ ∨
      (state.next.world.Shut pool ∧ state.next.control = .reply .done ∧
        state.next.stack = .disposing ((state.world.jobs pool).map .continuation) ::
          .recording .runtimeShutDown :: state.stack) := by
  have shuts := shut_of_drop tidy accepts drops
  obtain ⟨world, stack, control⟩ := state
  subst drops
  cases lookup : world.pools.get? pool with
  | none => simp [World.acceptsJobs, lookup] at accepts
  | some found =>
      simp only [next, carryingOut, discarding, shuttingDown, lookup] at shuts ⊢
      by_cases busy : found.isBusy = true
      · exact .inl (if_pos busy)
      · rw [if_neg busy] at shuts ⊢
        exact .inr ⟨shuts (by rintro _ ⟨⟩), rfl, by simp [World.jobs, lookup]⟩

/-! ## The law of the small step -/

/-- What leaves the queue of a pool, followed by what stays in it, is what was in it, followed by
what enters. -/
theorem jobs_next (passes : Passes past state) (pool : Nat) :
    state.begun pool ++ state.drained pool ++ state.next.world.jobs pool =
      state.world.jobs pool ++ state.accepted pool := by
  have tidy := passes.reaches.tidy
  by_cases drops : state.control = .task (.discard (.runtime pool))
  · have unbegun : state.begun pool = [] := by simp [begun, drops]
    have unhanded : state.accepted pool = [] := by
      simp [accepted, handed, scheduledOn, dispatchedTo, dispatch?, drops]
    have accepts := (passes.housed.dropping pool (.inl drops)).1
    rw [unbegun, unhanded, List.nil_append, List.append_nil]
    rcases next_of_drop tidy accepts drops with waits | ⟨⟨found, lookup, -, empty⟩, replies, placed⟩
    · simp [drained, drops, waits]
    · have left : state.next.world.jobs pool = [] := by simp [World.jobs, lookup, empty]
      rw [drained_of_placed drops replies placed, left, List.append_nil]
  rw [drained_eq_nil drops, List.append_nil]
  rcases begun_cases pool state with unbegun | ⟨job, -, -, begins, nothing, -, -, oldest⟩
  · rw [unbegun, List.nil_append]
    by_cases enters : state.accepted pool = []
    · -- Nothing enters, nothing leaves.
      rw [enters, List.append_nil]
      have proceeds := proceeds_next tidy pool
      simp only [World.jobs]
      generalize was : state.world.pools.get? pool = former at proceeds ⊢
      generalize state.next.world.pools.get? pool = changed at proceeds ⊢
      cases proceeds with
      | absent => rfl
      | opened _ empty _ => simp [empty]
      | kept same _ => simp [same]
      | queued queues living _ _ =>
          have accepts : state.world.acceptsJobs pool = true := by
            simp [World.acceptsJobs, was, living]
          rw [accepted, if_pos accepts] at enters
          exact absurd enters (handed_ne_nil queues)
      | took runs placed _ _ =>
          cases unbegun.symm.trans (begun_of_worker tidy runs placed)
      | closed now _ _ => exact absurd now drops
    · obtain ⟨job, enters⟩ := exists_of_accepted enters
      rw [enters, jobs_of_accepted enters]
  · rw [begins, nothing, oldest, List.singleton_append, List.append_nil]

/-! ## Once the pool is shut down -/

/-- No job of a pool that is shut down is begun, accepted or dropped any more. -/
theorem idle_of_shut (passes : Passes past state) (shut : state.world.Shut pool) :
    state.world.jobs pool = [] ∧ state.begun pool = [] ∧ state.drained pool = [] ∧
      state.accepted pool = [] := by
  have refuses := shut.acceptsJobs
  have unhanded : state.accepted pool = [] := by simp [accepted, refuses]
  have undrained : state.drained pool = [] := by
    refine drained_eq_nil fun drops => ?_
    rw [(passes.housed.dropping pool (.inl drops)).1] at refuses
    cases refuses
  obtain ⟨found, lookup, -, nothing⟩ := shut
  have empty : state.world.jobs pool = [] := by simp [World.jobs, lookup, nothing]
  refine ⟨empty, ?_, undrained, unhanded⟩
  rcases begun_cases pool state with unbegun | ⟨job, -, -, -, -, -, -, oldest⟩
  · exact unbegun
  · cases empty.symm.trans oldest

end State

/-! ## Whole runs -/

/-- Where the jobs are that a pool has accepted. -/
structure Conserved (past : List State) (pool : Nat) (state : State) : Prop where
  /-- What was begun, what was dropped and what is queued are what was accepted. -/
  lossless : past.flatMap (State.begun pool) ++ past.flatMap (State.drained pool) ++
    state.world.jobs pool = past.flatMap (State.accepted pool)
  /-- Nothing is dropped before the pool is shut down. -/
  undrained : ¬ state.world.Shut pool → past.flatMap (State.drained pool) = []

/-- What a small step does to a pool loses no job. -/
theorem Conserved.next (passes : Passes past state) (conserved : Conserved past pool state) :
    Conserved (past ++ [state]) pool state.next := by
  have law := State.jobs_next passes pool
  have lossless := conserved.lossless
  by_cases shut : state.world.Shut pool
  · obtain ⟨empty, unbegun, undrained, unaccepted⟩ := State.idle_of_shut passes shut
    refine ⟨?_, fun opens => absurd (State.shut_next passes.reaches.tidy shut) opens⟩
    simp only [unbegun, undrained, empty, unaccepted, List.append_nil, List.nil_append] at law
    simpa [unbegun, undrained, unaccepted, law, empty] using lossless
  · have before := conserved.undrained shut
    simp only [before, List.append_nil] at lossless
    refine ⟨?_, fun opens => ?_⟩
    · simp only [List.flatMap_append, List.flatMap_singleton, before, List.nil_append]
      rw [← lossless, List.append_assoc, List.append_assoc, ← List.append_assoc (state.begun pool),
        law, List.append_assoc]
    · have undrained : state.drained pool = [] := by
        by_cases drops : state.control = .task (.discard (.runtime pool))
        · rcases State.next_of_drop passes.reaches.tidy
            (passes.housed.dropping pool (.inl drops)).1 drops with waits | ⟨shuts, -⟩
          · simp [State.drained, drops, waits]
          · exact absurd shuts opens
        · exact State.drained_eq_nil drops
      simp [before, undrained]

/-- In every run every pool loses no job. -/
theorem Passes.conserved (passes : Passes past state) (pool : Nat) :
    Conserved past pool state := by
  induction passes with
  | begin program => exact ⟨rfl, fun _ => rfl⟩
  | again program _ _ ih => exact ⟨ih.lossless, ih.undrained⟩
  | next passes ih => exact ih.next passes

/-- Queue a panic and two works on a runtime, have its workers begin two of the three, displace the
runtime, and use it nevertheless. -/
def Program.emptying : Program :=
  .call (.newRuntime (.shared "runtime") 2 "worker") fun _ =>
    .call (.schedule (.pool 0) (.panic (.text "boom"))) fun _ =>
      .call (.dispatch (.shared "first") false false (.pool 0) (.ret .done)) fun _ =>
        .call (.dispatch (.shared "second") false false (.pool 0) (.ret .done)) fun _ =>
          .call (.work (.shared "runtime")) fun _ =>
            .call (.work (.shared "runtime")) fun _ =>
              .call (.newRuntime (.shared "runtime") 1 "worker") fun _ => .reusing

/-- The runtime is about to be dropped: one worker has died of the panic, and one work has not been
begun. -/
def State.emptying : State := ((State.ofProgram .initial .emptying).walk 29).2

end Stepwise
