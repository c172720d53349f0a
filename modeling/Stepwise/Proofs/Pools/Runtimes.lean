import Stepwise.Proofs.Pools.Sent

/-!
# Runtimes and their workers

The pool of a runtime accepts jobs until the runtime is dropped, which happens once; from
then on its queue is empty.  Whoever is on the stack as a worker is busy.
-/

namespace Stepwise

variable {state after : State} {world later : World} {stack new : Stack} {pool number : Nat}

/-! ## Shutting down -/

/-- A pool is shut down, and its queue is empty. -/
def World.Shut (world : World) (pool : Nat) : Prop :=
  ∃ found, world.pools.get? pool = some found ∧ found.shutdown = true ∧ found.jobs = []

theorem World.Shut.acceptsJobs (shut : world.Shut pool) : world.acceptsJobs pool = false := by
  obtain ⟨found, lookup, closed, -⟩ := shut
  simp [World.acceptsJobs, lookup, closed]

theorem World.Shut.unqueued {continuation : Continuation} (shut : world.Shut pool) :
    ¬ world.ledger.Holds (.queued (.pool pool)) continuation := by
  rintro ⟨found, lookup, member⟩
  obtain ⟨again, present, -, empty⟩ := shut
  cases present.symm.trans lookup
  rw [empty] at member
  cases member

namespace State

/-- A pool that is shut down stays so, and its queue stays empty. -/
theorem shut_next (tidy : state.Tidy) (shut : state.world.Shut pool) :
    state.next.world.Shut pool := by
  obtain ⟨found, lookup, closed, empty⟩ := shut
  have proceeds := proceeds_next tidy pool
  rw [lookup] at proceeds
  generalize present : state.next.world.pools.get? pool = changed at proceeds
  cases proceeds with
  | kept jobs shutdown => exact ⟨_, present, shutdown.trans closed, jobs.trans empty⟩
  | closed _ jobs shutdown => exact ⟨_, present, shutdown, jobs⟩
  | queued _ living _ _ => cases living.symm.trans closed
  | took _ _ jobs _ => cases empty.symm.trans jobs

/-- Where a pool is shut down, it accepts no jobs, and has none left. -/
theorem shut_of_drop (tidy : state.Tidy) (accepts : state.world.acceptsJobs pool = true)
    (drops : state.control = .task (.discard (.runtime pool)))
    (goesOn : ∀ reason, state.next.control ≠ .halted reason) : state.next.world.Shut pool := by
  obtain ⟨world, stack, control⟩ := state
  subst drops
  cases lookup : world.pools.get? pool with
  | none => simp [World.acceptsJobs, lookup] at accepts
  | some found =>
      by_cases busy : found.isBusy = true
      · simp [next, carryingOut, discarding, shuttingDown, lookup, busy] at goesOn
      · refine ⟨found.close, ?_, rfl, rfl⟩
        simp only [next, carryingOut, discarding, shuttingDown, lookup, if_neg busy]
        split <;> simp [World.record, World.modifyPool, lookup]

/-- A pool that accepts jobs goes on to, unless it is shut down just now. -/
theorem accepts_next (tidy : state.Tidy) (accepts : state.world.acceptsJobs pool = true)
    (stays : state.control ≠ .task (.discard (.runtime pool))) :
    state.next.world.acceptsJobs pool = true := by
  cases lookup : state.world.pools.get? pool with
  | none => simp [World.acceptsJobs, lookup] at accepts
  | some found =>
      have living : found.shutdown = false := by
        simpa [World.acceptsJobs, lookup] using accepts
      have proceeds := proceeds_next tidy pool
      rw [lookup] at proceeds
      generalize present : state.next.world.pools.get? pool = changed at proceeds
      cases proceeds with
      | kept _ shutdown | took _ _ _ shutdown =>
          simp [World.acceptsJobs, present, shutdown, living]
      | queued _ _ _ shutdown => simp [World.acceptsJobs, present, shutdown]
      | closed drops _ _ => exact absurd drops stays

/-- A pool that accepts jobs did so before, or is new. -/
theorem accepts_before (tidy : state.Tidy) (accepts : state.next.world.acceptsJobs pool = true) :
    state.world.acceptsJobs pool = true ∨
      (state.world.pools.get? pool = none ∧ ∃ program, state.control = .program program) := by
  have proceeds := proceeds_next tidy pool
  generalize lookup : state.world.pools.get? pool = former at proceeds
  cases present : state.next.world.pools.get? pool with
  | none => simp [World.acceptsJobs, present] at accepts
  | some found =>
      have living : found.shutdown = false := by
        simpa [World.acceptsJobs, present] using accepts
      rw [present] at proceeds
      cases proceeds with
      | opened runs _ _ => exact .inr ⟨rfl, _, runs⟩
      | kept _ shutdown | took _ _ _ shutdown =>
          exact .inl (by simp [World.acceptsJobs, lookup, ← shutdown, living])
      | queued _ running _ _ => exact .inl (by simp [World.acceptsJobs, lookup, running])
      | closed _ _ shutdown => cases living.symm.trans shutdown

end State

/-! ## Workers at their posts -/

/-- Whether a worker of a pool runs a job at a frame. -/
def Frame.posts (pool number : Nat) : Frame → Bool
  | .worker other busy _ => other == pool && busy == number
  | _ => false

/-- Whether a worker is busy. -/
def World.isPosted (world : World) (pool number : Nat) : Bool :=
  (((world.pools.get? pool).bind (·.workers[number]?)).map (·.busy)).getD false

/-- Whoever is on the stack as a worker is there once, and busy. -/
def State.Posted (state : State) : Prop :=
  ∀ pool number,
    state.stack.countP (Frame.posts pool number) ≤ (state.world.isPosted pool number).toNat

namespace World

theorem isPosted_of_pools (same : later.pools = world.pools) :
    later.isPosted pool number = world.isPosted pool number := by
  simp [isPosted, same]

/-- A pool changes, but no worker begins or ends a job. -/
theorem isPosted_modified {other : Nat} {change : Pool → Pool}
    (pools : later.pools = world.pools.modify other change)
    (kept : ∀ found : Pool, (change found).workers.map (·.busy) = found.workers.map (·.busy)) :
    later.isPosted pool number = world.isPosted pool number := by
  have workers (found : Pool) :
      (change found).workers[number]?.map (·.busy) = found.workers[number]?.map (·.busy) := by
    rw [← List.getElem?_map, ← List.getElem?_map, kept]
  rw [isPosted, isPosted, pools, Store.get?_modify]
  split
  · cases world.pools.get? pool with
    | none => rfl
    | some found => simp [workers]
  · rfl

/-- The busy workers of a pool with one of them changed. -/
theorem isPosted_modifyWorker (adjust : Pool → Pool) {other index : Nat}
    {change : Worker → Worker} (same : ∀ found : Pool, (adjust found).workers = found.workers)
    (pools : later.pools =
      world.pools.modify other fun pool => (adjust pool).modifyWorker index change)
    (different : ¬ (other = pool ∧ index = number)) :
    later.isPosted pool number = world.isPosted pool number := by
  rw [isPosted, isPosted, pools, Store.get?_modify]
  split
  · next here =>
      cases world.pools.get? pool with
      | none => rfl
      | some found =>
          have apart : index ≠ number := fun again => different ⟨here, again⟩
          simp [Pool.modifyWorker, same, apart]
  · rfl

end World

theorem Stack.countP_posts_of_quiet (all : new.all Frame.isQuiet = true) :
    new.countP (Frame.posts pool number) = 0 := by
  refine List.countP_eq_zero.mpr fun frame member => ?_
  have quiet := Frame.isBorder_of_isQuiet (List.all_eq_true.mp all frame member)
  cases frame with
  | worker _ _ _ => cases quiet
  | _ => simp [Frame.posts]

namespace State

/-- What is beneath is as often on the stack, or less often. -/
theorem Posted.base (posted : state.Posted) (pool number : Nat) :
    state.base.countP (Frame.posts pool number) ≤ (state.world.isPosted pool number).toNat := by
  refine Nat.le_trans ?_ (posted pool number)
  obtain ⟨world, stack, control⟩ := state
  cases control with
  | reply _ | unwind _ =>
      cases stack with
      | nil => exact Nat.le_refl _
      | cons frame rest => simp [base, List.countP_cons]
  | _ => exact Nat.le_refl _

/-- Quiet frames are stacked where no worker begins or ends a job. -/
theorem Posted.stacked (new : Stack) {control : Control}
    (all : ∀ pool number, new.countP (Frame.posts pool number) = 0)
    (beneath : ∀ pool number,
      stack.countP (Frame.posts pool number) ≤ (world.isPosted pool number).toNat)
    (same : ∀ pool number, later.isPosted pool number = world.isPosted pool number) :
    Posted ⟨later, new ++ stack, control⟩ := by
  intro pool number
  rw [List.countP_append, all, same, Nat.zero_add]
  exact beneath pool number

theorem Quiet.posted {world : World} (quiet : State.Quiet world stack after)
    (beneath : ∀ pool number,
      stack.countP (Frame.posts pool number) ≤ (world.isPosted pool number).toNat) :
    after.Posted := by
  obtain ⟨later, placed, control⟩ := after
  obtain ⟨changed, ⟨new, rfl, all⟩, -⟩ := quiet
  exact .stacked new (fun _ _ => Stack.countP_posts_of_quiet all) beneath
    fun _ _ => World.isPosted_of_pools changed.pools

/-- Once a frame at a border is gone, a worker that was there is no longer busy. -/
theorem Posted.popped {frame : Frame} {control : Control}
    (posted : Posted ⟨world, frame :: stack, control⟩)
    (rests : ∀ other index saved, frame = .worker other index saved →
      ∀ pool number, ¬ (other = pool ∧ index = number) →
        later.isPosted pool number = world.isPosted pool number)
    (same : (∀ other index saved, frame ≠ .worker other index saved) →
      ∀ pool number, later.isPosted pool number = world.isPosted pool number)
    (pool number : Nat) :
    stack.countP (Frame.posts pool number) ≤ (later.isPosted pool number).toNat := by
  have counted := posted pool number
  simp only [List.countP_cons] at counted
  by_cases worker : ∃ other index saved, frame = .worker other index saved
  · obtain ⟨other, index, saved, rfl⟩ := worker
    by_cases here : other = pool ∧ index = number
    · -- It was busy, and no more than once on the stack.
      obtain ⟨rfl, rfl⟩ := here
      have bound := Bool.toNat_le (world.isPosted other index)
      simp only [Frame.posts, beq_self_eq_true, Bool.and_self, if_true] at counted
      omega
    · rw [rests other index saved rfl pool number here]
      omega
  · rw [same fun other index saved here => worker ⟨other, index, saved, here⟩]
    omega

theorem Posted.left {frame : Frame} {control : Control}
    (posted : Posted ⟨world, frame :: stack, control⟩) (pool number : Nat) :
    stack.countP (Frame.posts pool number) ≤ ((world.left frame).isPosted pool number).toNat := by
  refine posted.popped ?_ ?_ pool number
  · rintro other index saved rfl pool number different
    exact World.isPosted_modifyWorker id (fun _ => rfl) rfl different
  · intro unmanned pool number
    cases frame with
    | context _ _ | blocking _ _ _ => exact World.isPosted_modified rfl fun _ => rfl
    | worker other index saved => exact absurd rfl (unmanned other index saved)
    | _ => rfl

theorem Posted.broken {frame : Frame} {control : Control}
    (posted : Posted ⟨world, frame :: stack, control⟩) (pool number : Nat) :
    stack.countP (Frame.posts pool number) ≤
      ((world.broken frame).isPosted pool number).toNat := by
  refine posted.popped ?_ ?_ pool number
  · rintro other index saved rfl pool number different
    exact World.isPosted_modifyWorker id (fun _ => rfl) rfl different
  · intro unmanned pool number
    cases frame with
    | context _ _ | blocking _ _ _ => exact World.isPosted_modified rfl fun _ => rfl
    | worker other index saved => exact absurd rfl (unmanned other index saved)
    | _ => rfl

theorem isPosted_pushed {workers : Nat} {threadName : String}
    (pools : later.pools = world.pools.push (.fresh world.pools.size workers threadName)) :
    later.isPosted pool number = world.isPosted pool number := by
  rw [World.isPosted, World.isPosted, pools, Store.get?_push]
  split
  · next newest =>
      have unused : world.pools.get? pool = none := by simp [newest, Store.get?, Store.size]
      rw [unused]
      simp only [Pool.fresh, Option.bind_some, List.getElem?_replicate]
      split <;> rfl
  · rfl

/-- An idle worker that takes a job is on the stack as a worker then, and was not before. -/
theorem Posted.took {found : Pool} {jobs : List Continuation} {control next : Control}
    {saved : ThreadState} {rest : Reply → Program} (posted : Posted ⟨world, stack, control⟩)
    (lookup : world.pools.get? pool = some found) (idle : found.idleWorker? = some number)
    (pools : later.pools = world.pools.modify pool fun pool =>
      { pool with jobs := jobs }.modifyWorker number fun worker => { worker with busy := true }) :
    Posted ⟨later, .worker pool number saved :: .program rest :: stack, next⟩ := by
  intro other index
  have counted := posted other index
  simp only [List.countP_cons, Frame.posts, Bool.false_eq_true, if_false, Nat.add_zero] at counted ⊢
  by_cases here : pool = other ∧ number = index
  · obtain ⟨rfl, rfl⟩ := here
    obtain ⟨bound, resting, -⟩ := List.findIdx?_eq_some_iff_getElem.mp idle
    have was : world.isPosted pool number = false := by
      have sleeps : found.workers[number].busy = false := by
        simp only [Bool.and_eq_true, Bool.not_eq_true'] at resting
        exact resting.2
      simp [World.isPosted, lookup, List.getElem?_eq_getElem bound, sleeps]
    have now : later.isPosted pool number = true := by
      simp [World.isPosted, pools, lookup, Pool.modifyWorker, List.getElem?_eq_getElem bound]
    rw [was] at counted
    simp only [now, beq_self_eq_true, Bool.and_self, if_true, Bool.toNat_true, Bool.toNat_false]
      at counted ⊢
    omega
  · rw [World.isPosted_modifyWorker (fun pool => { pool with jobs := jobs })
      (fun _ => rfl) pools here]
    have apart : (pool == other && number == index) = false := by simpa using here
    simp only [apart, Bool.false_eq_true, if_false, Nat.add_zero]
    exact counted

/-- A small step that stirs keeps the workers at their posts. -/
theorem Stirs.posted (stirs : Stirs state after) (posted : state.Posted) : after.Posted := by
  cases stirs with
  | @queued state later pool job new reply _ quiet _ _ all _ =>
      refine .stacked new (fun _ _ => Stack.countP_posts_of_quiet all) posted.base fun _ _ => ?_
      refine Eq.trans (World.isPosted_modified rfl ?_) (World.isPosted_of_pools quiet.pools)
      exact fun _ => rfl
  | @published world stack deferred outcome found record _ =>
      exact .stacked [.firing deferred found.continuations] (fun _ _ => rfl) posted fun _ _ => rfl
  | @closed world later stack pool found _ _ quiet =>
      refine .stacked [.disposing (found.jobs.map .continuation), .recording .runtimeShutDown]
        (fun _ _ => rfl) posted fun _ _ => ?_
      refine World.isPosted_modified quiet.pools fun found => ?_
      simp [Pool.close]
  | @overwrote world later stack rest receipt name raw other _ quiet =>
      exact .stacked [.disposing [.writer other], .answering .done, .program rest]
        (fun _ _ => rfl) posted fun _ _ => World.isPosted_of_pools quiet.pools
  | @opened world later stack rest name workers threadName _ quiet =>
      exact .stacked [.program rest] (fun _ _ => rfl) posted fun _ _ =>
        isPosted_pushed quiet.pools
  | @reopened world later stack rest name workers other threadName _ quiet =>
      exact .stacked [.disposing [.runtime other], .answering .done, .program rest]
        (fun _ _ => rfl) posted fun _ _ => isPosted_pushed quiet.pools
  | @dropped world stack rest name pool reply _ _ =>
      exact .stacked [.answering reply, .program rest] (fun _ _ => rfl) posted fun _ _ => rfl
  | @shed world stack reply pool =>
      exact .stacked [.disposing []] (fun _ _ => rfl) posted.base fun _ _ => rfl
  | @entered world stack rest name body pool _ =>
      exact .stacked [.context world.thread.context pool, .program rest] (fun _ _ => rfl) posted
        fun _ _ => World.isPosted_modified rfl fun _ => rfl
  | @ran world later stack rest name threadName machine pool number deferred _ quiet =>
      exact .stacked [.blocking number pool deferred, .thread world.thread, .program rest]
        (fun _ _ => rfl) posted fun _ _ => World.isPosted_modified quiet.pools fun _ => rfl
  | @threaded world stack rest _ _ =>
      exact .stacked [.thread world.thread, .program rest] (fun _ _ => rfl) posted fun _ _ => rfl
  | took lookup _ idle => exact posted.took lookup idle rfl
  | crossed _ quiet => exact quiet.posted posted.left
  | broke _ quiet => exact quiet.posted posted.broken

theorem Posted.next (tidy : state.Tidy) (posted : state.Posted) : state.next.Posted := by
  rcases next_cases tidy with ⟨-, quiet⟩ | stirs
  · exact quiet.posted posted.base
  · exact stirs.posted posted

/-- A pool with a worker on the stack is busy. -/
theorem Posted.isBusy {saved : ThreadState} {found : Pool} (posted : state.Posted)
    (lookup : state.world.pools.get? pool = some found)
    (placed : Frame.worker pool number saved ∈ state.stack) : found.isBusy = true := by
  have counted := posted pool number
  have once : 0 < state.stack.countP (Frame.posts pool number) :=
    List.countP_pos_iff.mpr ⟨_, placed, by simp [Frame.posts]⟩
  have busy : state.world.isPosted pool number = true := by
    cases posted : state.world.isPosted pool number with
    | true => rfl
    | false =>
        rw [posted, Bool.toNat_false] at counted
        omega
  simp only [World.isPosted, lookup, Option.bind_some] at busy
  cases worker : found.workers[number]? with
  | none => simp [worker] at busy
  | some known =>
      exact List.any_eq_true.mpr ⟨known, List.mem_of_getElem? worker, by simpa [worker] using busy⟩

end State

/-- In every run the workers on the stack are busy. -/
theorem Reaches.posted {trace : List Occurrence} (reaches : Reaches trace state) :
    state.Posted := by
  induction reaches with
  | begin _ | again _ _ _ _ => exact fun _ _ => Nat.zero_le _
  | next reached ih => exact ih.next reached.tidy

/-! ## Runtimes that are dropped -/

namespace State

/-- A runtime is about to be dropped. -/
def Sheds (state : State) (pool : Nat) : Prop :=
  state.control = .task (.discard (.runtime pool)) ∨
    ∃ rest, state.stack = .disposing [.runtime pool] :: rest

/-- What a small step does to the runtimes under names. -/
inductive Leases (state after : State) : Prop where
  | kept : after.world.runtimes = state.world.runtimes →
      (∀ pool, after.Sheds pool → state.Sheds pool ∧ ∃ reply, state.control = .reply reply) →
        Leases state after
  | opened {name : Name} :
      after.world.runtimes = state.world.runtimes.insert name state.world.pools.size →
        after.world.acceptsJobs state.world.pools.size = true →
          (∀ pool, after.Sheds pool → state.world.runtimes.find? name = some pool) →
            Leases state after
  | erased {name : Name} :
      after.world.runtimes = state.world.runtimes.erase name →
        (∀ pool, after.Sheds pool → state.world.runtimes.find? name = some pool) →
          Leases state after

/-- Where a small step goes on quietly above tidy frames, no runtime is about to be
dropped. -/
theorem Quiet.sheds (quiet : State.Quiet world stack after)
    (tidy : stack.all Frame.isTidy = true) : ¬ after.Sheds pool := by
  obtain ⟨-, ⟨new, placed, all⟩, silent⟩ := quiet
  rintro (drops | ⟨rest, disposes⟩)
  · simp [drops, Control.isQuiet] at silent
  · have member : Frame.disposing [.runtime pool] ∈ new ++ stack := by
      simp [← placed, disposes]
    have untidy : (Frame.disposing [.runtime pool]).isTidy = false := rfl
    rcases List.mem_append.mp member with above | beneath
    · have single := Frame.isTidy_of_isQuiet (List.all_eq_true.mp all _ above)
      cases untidy.symm.trans single
    · cases untidy.symm.trans (List.all_eq_true.mp tidy _ beneath)

theorem acceptsJobs_pushed {workers : Nat} {threadName : String}
    (pools : later.pools = world.pools.push (.fresh world.pools.size workers threadName)) :
    later.acceptsJobs world.pools.size = true := by
  simp [World.acceptsJobs, pools, Pool.fresh]

/-- What a small step that stirs does to the runtimes under names. -/
theorem Stirs.leases (stirs : Stirs state after) (tidy : state.Tidy) : Leases state after := by
  have beneath := tidy.base
  cases stirs with
  | @queued state later pool job new reply _ quiet _ _ all _ =>
      refine .kept quiet.runtimes fun pool sheds => ?_
      have goesOn : State.Quiet later state.base ⟨later, new ++ state.base, .reply reply⟩ :=
        ⟨.refl later, ⟨new, rfl, all⟩, rfl⟩
      exact absurd sheds (goesOn.sheds beneath)
  | published _ | entered _ | threaded | took _ _ _ =>
      refine .kept rfl fun pool sheds => ?_
      rcases sheds with drops | ⟨_, placed⟩
      · cases drops
      · cases placed
  | @closed world later stack pool found _ _ quiet =>
      refine .kept quiet.runtimes fun other sheds => ?_
      rcases sheds with drops | ⟨_, placed⟩
      · cases drops
      · have jobs := congrArg (fun stack : Stack => stack.head?) placed
        simp only [List.head?_cons, Option.some.injEq, Frame.disposing.injEq] at jobs
        cases queue : found.jobs with
        | nil => simp [queue] at jobs
        | cons job rest => simp [queue] at jobs
  | overwrote _ quiet =>
      refine .kept quiet.runtimes fun pool sheds => ?_
      rcases sheds with drops | ⟨_, placed⟩
      · cases drops
      · cases placed
  | opened _ quiet =>
      refine .opened quiet.runtimes (acceptsJobs_pushed quiet.pools) fun pool sheds => ?_
      rcases sheds with drops | ⟨_, placed⟩
      · cases drops
      · cases placed
  | reopened named quiet =>
      refine .opened quiet.runtimes (acceptsJobs_pushed quiet.pools) fun pool sheds => ?_
      rcases sheds with drops | ⟨_, placed⟩
      · cases drops
      · cases placed
        exact named
  | dropped named _ =>
      refine .erased rfl fun pool sheds => ?_
      rcases sheds with drops | ⟨_, placed⟩
      · cases drops
        exact named
      · cases placed
  | shed =>
      refine .kept rfl fun pool sheds => ?_
      rcases sheds with drops | ⟨_, placed⟩
      · cases drops
        exact ⟨.inr ⟨_, rfl⟩, _, rfl⟩
      · cases placed
  | ran _ quiet =>
      refine .kept quiet.runtimes fun pool sheds => ?_
      rcases sheds with drops | ⟨_, placed⟩
      · cases drops
      · cases placed
  | @crossed world stack frame reply after _ quiet =>
      refine .kept ?_ fun pool sheds => absurd sheds (quiet.sheds beneath)
      rw [quiet.world.runtimes]
      cases frame <;> rfl
  | @broke world stack frame payload after _ quiet =>
      refine .kept ?_ fun pool sheds => absurd sheds (quiet.sheds beneath)
      rw [quiet.world.runtimes]
      cases frame <;> rfl

theorem leases_next (tidy : state.Tidy) : Leases state state.next := by
  rcases next_cases tidy with ⟨-, quiet⟩ | stirs
  · exact .kept quiet.world.runtimes fun _ sheds => absurd sheds (quiet.sheds tidy.base)
  · exact stirs.leases tidy

/-- A runtime under a name, or about to be dropped, accepts jobs; it has one name only, and
none any more when it is dropped. -/
structure Housed (state : State) : Prop where
  living : ∀ name pool, state.world.runtimes.find? name = some pool →
    state.world.acceptsJobs pool = true
  distinct : ∀ name other pool, state.world.runtimes.find? name = some pool →
    state.world.runtimes.find? other = some pool → name = other
  dropping : ∀ pool, state.Sheds pool → state.world.acceptsJobs pool = true ∧
    ∀ name, state.world.runtimes.find? name ≠ some pool

theorem lt_of_acceptsJobs (accepts : world.acceptsJobs pool = true) : pool ≠ world.pools.size := by
  rintro rfl
  simp [World.acceptsJobs, Store.get?, Store.size] at accepts

/-- Every small step keeps runtimes apart. -/
theorem Housed.next (tidy : state.Tidy) (housed : state.Housed) : state.next.Housed := by
  -- What is named goes on accepting jobs: what is shut down has no name.
  have named {name : Name} {pool : Nat} (lookup : state.world.runtimes.find? name = some pool) :
      state.next.world.acceptsJobs pool = true := by
    refine accepts_next tidy (housed.living name pool lookup) fun drops => ?_
    exact (housed.dropping pool (.inl drops)).2 name lookup
  cases leases_next tidy with
  | kept same sheds =>
      refine ⟨fun name pool lookup => named (by rwa [same] at lookup), ?_, ?_⟩
      · intro name other pool lookup again
        rw [same] at lookup again
        exact housed.distinct name other pool lookup again
      · intro pool dropping
        obtain ⟨before, reply, replies⟩ := sheds pool dropping
        obtain ⟨accepts, unnamed⟩ := housed.dropping pool before
        exact ⟨accepts_next tidy accepts (by simp [replies]), by rwa [same]⟩
  | @opened added same accepts sheds =>
      have old {name : Name} {pool : Nat} (different : added ≠ name)
          (lookup : state.next.world.runtimes.find? name = some pool) :
          state.world.runtimes.find? name = some pool := by
        rwa [same, Table.find?_insert, if_neg different] at lookup
      have new {pool : Nat} (lookup : state.next.world.runtimes.find? added = some pool) :
          pool = state.world.pools.size := by
        rw [same, Table.find?_insert, if_pos rfl] at lookup
        exact (Option.some.inj lookup).symm
      refine ⟨?_, ?_, ?_⟩
      · intro name pool lookup
        by_cases here : added = name
        · subst here
          rw [new lookup]
          exact accepts
        · exact named (old here lookup)
      · intro name other pool lookup again
        have apart {former : Name} (different : added ≠ former)
            (named : state.next.world.runtimes.find? former = some state.world.pools.size) :
            False :=
          lt_of_acceptsJobs (housed.living former _ (old different named)) rfl
        by_cases here : added = name <;> by_cases there : added = other
        · exact here.symm.trans there
        · subst here
          exact (apart there (new lookup ▸ again)).elim
        · subst there
          exact (apart here (new again ▸ lookup)).elim
        · exact housed.distinct name other pool (old here lookup) (old there again)
      · intro pool dropping
        have had := sheds pool dropping
        refine ⟨named had, fun name lookup => ?_⟩
        by_cases here : added = name
        · subst here
          exact lt_of_acceptsJobs (housed.living _ pool had) (new lookup)
        · exact here (housed.distinct _ _ pool had (old here lookup))
  | @erased removed same sheds =>
      have old {name : Name} {pool : Nat}
          (lookup : state.next.world.runtimes.find? name = some pool) :
          removed ≠ name ∧ state.world.runtimes.find? name = some pool := by
        rw [same, Table.find?_erase] at lookup
        split at lookup
        · cases lookup
        · next different => exact ⟨different, lookup⟩
      refine ⟨fun name pool lookup => named (old lookup).2, ?_, ?_⟩
      · intro name other pool lookup again
        exact housed.distinct name other pool (old lookup).2 (old again).2
      · intro pool dropping
        have had := sheds pool dropping
        refine ⟨named had, fun name lookup => ?_⟩
        obtain ⟨different, lookup⟩ := old lookup
        exact different (housed.distinct _ _ pool had lookup)

end State

/-- In every run runtimes are kept apart. -/
theorem Passes.housed {past : List State} (passes : Passes past state) : state.Housed := by
  induction passes with
  | begin program =>
      refine ⟨?_, ?_, ?_⟩
      · intro name pool lookup
        cases lookup
      · intro name other pool lookup
        cases lookup
      · rintro pool (drops | ⟨_, placed⟩)
        · cases drops
        · cases placed
  | again program _ _ ih =>
      refine ⟨ih.living, ih.distinct, ?_⟩
      rintro pool (drops | ⟨_, placed⟩)
      · cases drops
      · cases placed
  | next passes ih => exact ih.next passes.reaches.tidy

end Stepwise
