import Stepwise.Proofs.Pools.Tidy
import Stepwise.Proofs.Return

/-!
# The runtime context of a thread

A call inside a runtime puts the context of its thread back when it returns, but not when a
panic leaves it.  As long as no panic has left such a call, the context is always the
runtime that was entered last, and that of a worker is its own pool.
-/

namespace Stepwise

variable {trace : List Occurrence} {past : List State} {state after : State} {world : World}
  {stack new below : Stack}

/-- The runtime that the current thread has entered last, if it is inside one. -/
def Stack.innermost : Stack → Option Nat
  | [] => none
  | .context _ pool :: _ => some pool
  | .blocking _ pool _ :: _ => some pool
  | .worker pool _ _ :: _ => some pool
  | .thread _ :: _ => none
  | _ :: rest => innermost rest

/-- Whoever waits to go back to a context goes back to the innermost runtime beneath. -/
def Stack.Nested : Stack → Prop
  | [] => True
  | .context saved _ :: rest => saved = innermost rest ∧ Nested rest
  | .blocking _ _ _ :: rest => innermost rest = none ∧ Nested rest
  | .worker _ _ saved :: rest => saved.context = innermost rest ∧ Nested rest
  | .thread saved :: rest => saved.context = innermost rest ∧ Nested rest
  | _ :: rest => Nested rest

/-- The context of every worker is its own pool. -/
def World.Staffed (world : World) : Prop :=
  ∀ pool found worker, world.pools.get? pool = some found → worker ∈ found.workers →
    worker.context = some pool

/-- A panic is about to leave a call inside a runtime. -/
def State.leaks (state : State) : Bool :=
  match state.control, state.stack with
  | .unwind _, .context _ _ :: _ => true
  | .unwind _, .blocking _ _ _ :: _ => true
  | _, _ => false

/-- The context is the innermost runtime, for the thread under way and all that wait, and
for every worker its own pool. -/
structure State.Contained (state : State) : Prop where
  context : state.world.thread.context = state.stack.innermost
  nested : state.stack.Nested
  workers : state.world.Staffed

namespace Stack

theorem innermost_cons_of_quiet {frame : Frame} (quiet : frame.isBorder = false) :
    innermost (frame :: stack) = innermost stack := by
  cases frame <;> first | rfl | cases quiet

theorem nested_cons_of_quiet {frame : Frame} (quiet : frame.isBorder = false) :
    Nested (frame :: stack) ↔ Nested stack := by
  cases frame <;> first | exact Iff.rfl | cases quiet

theorem innermost_append (all : new.all Frame.isQuiet = true) :
    innermost (new ++ stack) = innermost stack := by
  induction new with
  | nil => rfl
  | cons frame rest ih =>
      simp only [List.all_cons, Bool.and_eq_true] at all
      rw [List.cons_append, innermost_cons_of_quiet (Frame.isBorder_of_isQuiet all.1), ih all.2]

theorem nested_append (all : new.all Frame.isQuiet = true) :
    Nested (new ++ stack) ↔ Nested stack := by
  induction new with
  | nil => exact Iff.rfl
  | cons frame rest ih =>
      simp only [List.all_cons, Bool.and_eq_true] at all
      rw [List.cons_append, nested_cons_of_quiet (Frame.isBorder_of_isQuiet all.1), ih all.2]

end Stack

namespace World.Staffed

theorem of_pools {later : World} (staffed : world.Staffed) (same : later.pools = world.pools) :
    later.Staffed := by
  intro pool found worker lookup
  rw [same] at lookup
  exact staffed pool found worker lookup

/-- A pool changes, but none of its workers gets another context than its pool. -/
theorem modified {later : World} {pool : Nat} {change : Pool → Pool} (staffed : world.Staffed)
    (pools : later.pools = world.pools.modify pool change)
    (kept : ∀ found worker, (∀ worker ∈ found.workers, worker.context = some pool) →
      worker ∈ (change found).workers → worker.context = some pool) : later.Staffed := by
  intro other changed worker lookup member
  rw [pools, Store.get?_modify] at lookup
  split at lookup
  · next same =>
      subst same
      obtain ⟨found, was, rfl⟩ := Option.map_eq_some_iff.mp lookup
      exact kept found worker (fun worker member => staffed pool found worker was member) member
  · exact staffed other changed worker lookup member

/-- A pool changes, but not its workers. -/
theorem counted {later : World} {pool : Nat} {change : Pool → Pool} (staffed : world.Staffed)
    (pools : later.pools = world.pools.modify pool change)
    (kept : ∀ found, (change found).workers = found.workers) : later.Staffed := by
  refine staffed.modified pools fun found worker staffed member => staffed worker ?_
  rwa [← kept]

theorem opened (staffed : world.Staffed) (workers : Nat) (threadName : String) :
    { world with
      pools := world.pools.push (.fresh world.pools.size workers threadName) }.Staffed := by
  intro other found worker lookup member
  have present :
      (world.pools.push (.fresh world.pools.size workers threadName)).get? other = some found :=
    lookup
  rw [Store.get?_push] at present
  split at present
  · next same =>
      cases present
      simp only [Pool.fresh, List.mem_replicate] at member
      rw [member.2, same]
  · exact staffed other found worker present member

end World.Staffed

/-- A worker is changed, but given no other context than its pool. -/
theorem Pool.context_of_modifyWorker {found : Pool} {number pool : Nat}
    {change : Worker → Worker} {worker : Worker}
    (member : worker ∈ (found.modifyWorker number change).workers)
    (staffed : ∀ worker ∈ found.workers, worker.context = some pool)
    (kept : ∀ worker, worker.context = some pool → (change worker).context = some pool) :
    worker.context = some pool := by
  obtain ⟨index, bound, rfl⟩ := List.getElem_of_mem member
  simp only [modifyWorker, List.length_modify] at bound
  have original := staffed _ (List.getElem_mem bound)
  simp only [modifyWorker, List.getElem_modify]
  split
  · exact kept _ original
  · exact original

namespace State

/-- What is beneath is contained as well, unless a border is crossed. -/
theorem Contained.base (contained : state.Contained) (inside : state.crosses = false) :
    state.world.thread.context = state.base.innermost ∧ state.base.Nested := by
  obtain ⟨world, stack, control⟩ := state
  have whole := And.intro contained.context contained.nested
  cases control with
  | reply _ | unwind _ =>
      cases stack with
      | nil => exact whole
      | cons frame rest =>
          have quiet : frame.isBorder = false := inside
          rw [Stack.innermost_cons_of_quiet quiet, Stack.nested_cons_of_quiet quiet] at whole
          exact whole
  | _ => exact whole

/-- Quiet frames are stacked on what is contained. -/
theorem Contained.stacked (new : Stack) {control : Control} (all : new.all Frame.isQuiet = true)
    (context : world.thread.context = below.innermost) (nested : below.Nested)
    (workers : world.Staffed) : Contained ⟨world, new ++ below, control⟩ :=
  ⟨context.trans (Stack.innermost_append all).symm, (Stack.nested_append all).mpr nested, workers⟩

/-- What goes on quietly above what is contained is contained. -/
theorem Quiet.contained (quiet : State.Quiet world below after)
    (context : world.thread.context = below.innermost) (nested : below.Nested)
    (workers : world.Staffed) : after.Contained := by
  obtain ⟨later, placed, control⟩ := after
  obtain ⟨changed, ⟨new, rfl, all⟩, -⟩ := quiet
  refine .stacked _ all ?_ nested (workers.of_pools changed.pools)
  rw [changed.thread, context]

/-- A small step that stirs keeps contexts in place, if no panic leaves a runtime by it. -/
theorem Stirs.contained (stirs : Stirs state after) (contained : state.Contained)
    (holds : state.leaks = false) : after.Contained := by
  cases stirs with
  | @queued state later pool job new reply inside quiet _ _ all _ =>
      obtain ⟨context, nested⟩ := contained.base inside
      refine .stacked _ all ?_ nested ?_
      · rw [← context, ← quiet.thread]
        rfl
      · exact (contained.workers.of_pools quiet.pools).counted rfl fun _ => rfl
  | @published world stack deferred outcome found record _ =>
      exact .stacked [.firing deferred found.continuations] rfl contained.context
        contained.nested (contained.workers.of_pools rfl)
  | @closed world later stack pool found _ _ quiet =>
      refine .stacked [.disposing (found.jobs.map .continuation),
        .recording .runtimeShutDown] ?_ ?_ contained.nested ?_
      · simp [Frame.isQuiet, Frame.isTidy, Frame.isBorder, Owned.isBare]
      · rw [quiet.thread]
        exact contained.context
      · refine contained.workers.modified quiet.pools ?_
        intro found worker staffed member
        obtain ⟨old, was, rfl⟩ := List.mem_map.mp member
        exact staffed old was
  | @overwrote world later stack rest receipt name raw other _ quiet =>
      refine ⟨?_, contained.nested, contained.workers.of_pools quiet.pools⟩
      rw [quiet.thread]
      exact contained.context
  | @opened world later stack rest name workers threadName _ quiet =>
      refine ⟨?_, contained.nested,
        (contained.workers.opened workers threadName).of_pools quiet.pools⟩
      rw [quiet.thread]
      exact contained.context
  | @reopened world later stack rest name workers other threadName _ quiet =>
      refine ⟨?_, contained.nested,
        (contained.workers.opened workers threadName).of_pools quiet.pools⟩
      rw [quiet.thread]
      exact contained.context
  | dropped _ _ => exact ⟨contained.context, contained.nested, contained.workers⟩
  | shed => exact ⟨contained.context, contained.nested, contained.workers⟩
  | @entered world stack rest name body pool _ =>
      exact ⟨rfl, ⟨contained.context, contained.nested⟩,
        contained.workers.counted rfl fun _ => rfl⟩
  | @ran world later stack rest name threadName machine pool number deferred _ quiet =>
      refine ⟨?_, ⟨rfl, contained.context, contained.nested⟩, ?_⟩
      · rw [quiet.thread]
        rfl
      · exact contained.workers.counted quiet.pools fun _ => rfl
  | threaded => exact ⟨rfl, ⟨contained.context, contained.nested⟩, contained.workers⟩
  | @took world stack rest name pool number found job jobs lookup _ idle =>
      refine ⟨?_, ⟨contained.context, contained.nested⟩, ?_⟩
      · -- An idle worker is one of the pool's.
        obtain ⟨bound, -⟩ := List.findIdx?_eq_some_iff_getElem.mp idle
        have present : found.workers[number]? = some found.workers[number] :=
          List.getElem?_eq_getElem bound
        simp only [Stack.innermost, present, Option.bind_some]
        exact contained.workers pool found _ lookup (List.getElem_mem bound)
      · refine contained.workers.modified rfl ?_
        intro found worker staffed member
        exact Pool.context_of_modifyWorker member staffed fun _ same => same
  | @crossed world stack frame reply after border quiet =>
      have nested := contained.nested
      cases frame with
      | context saved pool =>
          exact quiet.contained nested.1 nested.2 (contained.workers.counted rfl fun _ => rfl)
      | blocking machine pool deferred =>
          exact quiet.contained nested.1.symm nested.2
            (contained.workers.counted rfl fun _ => rfl)
      | thread saved => exact quiet.contained nested.1 nested.2 contained.workers
      | worker pool number saved =>
          refine quiet.contained nested.1 nested.2 ?_
          refine contained.workers.modified rfl ?_
          intro found worker staffed member
          exact Pool.context_of_modifyWorker member staffed fun _ _ => contained.context
      | _ => cases border
  | @broke world stack frame payload after border quiet =>
      have nested := contained.nested
      cases frame with
      | context saved pool => cases holds
      | blocking machine pool deferred => cases holds
      | thread saved => exact quiet.contained nested.1 nested.2 contained.workers
      | worker pool number saved =>
          refine quiet.contained nested.1 nested.2 ?_
          refine contained.workers.modified rfl ?_
          intro found worker staffed member
          exact Pool.context_of_modifyWorker member staffed fun _ same => same
      | _ => cases border

theorem Contained.next (contained : state.Contained) (tidy : state.Tidy)
    (holds : state.leaks = false) : state.next.Contained := by
  rcases next_cases tidy with ⟨inside, quiet⟩ | stirs
  · obtain ⟨context, nested⟩ := contained.base inside
    exact quiet.contained context nested contained.workers
  · exact stirs.contained contained holds

end State

/-- As long as no panic has left a call inside a runtime, contexts are in place. -/
theorem Passes.contained (passes : Passes past state)
    (holds : ∀ visited ∈ past, visited.leaks = false) : state.Contained := by
  induction passes with
  | begin program =>
      refine ⟨rfl, trivial, ?_⟩
      intro pool found worker lookup
      simp [State.ofProgram, World.initial] at lookup
  | again program _ ended ih =>
      have contained := ih holds
      have context := contained.context
      rw [ended.1] at context
      exact ⟨context, trivial, contained.workers⟩
  | next passes ih =>
      have earlier := ih fun visited member => holds visited (List.mem_append_left _ member)
      exact earlier.next passes.reaches.tidy (holds _ (by simp))

/-! ## Calls that come back -/

/-- The context that whoever is beneath a frame goes back to when it gets its reply. -/
def Frame.restores : Frame → Option (Option Nat)
  | .context saved _ => some saved
  | .thread saved => some saved.context
  | .worker _ _ saved => some saved.context
  | _ => none

/-- Whether a request runs code inside a runtime, or on another thread. -/
def Request.switches : Request → Bool
  | .enter _ _ => true
  | .run _ _ _ => true
  | .thread _ _ => true
  | .work _ => true
  | _ => false

namespace State

/-- A call that returns through a frame goes back to its context. -/
theorem Returns.restored {above : Stack} {frame : Frame} {count : Nat} {context : Option Nat}
    (returns : state.Returns below count) (reaches : Reaches trace state)
    (placed : state.stack = above ++ frame :: below)
    (restores : frame.restores = some context) :
    (state.walk count).2.world.thread.context = context := by
  obtain ⟨fewer, bound, top, delivered⟩ := returns.delivers reaches placed
  have last := returns.last bound
  obtain ⟨reply, replies⟩ := returns.replies
  generalize (state.walk fewer).2 = before at top delivered last
  obtain ⟨world, stack, control⟩ := before
  subst top
  rcases delivered with ⟨answer, rfl⟩ | ⟨payload, rfl⟩
  · cases frame with
    | context _ _ | thread _ | worker _ _ _ =>
        cases restores
        rw [last rfl]
        rfl
    | _ => cases restores
  · cases frame with
    | context saved pool =>
        rw [last rfl] at replies
        cases replies
    | thread _ | worker _ _ _ =>
        cases restores
        rw [last rfl]
        rfl
    | _ => cases restores

/-- What a request of this kind stacks, it stacks on a frame that restores the context; or it
has replied at once, and has left threads alone. -/
theorem switches_cases {request : Request} {rest : Reply → Program}
    (switches : request.switches = true) :
    (∃ above frame, frame.restores = some world.thread.context ∧
      (requesting world (.program rest :: stack) request).stack =
        above ++ frame :: .program rest :: stack) ∨
    ((requesting world (.program rest :: stack) request).stack = .program rest :: stack ∧
      (requesting world (.program rest :: stack) request).world = world) := by
  cases request with
  | enter name body =>
      simp only [requesting, withNamed]
      split
      · exact .inr ⟨rfl, rfl⟩
      · next pool _ => exact .inl ⟨[], .context world.thread.context pool, rfl, rfl⟩
  | run threadName name machine =>
      simp only [requesting, withNamed]
      split
      · exact .inr ⟨rfl, rfl⟩
      · next pool _ =>
          exact .inl ⟨[.blocking world.activations.size pool world.deferreds.size],
            .thread world.thread, rfl, rfl⟩
  | thread name body => exact .inl ⟨[], .thread world.thread, rfl, rfl⟩
  | work name =>
      simp only [requesting, withNamed, working]
      split
      · exact .inr ⟨rfl, rfl⟩
      · next pool _ =>
          split
          · exact .inr ⟨rfl, rfl⟩
          · split
            · next number _ _ => exact .inl ⟨[], .worker pool number world.thread, rfl, rfl⟩
            · exact .inr ⟨rfl, rfl⟩
  | _ => cases switches

/-- A call inside a runtime, or on another thread, that returns leaves the context of its
thread as it was. -/
theorem context_of_returns {request : Request} {rest : Reply → Program} {count : Nat}
    (reaches : Reaches trace state) (asks : state.control = .program (.call request rest))
    (switches : request.switches = true)
    (returns : state.next.Returns (.program rest :: state.stack) count) :
    (state.next.walk count).2.world.thread.context = state.world.thread.context := by
  have goes : state.next = requesting state.world (.program rest :: state.stack) request := by
    simp only [next, asks]
  rcases @switches_cases state.world state.stack request rest switches with
    ⟨above, frame, restores, placed⟩ | ⟨placed, same⟩
  · rw [← goes] at placed
    exact returns.restored reaches.next placed restores
  · rw [← goes] at placed same
    cases count with
    | zero => exact congrArg (·.thread.context) same
    | succ count =>
        have inside := returns.inside _ (List.mem_cons_self ..)
        rw [placed] at inside
        omega

end State

/-- Context discipline.  A call inside a runtime, or on another thread, that returns leaves the
context of its thread as it was.  As long as no panic has left a call inside a runtime, the
context is the runtime entered last, and a worker that runs a job sees its own pool; so free
dispatch outside every runtime panics, and inside it goes to the innermost.  A panic that
leaves such a call leaves its runtime behind as the context of the thread. -/
theorem context_discipline (passes : Passes past state) :
    (∀ request rest count, state.control = .program (.call request rest) →
      request.switches = true →
        state.next.Returns (.program rest :: state.stack) count →
          (state.next.walk count).2.world.thread.context = state.world.thread.context) ∧
    ((∀ visited ∈ past, visited.leaks = false) →
      state.world.thread.context = state.stack.innermost ∧ state.stack.Nested ∧
        state.world.Staffed ∧
      (∀ receipt raw infallible work rest,
        state.control =
          .program (.call (.dispatch receipt raw infallible .context work) rest) →
        state.next = match state.stack.innermost with
          | none =>
              .panicking state.world (.program rest :: state.stack)
                (State.outsideRuntime infallible)
          | some pool =>
              .requesting state.world (.program rest :: state.stack)
                (.dispatch receipt raw infallible (.pool pool) work)) ∧
      (state.leaks = true → state.stack.innermost.isSome = true ∧
        state.next.world.thread.context = state.stack.innermost)) := by
  refine ⟨fun request rest count asks switches returns =>
    State.context_of_returns passes.reaches asks switches returns, ?_⟩
  intro holds
  have contained := passes.contained holds
  refine ⟨contained.context, contained.nested, contained.workers, ?_, ?_⟩
  · intro receipt raw infallible work rest asks
    simp only [State.next, asks, State.requesting, State.dispatching, contained.context]
    cases state.stack.innermost <;> rfl
  · intro leaks
    have context := contained.context
    obtain ⟨world, stack, control⟩ := state
    cases control with
    | unwind payload =>
        cases stack with
        | nil => cases leaks
        | cons frame rest =>
            cases frame with
            | context _ _ | blocking _ _ _ => exact ⟨rfl, context⟩
            | _ => cases leaks
    | _ => cases leaks

/-- Enter one runtime inside another, and dispatch freely inside and between. -/
def Program.nesting : Program :=
  .call (.newRuntime (.shared "outer") 1 "outer") fun _ =>
    .call (.newRuntime (.shared "inner") 1 "inner") fun _ =>
      .call (.enter (.shared "outer")
        (.call (.enter (.shared "inner")
          (.call (.dispatch (.shared "first") false false .context (.ret .done)) .ret)) fun _ =>
            .call (.dispatch (.shared "second") false false .context (.ret .done)) .ret)) .ret

/-- A panic leaves a runtime and is caught outside. -/
def Program.escaping : Program :=
  .call (.newRuntime (.shared "runtime") 1 "worker") fun _ =>
    .call (.attempt (.call (.enter (.shared "runtime") (.panic (.text "boom"))) .ret)) .ret

/-- The inner of two nested calls goes back to the outer runtime, where free dispatch then
goes; and the panic leaves its runtime behind. -/
theorem context_discipline_nesting :
    ((State.ofProgram .initial .nesting).walk 12).2.world.thread.context = some 0 ∧
    (∃ rest, ((State.ofProgram .initial .nesting).walk 13).2.next =
      .requesting ((State.ofProgram .initial .nesting).walk 13).2.world
        (.program rest :: ((State.ofProgram .initial .nesting).walk 13).2.stack)
        (.dispatch (.shared "second") false false (.pool 0) (.ret .done))) ∧
    ((State.ofProgram .initial .escaping).walk 6).2.world.thread.context = some 0 := by
  have nested := Passes.begin .nesting
  have escaped := Passes.begin .escaping
  refine ⟨?_, ?_, ?_⟩
  · refine ((context_discipline (nested.walk 5)).1 _ _ 6 rfl rfl ⟨⟨?_, rfl⟩, _, rfl⟩).trans rfl
    simp only [State.visits, List.forall_mem_cons]
    decide
  · have holds : ∀ visited ∈ (State.ofProgram .initial .nesting).visits 13,
        visited.leaks = false := by
      simp only [State.visits, List.forall_mem_cons]
      decide
    exact ⟨_, ((context_discipline (nested.walk 13)).2 holds).2.2.2.1 _ _ _ _ _ rfl⟩
  · have holds : ∀ visited ∈ (State.ofProgram .initial .escaping).visits 5,
        visited.leaks = false := by
      simp only [State.visits, List.forall_mem_cons]
      decide
    exact (((context_discipline (escaped.walk 5)).2 holds).2.2.2.2 rfl).2

/-- Not every call inside a runtime leaves the context of its thread as it was: after one that
a panic has left, the context is still its runtime. -/
theorem context_discipline_broken :
    ¬ ∀ trace state name body rest count, Reaches trace state →
      state.control = .program (.call (.enter name body) rest) →
      state.next.Leaves (.program rest :: state.stack) count →
        (state.next.walk count).2.world.thread.context = state.world.thread.context := by
  intro restores
  have same := restores _ _ _ _ _ 2 ((Reaches.begin .escaping).walk 3) rfl
    ⟨by simp only [State.visits, List.forall_mem_cons]; decide, rfl⟩
  cases same

end Stepwise
