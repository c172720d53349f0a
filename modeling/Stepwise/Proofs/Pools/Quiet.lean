import Stepwise.Proofs.Custody.Tasks
import Stepwise.Proofs.Pools.Dispatch

/-!
# Quiet small steps

Most small steps leave threads, pools and runtimes alone.  They neither begin nor leave a
thread or a call inside a runtime, drop no runtime, and take no continuation off the
deferred it is registered on.
-/

namespace Stepwise

/-- Whether something dropped is a writer or a runtime in its own right. -/
def Owned.isBare : Owned → Bool
  | .writer _ => true
  | .runtime _ => true
  | _ => false

/-- Whether a thread, or a call inside a runtime, begins at a frame. -/
def Frame.isBorder : Frame → Bool
  | .context _ _ => true
  | .blocking _ _ _ => true
  | .thread _ => true
  | .worker _ _ _ => true
  | _ => false

/-- Whether a frame drops neither a writer nor a runtime in its own right. -/
def Frame.isTidy : Frame → Bool
  | .disposing rest => !rest.any Owned.isBare
  | .unwinding rest _ => !rest.any Owned.isBare
  | _ => true

/-- Whether a frame is tidy, and no border. -/
def Frame.isQuiet (frame : Frame) : Bool := frame.isTidy && !frame.isBorder

/-- Whether control is not about to drop a runtime. -/
def Control.isQuiet : Control → Bool
  | .task (.discard (.runtime _)) => false
  | _ => true

/-- A machine with a scheduler is suspended on a deferred. -/
def World.Suspended (world : World) (machine : Nat) (scheduler : Scheduler) (deferred : Nat) :
    Prop :=
  ∃ found, world.activations.get? machine = some found ∧ found.status = .idle ∧
    found.scheduler = scheduler ∧ found.pending = some deferred

/-- The world after a change that completes no deferred, takes no continuation off the
deferred it is registered on, and suspends machines only on what is not complete. -/
structure World.Keeps (world later : World) : Prop where
  registered : ∀ deferred continuation,
    world.ledger.Holds (.registered deferred) continuation →
      later.ledger.Holds (.registered deferred) continuation
  completes : ∀ deferred, later.ledger.Completed deferred → world.ledger.Completed deferred
  suspends : ∀ machine scheduler deferred, later.Suspended machine scheduler deferred →
    world.Suspended machine scheduler deferred ∨ ¬ later.ledger.Completed deferred

/-- The world after a change that leaves threads, pools and runtimes alone as well. -/
structure World.Quiet (world later : World) : Prop extends World.Keeps world later where
  thread : later.thread = world.thread
  pools : later.pools = world.pools
  runtimes : later.runtimes = world.runtimes

/-- A small step that goes on quietly above the frames it leaves alone. -/
structure State.Quiet (world : World) (base : Stack) (after : State) : Prop where
  world : world.Quiet after.world
  stack : ∃ new, after.stack = new ++ base ∧ new.all Frame.isQuiet = true
  control : after.control.isQuiet = true

@[simp] theorem Owned.any_isBare_map_continuation (continuations : List Continuation) :
    (continuations.map Owned.continuation).any Owned.isBare = false := by
  simp [Owned.isBare]

namespace World.Keeps

variable {world middle later : World}

theorem refl (world : World) : world.Keeps world :=
  ⟨fun _ _ holds => holds, fun _ completed => completed, fun _ _ _ suspended => .inl suspended⟩

theorem trans (first : world.Keeps middle) (second : middle.Keeps later) :
    world.Keeps later where
  registered := fun deferred continuation holds =>
    second.registered deferred continuation (first.registered deferred continuation holds)
  completes := fun deferred completed =>
    first.completes deferred (second.completes deferred completed)
  suspends := by
    intro machine scheduler deferred suspended
    rcases second.suspends machine scheduler deferred suspended with before | pending
    · rcases first.suspends machine scheduler deferred before with before | pending
      · exact .inl before
      · exact .inr fun completed => pending (second.completes deferred completed)
    · exact .inr pending

/-- Neither deferreds nor machines are touched. -/
theorem same (deferreds : later.deferreds = world.deferreds)
    (activations : later.activations = world.activations) : world.Keeps later where
  registered := by
    rintro deferred continuation ⟨found, lookup, member⟩
    have present : world.deferreds.get? deferred = some found := lookup
    exact ⟨found, by simpa [World.ledger, deferreds] using present, member⟩
  completes := by
    rintro deferred ⟨found, lookup, complete⟩
    have present : later.deferreds.get? deferred = some found := lookup
    exact ⟨found, by simpa [World.ledger, deferreds] using present, complete⟩
  suspends := by
    rintro machine scheduler deferred ⟨found, lookup, suspended⟩
    exact .inl ⟨found, by rwa [← activations], suspended⟩

end World.Keeps

namespace World.Quiet

variable {world middle later : World}

theorem refl (world : World) : world.Quiet world := ⟨.refl world, rfl, rfl, rfl⟩

theorem trans (first : world.Quiet middle) (second : middle.Quiet later) :
    world.Quiet later where
  toKeeps := first.toKeeps.trans second.toKeeps
  thread := second.thread.trans first.thread
  pools := second.pools.trans first.pools
  runtimes := second.runtimes.trans first.runtimes

/-- Neither threads, nor pools, nor runtimes, nor deferreds, nor machines are touched. -/
theorem same (thread : later.thread = world.thread) (pools : later.pools = world.pools)
    (runtimes : later.runtimes = world.runtimes)
    (deferreds : later.deferreds = world.deferreds)
    (activations : later.activations = world.activations) : world.Quiet later :=
  ⟨.same deferreds activations, thread, pools, runtimes⟩

/-- A deferred changes; it keeps what is registered on it, and is not completed. -/
theorem modifyDeferred (deferred : Nat) {change : Deferred → Deferred}
    (kept : ∀ found continuation, continuation ∈ found.continuations →
      continuation ∈ (change found).continuations)
    (completes : ∀ found, (change found).isComplete = true → found.isComplete = true) :
    world.Quiet (world.modifyDeferred deferred change) where
  thread := rfl
  pools := rfl
  runtimes := rfl
  registered := by
    rintro other continuation ⟨found, lookup, member⟩
    have present : world.deferreds.get? other = some found := lookup
    by_cases same : deferred = other
    · refine ⟨change found, ?_, kept found continuation member⟩
      simp [World.ledger, World.modifyDeferred, same, present]
    · refine ⟨found, ?_, member⟩
      simp [World.ledger, World.modifyDeferred, same, present]
  completes := by
    rintro other ⟨changed, lookup, complete⟩
    have present : (world.deferreds.modify deferred change).get? other = some changed := lookup
    rw [Store.get?_modify] at present
    split at present
    · obtain ⟨found, was, rfl⟩ := Option.map_eq_some_iff.mp present
      exact ⟨found, was, completes found complete⟩
    · exact ⟨changed, present, complete⟩
  suspends := fun _ _ _ suspended => .inl suspended

theorem newDeferred (world : World) : world.Quiet world.newDeferred.1 where
  thread := rfl
  pools := rfl
  runtimes := rfl
  registered := by
    rintro other continuation ⟨found, lookup, member⟩
    have present : world.deferreds.get? other = some found := lookup
    have older : other ≠ world.deferreds.size := by
      rintro rfl
      simp [Store.get?, Store.size] at present
    exact ⟨found, by simp [World.ledger, World.newDeferred, older, present], member⟩
  completes := by
    rintro other ⟨found, lookup, complete⟩
    have present : (world.deferreds.push .fresh).get? other = some found := lookup
    rw [Store.get?_push] at present
    split at present
    · cases present
      cases complete
    · exact ⟨found, present, complete⟩
  suspends := fun _ _ _ suspended => .inl suspended

theorem retrieve (deferred : Nat) : world.Quiet (world.retrieve deferred).1 := by
  unfold World.retrieve
  split
  · exact .refl world
  · refine .modifyDeferred deferred ?_ ?_
    · intro found continuation member
      unfold Deferred.afterRetrieval
      split <;> exact member
    · intro found complete
      unfold Deferred.afterRetrieval at complete
      split at complete
      · next outcome progress => simp [Deferred.isComplete, progress]
      · exact complete

/-- A machine changes, and is not suspended. -/
theorem modifyActivation (machine : Nat) {change : Activation → Activation}
    (kept : ∀ found, (change found).status = .idle →
      found.status = .idle ∧ (change found).scheduler = found.scheduler ∧
        (change found).pending = found.pending) :
    world.Quiet (world.modifyActivation machine change) where
  thread := rfl
  pools := rfl
  runtimes := rfl
  registered := fun _ _ holds => holds
  completes := fun _ completed => completed
  suspends := by
    rintro other _ deferred ⟨changed, lookup, idle, rfl, pending⟩
    have present : (world.activations.modify machine change).get? other = some changed := lookup
    rw [Store.get?_modify] at present
    left
    split at present
    · obtain ⟨found, was, rfl⟩ := Option.map_eq_some_iff.mp present
      obtain ⟨suspended, scheduler, same⟩ := kept found idle
      exact ⟨found, was, suspended, scheduler.symm, same ▸ pending⟩
    · exact ⟨changed, present, idle, rfl, pending⟩

/-- A machine is suspended on a deferred that is not complete. -/
theorem suspend (machine : Nat) {deferred : Nat}
    (incomplete : world.isComplete deferred = false) :
    world.Quiet (world.modifyActivation machine (·.suspend deferred)) where
  thread := rfl
  pools := rfl
  runtimes := rfl
  registered := fun _ _ holds => holds
  completes := fun _ completed => completed
  suspends := by
    rintro other scheduler awaited ⟨changed, lookup, idle, same, pending⟩
    have present :
        (world.activations.modify machine (·.suspend deferred)).get? other = some changed :=
      lookup
    rw [Store.get?_modify] at present
    split at present
    · right
      obtain ⟨found, -, rfl⟩ := Option.map_eq_some_iff.mp present
      cases pending
      intro completed
      have whole : world.ledger.Completed deferred := completed
      have complete : world.isComplete deferred = true := State.isComplete_of_completed whole
      rw [incomplete] at complete
      cases complete
    · exact .inl ⟨changed, present, idle, same, pending⟩

theorem newActivation (body : Body) (scheduler : Scheduler) (observer : Observer) :
    world.Quiet (world.newActivation body scheduler observer).1 where
  thread := rfl
  pools := rfl
  runtimes := rfl
  registered := fun _ _ holds => holds
  completes := fun _ completed => completed
  suspends := by
    rintro other _ deferred ⟨changed, lookup, idle, same, pending⟩
    have present :
        (world.activations.push (.fresh body scheduler observer)).get? other = some changed :=
      lookup
    rw [Store.get?_push] at present
    split at present
    · cases present
      cases pending
    · exact .inl ⟨changed, present, idle, same, pending⟩

theorem modifyBody (place : Place) (change : Body → Body) :
    world.Quiet (world.modifyBody place change) := by
  cases place with
  | started machine => exact .modifyActivation machine fun _ idle => ⟨idle, rfl, rfl⟩
  | kept number => exact .same rfl rfl rfl rfl rfl

end World.Quiet

namespace State

variable {world later : World} {stack : Stack}

theorem replying_quiet {reply : Reply} (quiet : world.Quiet later) :
    State.Quiet world stack (.replying later stack reply) :=
  ⟨quiet, ⟨[], rfl, rfl⟩, rfl⟩

theorem refusing_quiet {refusal : Refusal} :
    State.Quiet world stack (.refusing world stack refusal) :=
  replying_quiet (.refl world)

/-- What is quiet above quiet frames is quiet beneath them. -/
theorem Quiet.above (new : Stack) {after : State} (all : new.all Frame.isQuiet = true)
    (quiet : State.Quiet world (new ++ stack) after) : State.Quiet world stack after := by
  obtain ⟨changed, ⟨more, placed, allMore⟩, control⟩ := quiet
  refine ⟨changed, ⟨more ++ new, ?_, ?_⟩, control⟩
  · rw [placed, List.append_assoc]
  · rw [List.all_append, allMore, all, Bool.and_self]

/-- What is quiet after a quiet change is quiet. -/
theorem Quiet.beyond {after : State} (first : world.Quiet later)
    (quiet : State.Quiet later stack after) : State.Quiet world stack after :=
  ⟨first.trans quiet.world, quiet.stack, quiet.control⟩

theorem recorded_quiet {record : Record} (quiet : world.Quiet later) :
    world.Quiet (later.record record) :=
  quiet.trans (.same rfl rfl rfl rfl rfl)

theorem disposing_quiet {displaced : List Owned} {reply : Reply}
    (tidy : displaced.any Owned.isBare = false) (quiet : world.Quiet later) :
    State.Quiet world stack (.disposing later stack displaced reply) := by
  cases displaced with
  | nil => exact replying_quiet quiet
  | cons first rest =>
      refine ⟨quiet, ⟨[.disposing (first :: rest), .answering reply], rfl, ?_⟩, rfl⟩
      simp [Frame.isQuiet, Frame.isTidy, Frame.isBorder, tidy]

theorem dropping_quiet {owned : List Owned} {payload : Payload}
    (tidy : owned.any Owned.isBare = false) (quiet : world.Quiet later) :
    State.Quiet world stack (.dropping later stack owned payload) := by
  cases owned with
  | nil => exact ⟨quiet, ⟨[], rfl, rfl⟩, rfl⟩
  | cons first rest =>
      refine ⟨quiet, ⟨[.unwinding (first :: rest) payload], rfl, ?_⟩, rfl⟩
      simp [Frame.isQuiet, Frame.isTidy, Frame.isBorder, tidy]

theorem performing_quiet {task : Task} {reply : Reply} (quiet : world.Quiet later)
    (mild : (Control.task task).isQuiet = true) :
    State.Quiet world stack (.performing later stack task reply) :=
  ⟨quiet, ⟨[.answering reply], rfl, rfl⟩, mild⟩

/-! ## Tasks -/

theorem violating_quiet {machine : Nat} {error : Error} (quiet : world.Quiet later) :
    State.Quiet world stack (violating later stack machine error) :=
  dropping_quiet rfl (recorded_quiet quiet)

theorem registering_quiet {deferred : Nat} {continuation : Continuation}
    (quiet : world.Quiet later) :
    State.Quiet world stack (registering later stack deferred continuation) := by
  unfold registering
  split
  · exact ⟨quiet, ⟨[], rfl, rfl⟩, rfl⟩
  · refine replying_quiet (quiet.trans (.modifyDeferred deferred ?_ ?_))
    · exact fun found other member => List.mem_append_left _ member
    · exact fun found complete => complete

theorem awakening_quiet {deferred : Nat} :
    State.Quiet world stack (awakening world stack deferred) := by
  unfold awakening
  split
  · exact replying_quiet (.refl world)
  · split
    · exact ⟨.refl world, ⟨[], rfl, rfl⟩, rfl⟩
    · exact ⟨.refl world, ⟨[], rfl, rfl⟩, rfl⟩
    · exact replying_quiet (.refl world)
    · exact ⟨.modifyDeferred deferred (fun _ _ member => member) fun _ complete => complete,
        ⟨[.waking deferred (!stack.isPanicking)], rfl, rfl⟩, rfl⟩

theorem advancing_quiet {machine : Nat} :
    State.Quiet world stack (advancing world stack machine) := by
  unfold advancing
  split
  · exact replying_quiet (.refl world)
  · split
    · exact ⟨.refl world, ⟨[], rfl, rfl⟩, rfl⟩
    · exact ⟨.same rfl rfl rfl rfl rfl, ⟨[.stepping machine], rfl, rfl⟩, rfl⟩

theorem resuming_quiet {machine : Nat} :
    State.Quiet world stack (resuming world stack machine) := by
  unfold resuming
  split
  · exact replying_quiet (.refl world)
  · have claimed : world.Quiet (world.modifyActivation machine fun activation =>
        { activation with status := .running, pending := none }) :=
      .modifyActivation machine fun _ idle => by cases idle
    split
    · exact ⟨recorded_quiet (.refl world), ⟨[], rfl, rfl⟩, rfl⟩
    · exact violating_quiet (.refl world)
    · simp only
      split
      · exact ⟨claimed, ⟨[], rfl, rfl⟩, rfl⟩
      · split
        · exact ⟨recorded_quiet claimed, ⟨[], rfl, rfl⟩, rfl⟩
        · exact violating_quiet claimed

theorem finishing_quiet {machine : Nat} {outcome : Outcome} :
    State.Quiet world stack (finishing world stack machine outcome) := by
  unfold finishing
  split
  · exact replying_quiet (.refl world)
  · have finished : world.Quiet (world.modifyActivation machine (·.finish)) :=
      .modifyActivation machine fun _ idle => by cases idle
    cases outcome
    all_goals
      simp only
      split
      · exact ⟨recorded_quiet finished, ⟨[], rfl, rfl⟩, rfl⟩
      · exact ⟨recorded_quiet finished, ⟨[.releasing machine], rfl, rfl⟩, rfl⟩
      · exact ⟨recorded_quiet finished, ⟨[.releasing machine], rfl, rfl⟩, rfl⟩

theorem abandoning_quiet {machine : Nat} :
    State.Quiet world stack (abandoning world stack machine) := by
  unfold abandoning
  split
  · exact replying_quiet (.refl world)
  · split
    · have claimed : world.Quiet (world.modifyActivation machine fun activation =>
          { activation with status := .running }) :=
        .modifyActivation machine fun _ idle => by cases idle
      exact ⟨recorded_quiet claimed, ⟨[], rfl, rfl⟩, rfl⟩
    · exact ⟨.refl world, ⟨[], rfl, rfl⟩, rfl⟩

theorem runningContinuation_quiet {continuation : Continuation} :
    State.Quiet world stack (runningContinuation world stack continuation) := by
  cases continuation with
  | job deferred work => exact ⟨.refl world, ⟨[.working deferred], rfl, rfl⟩, rfl⟩
  | signal waiter => exact replying_quiet (.same rfl rfl rfl rfl rfl)
  | _ => exact ⟨.refl world, ⟨[], rfl, rfl⟩, rfl⟩

theorem releasingShare_quiet {machine : Nat} :
    State.Quiet world stack (releasingShare world stack machine) := by
  unfold releasingShare
  split
  · exact replying_quiet (.refl world)
  · have released : world.Quiet (world.modifyActivation machine fun activation =>
        { activation with owners := activation.owners - 1 }) :=
      .modifyActivation machine fun _ idle => ⟨idle, rfl, rfl⟩
    simp only
    split
    · have emptied : world.Quiet
          ((world.modifyActivation machine fun activation =>
            { activation with owners := activation.owners - 1 }).modifyActivation machine
              fun activation => { activation with observer := none }) :=
        released.trans (.modifyActivation machine fun _ idle => ⟨idle, rfl, rfl⟩)
      split
      · exact ⟨emptied, ⟨[], rfl, rfl⟩, rfl⟩
      · exact replying_quiet emptied
    · exact replying_quiet released

/-- To drop anything but a runtime is quiet. -/
theorem discarding_quiet {owned : Owned} (other : ∀ pool, owned ≠ .runtime pool) :
    State.Quiet world stack (discarding world stack owned) := by
  cases owned with
  | continuation dropped =>
      cases dropped with
      | callback _ => exact replying_quiet (.refl world)
      | handOver _ machine => exact abandoning_quiet
      | resumption machine => exact abandoning_quiet
      | job deferred _ => exact ⟨.refl world, ⟨[], rfl, rfl⟩, rfl⟩
      | signal waiter => exact replying_quiet (.same rfl rfl rfl rfl rfl)
  | writer deferred => exact ⟨.same rfl rfl rfl rfl rfl, ⟨[], rfl, rfl⟩, rfl⟩
  | activation machine => exact releasingShare_quiet
  | loop loop => exact ⟨.refl world, ⟨[.closing loop 0], rfl, rfl⟩, rfl⟩
  | runtime pool => exact absurd rfl (other pool)

/-- To hand a continuation to a scheduler is quiet, unless a pool accepts it. -/
theorem scheduling_quiet {scheduler : Scheduler} {continuation : Continuation}
    (refused : ∀ pool, scheduler = .pool pool → world.acceptsJobs pool = false) :
    State.Quiet world stack (scheduling world stack scheduler continuation) := by
  unfold scheduling
  split
  · exact ⟨.refl world, ⟨[], rfl, rfl⟩, rfl⟩
  · next pool =>
      rw [if_neg (by simp [refused pool rfl])]
      exact ⟨.same rfl rfl rfl rfl rfl, ⟨[], rfl, rfl⟩, rfl⟩
  · split
    · exact replying_quiet (.same rfl rfl rfl rfl rfl)
    · exact ⟨.refl world, ⟨[.recording .loopGone], rfl, rfl⟩, rfl⟩
  · split
    · exact replying_quiet (.same rfl rfl rfl rfl rfl)
    · exact ⟨.refl world, ⟨[], rfl, rfl⟩, rfl⟩
  · exact ⟨.refl world, ⟨[], rfl, rfl⟩, rfl⟩

/-! ## Replies and panics -/

theorem isBare_restoreLoop (world : World) (name : Name) (loop : Nat) :
    (world.restoreLoop name loop).2.any Owned.isBare = false := by
  unfold World.restoreLoop
  cases world.ownedLoops.find? name <;> rfl

theorem parking_quiet {name : Name} {loop : Nat} {reply : Reply} :
    State.Quiet world stack (parking world stack name loop reply) :=
  disposing_quiet (isBare_restoreLoop world name loop) (.same rfl rfl rfl rfl rfl)

theorem parkingUnwound_quiet {name : Name} {loop : Nat} {payload : Payload} :
    State.Quiet world stack (parkingUnwound world stack name loop payload) :=
  dropping_quiet (isBare_restoreLoop world name loop) (.same rfl rfl rfl rfl rfl)

theorem deciding_quiet {drive : Drive} {last : Bool} :
    State.Quiet world stack (deciding world stack drive last) :=
  ⟨.refl world, ⟨[.deciding { drive with calls := drive.calls + 1 } last], rfl, rfl⟩, rfl⟩

theorem pumping_quiet {drive : Drive} :
    State.Quiet world stack (pumping world stack drive) := by
  unfold pumping
  split
  · exact deciding_quiet
  · exact ⟨.same rfl rfl rfl rfl rfl,
      ⟨[.pumping { drive with turns := drive.turns + 1 }], rfl, rfl⟩, rfl⟩

theorem decided_quiet {drive : Drive} {last holds : Bool} :
    State.Quiet world stack (decided world stack drive last holds) := by
  unfold decided
  split
  · exact parking_quiet
  · split
    · exact deciding_quiet
    · exact pumping_quiet

theorem stepped_quiet {machine : Nat} {result : StepResult} :
    State.Quiet world stack (stepped world stack machine result) := by
  cases result with
  | complete value => exact ⟨.refl world, ⟨[], rfl, rfl⟩, rfl⟩
  | fail error =>
      simp only [stepped]
      split
      · exact violating_quiet (.refl world)
      · exact ⟨.refl world, ⟨[], rfl, rfl⟩, rfl⟩
  | await resumeAt deferred =>
      have moved : world.Quiet (world.modifyActivation machine fun activation =>
          { activation with position := .suspension resumeAt }) :=
        .modifyActivation machine fun _ idle => ⟨idle, rfl, rfl⟩
      simp only [stepped]
      split
      · exact ⟨recorded_quiet moved, ⟨[], rfl, rfl⟩, rfl⟩
      · next incomplete =>
          refine registering_quiet ((recorded_quiet moved).trans (.suspend machine ?_))
          exact Bool.eq_false_iff.mpr incomplete

theorem started_quiet {handle : Name} {machine : Nat} :
    State.Quiet world stack (started world stack handle machine) := by
  refine disposing_quiet ?_ (.same rfl rfl rfl rfl rfl)
  cases world.handles.find? handle <;> rfl

theorem waiting_quiet {deferred : Nat} {run : Option (Nat × Nat)}
    (quiet : world.Quiet later) :
    State.Quiet world stack (waiting later stack deferred run) :=
  Quiet.above [.answering (.reference later.waiters.size)] rfl
    (registering_quiet (quiet.trans (.same rfl rfl rfl rfl rfl)))

theorem closingNext_quiet {loop discarded : Nat} :
    State.Quiet world stack (closingNext world stack loop discarded) := by
  unfold closingNext
  split
  · refine replying_quiet ?_
    split <;> exact .same rfl rfl rfl rfl rfl
  · exact ⟨.same rfl rfl rfl rfl rfl, ⟨[.closing loop (discarded + 1)], rfl, rfl⟩, rfl⟩

theorem runningNext_quiet {name : Name} {loop ran : Nat} :
    State.Quiet world stack (runningNext world stack name loop ran) := by
  unfold runningNext
  split
  · exact parking_quiet
  · exact ⟨.same rfl rfl rfl rfl rfl, ⟨[.looping name loop (ran + 1)], rfl, rfl⟩, rfl⟩

/-- A quiet frame that is within no step goes on quietly with its reply. -/
theorem returning_quiet {frame : Frame} {reply : Reply} (mild : frame.isQuiet = true)
    (inspected : ∀ place number value, frame ≠ .inspected place number value)
    (announced : ∀ place announcement, frame ≠ .announced place announcement) :
    State.Quiet world stack (returning world stack reply frame) := by
  cases frame with
  | context _ _ | blocking _ _ _ | thread _ | worker _ _ _ => cases mild
  | inspected place number value => exact absurd rfl (inspected place number value)
  | announced place announcement => exact absurd rfl (announced place announcement)
  | program next => exact ⟨.refl world, ⟨[], rfl, rfl⟩, rfl⟩
  | answering settled => exact replying_quiet (.refl world)
  | recording record => exact replying_quiet (.same rfl rfl rfl rfl rfl)
  | placing receipt raw deferred => exact replying_quiet (.same rfl rfl rfl rfl rfl)
  | firing deferred rest =>
      cases rest with
      | nil => exact awakening_quiet
      | cons continuation rest => exact ⟨.refl world, ⟨[.firing deferred rest], rfl, rfl⟩, rfl⟩
  | waking deferred poisons =>
      exact replying_quiet
        (.modifyDeferred deferred (fun _ _ member => member) fun _ complete => complete)
  | working deferred => exact ⟨.refl world, ⟨[], rfl, rfl⟩, rfl⟩
  | stepping machine => exact stepped_quiet
  | releasing machine => exact ⟨.refl world, ⟨[], rfl, rfl⟩, rfl⟩
  | launched place number deferred => exact replying_quiet (.modifyBody place _)
  | starting handle machine => exact started_quiet
  | disposing rest | unwinding rest _ =>
      simp only [Frame.isQuiet, Frame.isTidy, Frame.isBorder] at mild
      cases rest with
      | nil => exact ⟨.refl world, ⟨[], rfl, rfl⟩, rfl⟩
      | cons owned rest =>
          simp only [List.any_cons, Bool.not_or, Bool.and_eq_true, Bool.not_eq_true'] at mild
          obtain ⟨⟨single, tidy⟩, -⟩ := mild
          refine ⟨.refl world, ⟨[_], rfl, ?_⟩, ?_⟩
          · simp [Frame.isQuiet, Frame.isTidy, Frame.isBorder, tidy]
          · cases owned with
            | runtime _ => cases single
            | _ => rfl
  | attempting => exact replying_quiet (.refl world)
  | turning name loop => exact parking_quiet
  | looping name loop ran => exact runningNext_quiet
  | deciding drive last => exact decided_quiet
  | pumping drive => exact deciding_quiet
  | closing loop discarded => exact closingNext_quiet

/-- A panic goes through a quiet frame quietly. -/
theorem unwindingThrough_quiet {frame : Frame} {payload : Payload}
    (mild : frame.isQuiet = true) :
    State.Quiet world stack (unwindingThrough world stack payload frame) := by
  cases frame with
  | context _ _ | blocking _ _ _ | thread _ | worker _ _ _ => cases mild
  | firing _ rest =>
      exact dropping_quiet (Owned.any_isBare_map_continuation rest) (.refl world)
  | waking deferred poisons =>
      exact ⟨.modifyDeferred deferred (fun _ _ member => member) fun _ complete => complete,
        ⟨[], rfl, rfl⟩, rfl⟩
  | releasing machine | starting _ machine =>
      exact ⟨.refl world, ⟨[.unwinding [.activation machine] payload], rfl, rfl⟩, rfl⟩
  | disposing rest =>
      refine dropping_quiet ?_ (.refl world)
      simpa [Frame.isQuiet, Frame.isTidy, Frame.isBorder] using mild
  | attempting => exact replying_quiet (.refl world)
  | turning _ _ | looping _ _ _ | deciding _ _ | pumping _ => exact parkingUnwound_quiet
  | closing loop _ =>
      exact dropping_quiet (Owned.any_isBare_map_continuation _) (.same rfl rfl rfl rfl rfl)
  | _ => exact ⟨.refl world, ⟨[], rfl, rfl⟩, rfl⟩

end State

end Stepwise
