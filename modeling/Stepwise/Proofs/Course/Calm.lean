import Stepwise.Proofs.Course.Changes

/-!
# Calm small steps

All tasks but the steps of machines, all frames but those of steps, and all requests are
calm.  They change machines and deferreds in passing; only a request takes an outcome,
one that user code has a receipt for or a thread has waited for.
-/

namespace Stepwise

/-- What a frame names is shared: the receipt it holds, and the waker it wakes. -/
structure Frame.Shares (shared : Nat → Prop) (world : World) (frame : Frame) : Prop where
  receipts : ∀ deferred, Holding.receipt deferred ∈ frame.holdings →
    shared deferred ∧ (world.deferreds.get? deferred).isSome = true
  wakers : ∀ deferred poisons, frame = .waking deferred poisons → shared deferred

namespace State

variable {may shared : Nat → Prop} {world later : World} {stack : Stack}

theorem replying_calm {reply : Reply} (calm : world.Calm may shared later) :
    State.Calm may shared world stack (.replying later stack reply) :=
  ⟨calm, ⟨[], rfl, rfl⟩, rfl⟩

theorem refusing_calm {refusal : Refusal} :
    State.Calm may shared world stack (.refusing world stack refusal) :=
  ⟨.refl world, ⟨[], rfl, rfl⟩, rfl⟩

/-- What is calm above plain frames is calm beneath them. -/
theorem Calm.above (plain : Stack) {after : State} (all : plain.all Frame.isPlain = true)
    (calm : State.Calm may shared world (plain ++ stack) after) :
    State.Calm may shared world stack after := by
  obtain ⟨changed, ⟨more, placed, allMore⟩, control⟩ := calm
  refine ⟨changed, ⟨more ++ plain, ?_, ?_⟩, control⟩
  · rw [placed, List.append_assoc]
  · rw [List.all_append, allMore, all, Bool.and_self]

/-- What is calm after a calm change is calm. -/
theorem Calm.beyond {after : State} (first : world.Calm may shared later)
    (calm : State.Calm may shared later stack after) : State.Calm may shared world stack after :=
  ⟨first.trans calm.world, calm.stack, calm.control⟩

theorem disposing_calm {displaced : List Owned} {reply : Reply}
    (calm : world.Calm may shared later) :
    State.Calm may shared world stack (.disposing later stack displaced reply) := by
  cases displaced with
  | nil => exact replying_calm calm
  | cons first rest =>
      exact ⟨calm, ⟨[.disposing (first :: rest), .answering reply], rfl, rfl⟩, rfl⟩

theorem dropping_calm {owned : List Owned} {payload : Payload}
    (calm : world.Calm may shared later) :
    State.Calm may shared world stack (.dropping later stack owned payload) := by
  cases owned with
  | nil => exact ⟨calm, ⟨[], rfl, rfl⟩, rfl⟩
  | cons first rest => exact ⟨calm, ⟨[.unwinding (first :: rest) payload], rfl, rfl⟩, rfl⟩

theorem recorded_calm (record : Record) : world.Calm may shared (world.record record) :=
  .same rfl rfl rfl rfl

/-! ## Tasks -/

theorem violating_calm {machine : Nat} {error : Error} (calm : world.Calm may shared later) :
    State.Calm may shared world stack (violating later stack machine error) :=
  dropping_calm (calm.trans (recorded_calm _))

theorem registering_calm {deferred : Nat} {continuation : Continuation}
    (calm : world.Calm may shared later) (known : shared deferred) :
    State.Calm may shared world stack (registering later stack deferred continuation) := by
  unfold registering
  split
  · exact ⟨calm, ⟨[], rfl, rfl⟩, rfl⟩
  · exact replying_calm (calm.trans
      (.modifyDeferred deferred (fun _ _ => .refl _) (.inr fun _ taken => taken) (.inl known)))

/-- A pending deferred is published calmly. -/
theorem publishing_calm {deferred : Nat} {outcome : Outcome}
    (pending : world.isComplete deferred = false) :
    State.Calm may shared world stack (publishing world stack deferred outcome) := by
  unfold publishing
  split
  · exact replying_calm (.refl world)
  · next found lookup =>
      refine ⟨?_, ⟨[.firing deferred found.continuations], rfl, rfl⟩, rfl⟩
      refine .trans (.modifyDeferred deferred ?_ (.inr ?_) (.inr ?_)) (recorded_calm _)
      · intro again present
        cases lookup.symm.trans present
        cases progress : found.progress with
        | pending => exact .pending
        | complete _ | taken =>
            simp [World.isComplete, lookup, Deferred.isComplete, progress] at pending
      · intro found taken
        cases taken
      · intro found unheard
        exact ⟨rfl, unheard.2⟩

/-- To wake the waker of a deferred is calm, but for the lock that it takes. -/
theorem awakening_calm {deferred : Nat} :
    State.Calm may shared world stack (awakening world stack deferred) ∨
      ∃ found waker later, world.deferreds.get? deferred = some found ∧
        found.waker = some waker ∧ (shared deferred → world.Calm may shared later) ∧
        awakening world stack deferred =
          ⟨later, .waking deferred (!stack.isPanicking) :: stack, .program waker.body⟩ := by
  cases lookup : world.deferreds.get? deferred with
  | none =>
      left
      simp only [awakening, lookup]
      exact replying_calm (.refl world)
  | some found =>
      cases lock : found.lock with
      | held | poisoned =>
          left
          simp only [awakening, lookup, lock]
          exact ⟨.refl world, ⟨[], rfl, rfl⟩, rfl⟩
      | free =>
          cases kept : found.waker with
          | none =>
              left
              simp only [awakening, lookup, lock, kept]
              exact replying_calm (.refl world)
          | some waker =>
              right
              simp only [awakening, lookup, lock, kept]
              refine ⟨found, waker, _, rfl, kept, ?_, rfl⟩
              exact fun known => .modifyDeferred deferred (fun _ _ => .refl _)
                (.inr fun _ taken => taken) (.inl known)

theorem resuming_calm {machine : Nat} :
    State.Calm may shared world stack (resuming world stack machine) := by
  unfold resuming
  split
  · exact replying_calm (.refl world)
  · next found lookup =>
      have claimed : world.Calm may shared (world.modifyActivation machine fun activation =>
          { activation with status := .running, pending := none }) :=
        .modifyActivation machine fun _ => rfl
      split
      · exact ⟨recorded_calm _, ⟨[], rfl, rfl⟩, rfl⟩
      · exact violating_calm (.refl world)
      · simp only
        split
        · exact ⟨claimed, ⟨[], rfl, rfl⟩, rfl⟩
        · split
          · exact ⟨claimed.trans (recorded_calm _), ⟨[], rfl, rfl⟩, rfl⟩
          · exact violating_calm claimed

theorem finishing_calm {machine : Nat} {outcome : Outcome} :
    State.Calm may shared world stack (finishing world stack machine outcome) := by
  unfold finishing
  split
  · exact replying_calm (.refl world)
  · next found lookup =>
      have finished : world.Calm may shared (world.modifyActivation machine (·.finish)) :=
        .modifyActivation machine fun _ => rfl
      have reported (record : Record) := finished.trans (recorded_calm record)
      cases outcome
      all_goals
        simp only
        split
        · exact ⟨reported _, ⟨[], rfl, rfl⟩, rfl⟩
        · exact ⟨reported _, ⟨[.releasing machine], rfl, rfl⟩, rfl⟩
        · exact ⟨reported _, ⟨[.releasing machine], rfl, rfl⟩, rfl⟩

theorem abandoning_calm {machine : Nat} :
    State.Calm may shared world stack (abandoning world stack machine) := by
  unfold abandoning
  split
  · exact replying_calm (.refl world)
  · split
    · have claimed : world.Calm may shared (world.modifyActivation machine fun activation =>
          { activation with status := .running }) :=
        .modifyActivation machine fun _ => rfl
      exact ⟨claimed.trans (recorded_calm _), ⟨[], rfl, rfl⟩, rfl⟩
    · exact ⟨.refl world, ⟨[], rfl, rfl⟩, rfl⟩

theorem scheduling_calm {scheduler : Scheduler} {continuation : Continuation} :
    State.Calm may shared world stack (scheduling world stack scheduler continuation) := by
  unfold scheduling
  split
  · exact ⟨.refl world, ⟨[], rfl, rfl⟩, rfl⟩
  · split
    · exact replying_calm (.same rfl rfl rfl rfl)
    · exact ⟨recorded_calm _, ⟨[], rfl, rfl⟩, rfl⟩
  · split
    · exact replying_calm (.same rfl rfl rfl rfl)
    · exact ⟨.refl world, ⟨[.recording .loopGone], rfl, rfl⟩, rfl⟩
  · split
    · exact replying_calm (.same rfl rfl rfl rfl)
    · exact ⟨.refl world, ⟨[], rfl, rfl⟩, rfl⟩
  · exact ⟨.refl world, ⟨[], rfl, rfl⟩, rfl⟩

theorem runningContinuation_calm {continuation : Continuation} :
    State.Calm may shared world stack (runningContinuation world stack continuation) := by
  cases continuation with
  | job deferred work => exact ⟨.refl world, ⟨[.working deferred], rfl, rfl⟩, rfl⟩
  | signal waiter => exact replying_calm (.same rfl rfl rfl rfl)
  | _ => exact ⟨.refl world, ⟨[], rfl, rfl⟩, rfl⟩

theorem releasingShare_calm {machine : Nat} :
    State.Calm may shared world stack (releasingShare world stack machine) := by
  unfold releasingShare
  split
  · exact replying_calm (.refl world)
  · next found lookup =>
      have released : world.Calm may shared (world.modifyActivation machine fun activation =>
          { activation with owners := activation.owners - 1 }) :=
        .modifyActivation machine fun _ => rfl
      simp only
      split
      · have emptied : world.Calm may shared
            ((world.modifyActivation machine fun activation =>
              { activation with owners := activation.owners - 1 }).modifyActivation machine
                fun activation => { activation with observer := none }) :=
          released.trans (.modifyActivation machine fun _ => rfl)
        split
        · exact ⟨emptied, ⟨[], rfl, rfl⟩, rfl⟩
        · exact replying_calm emptied
      · exact replying_calm released

theorem shuttingDown_calm {pool : Nat} :
    State.Calm may shared world stack (shuttingDown world stack pool) := by
  unfold shuttingDown
  split
  · exact replying_calm (.refl world)
  · next found lookup =>
      split
      · exact ⟨.refl world, ⟨[], rfl, rfl⟩, rfl⟩
      · refine ⟨?_, ⟨[.disposing (found.jobs.map .continuation),
          .recording .runtimeShutDown], rfl, rfl⟩, rfl⟩
        simp only
        split <;> exact .same rfl rfl rfl rfl

theorem discarding_calm {owned : Owned} :
    State.Calm may shared world stack (discarding world stack owned) := by
  cases owned with
  | continuation dropped =>
      cases dropped with
      | callback _ => exact replying_calm (.refl world)
      | handOver _ machine => exact abandoning_calm
      | resumption machine => exact abandoning_calm
      | job deferred _ => exact ⟨.refl world, ⟨[], rfl, rfl⟩, rfl⟩
      | signal waiter => exact replying_calm (.same rfl rfl rfl rfl)
  | writer deferred => exact ⟨recorded_calm _, ⟨[], rfl, rfl⟩, rfl⟩
  | activation machine => exact releasingShare_calm
  | loop loop => exact ⟨.refl world, ⟨[.closing loop 0], rfl, rfl⟩, rfl⟩
  | runtime pool => exact shuttingDown_calm

/-- A deferred whose outcome is about to be published is pending. -/
theorem isComplete_of_publication {chronicle : Chronicle} {deferred : Nat} {outcome : Outcome}
    (custody : Custody world.ledger chronicle (Task.publish deferred outcome).holdings stack) :
    world.isComplete deferred = false := by
  have held : Custody world.ledger chronicle [.publication deferred outcome] stack := custody
  obtain ⟨⟨found, lookup, pending⟩, -⟩ :=
    held.pending_of_writer deferred (by simp [Holding.assets])
  have present : world.deferreds.get? deferred = some found := lookup
  simp [World.isComplete, present, pending]

/-- Every task is calm, but to call a step and to run it. -/
theorem carryingOut_calm {task : Task} {chronicle : Chronicle}
    (custody : Custody world.ledger chronicle task.holdings stack)
    (notAdvance : ∀ machine, task ≠ .advance machine)
    (notStep : ∀ place position, task ≠ .step place position) :
    State.Calm may shared world stack (carryingOut world stack task) := by
  cases task with
  | run continuation => exact runningContinuation_calm
  | discard owned => exact discarding_calm
  | publish deferred outcome => exact publishing_calm (isComplete_of_publication custody)
  | schedule scheduler continuation => exact scheduling_calm
  | resume machine => exact resuming_calm
  | advance machine => exact absurd rfl (notAdvance machine)
  | step place position => exact absurd rfl (notStep place position)
  | finish machine outcome => exact finishing_calm

/-! ## Replies and panics -/

theorem restored_calm (name : Name) (loop : Nat) :
    world.Calm may shared (world.restoreLoop name loop).1 := .same rfl rfl rfl rfl

theorem parking_calm {name : Name} {loop : Nat} {reply : Reply} :
    State.Calm may shared world stack (parking world stack name loop reply) :=
  disposing_calm (restored_calm name loop)

theorem parkingUnwound_calm {name : Name} {loop : Nat} {payload : Payload} :
    State.Calm may shared world stack (parkingUnwound world stack name loop payload) :=
  dropping_calm (restored_calm name loop)

theorem deciding_calm {drive : Drive} {last : Bool} :
    State.Calm may shared world stack (deciding world stack drive last) :=
  ⟨.refl world, ⟨[.deciding { drive with calls := drive.calls + 1 } last], rfl, rfl⟩, rfl⟩

theorem pumping_calm {drive : Drive} :
    State.Calm may shared world stack (pumping world stack drive) := by
  unfold pumping
  split
  · exact deciding_calm
  · exact ⟨.same rfl rfl rfl rfl, ⟨[.pumping { drive with turns := drive.turns + 1 }], rfl, rfl⟩,
      rfl⟩

theorem decided_calm {drive : Drive} {last holds : Bool} :
    State.Calm may shared world stack (decided world stack drive last holds) := by
  unfold decided
  split
  · exact parking_calm
  · split
    · exact deciding_calm
    · exact pumping_calm

theorem stepped_calm {machine : Nat} {result : StepResult}
    (known : ∀ resumeAt deferred, result = .await resumeAt deferred → shared deferred) :
    State.Calm may shared world stack (stepped world stack machine result) := by
  cases result with
  | complete value => exact ⟨.refl world, ⟨[], rfl, rfl⟩, rfl⟩
  | fail error =>
      simp only [stepped]
      split
      · exact violating_calm (.refl world)
      · exact ⟨.refl world, ⟨[], rfl, rfl⟩, rfl⟩
  | await resumeAt deferred =>
      have moved : world.Calm may shared (world.modifyActivation machine fun activation =>
          { activation with position := .suspension resumeAt }) :=
        .modifyActivation machine fun _ => rfl
      simp only [stepped]
      split
      · exact ⟨moved.trans (recorded_calm _), ⟨[], rfl, rfl⟩, rfl⟩
      · have reported := moved.trans (recorded_calm (.suspended machine (.suspension resumeAt)))
        exact registering_calm (reported.trans (.modifyActivation machine fun _ => rfl))
          (known resumeAt deferred rfl)

theorem worked_calm {deferred : Nat} {result : Except Failure Value} :
    State.Calm may shared world stack (worked world stack deferred result) :=
  ⟨.refl world, ⟨[], rfl, rfl⟩, rfl⟩

theorem started_calm {handle : Name} {machine : Nat} :
    State.Calm may shared world stack (started world stack handle machine) :=
  disposing_calm (.same rfl rfl rfl rfl)

theorem waiting_calm {deferred : Nat} {run : Option (Nat × Nat)}
    (calm : world.Calm may shared later) (known : shared deferred) :
    State.Calm may shared world stack (waiting later stack deferred run) :=
  Calm.above [.answering (.reference later.waiters.size)] rfl
    (registering_calm (calm.trans (.same rfl rfl rfl rfl)) known)

theorem closingNext_calm {loop discarded : Nat} :
    State.Calm may shared world stack (closingNext world stack loop discarded) := by
  unfold closingNext
  split
  · refine replying_calm ?_
    split <;> exact .same rfl rfl rfl rfl
  · exact ⟨.same rfl rfl rfl rfl, ⟨[.closing loop (discarded + 1)], rfl, rfl⟩, rfl⟩

theorem runningNext_calm {name : Name} {loop ran : Nat} :
    State.Calm may shared world stack (runningNext world stack name loop ran) := by
  unfold runningNext
  split
  · exact parking_calm
  · exact ⟨.same rfl rfl rfl rfl, ⟨[.looping name loop (ran + 1)], rfl, rfl⟩, rfl⟩

/-- Every frame but those within a step goes on calmly with its reply, when it wakes
nobody. -/
theorem returning_calm {frame : Frame} {reply : Reply} (outside : frame.place? = none)
    (unfired : ∀ deferred, frame ≠ .firing deferred []) (shares : frame.Shares shared world)
    (known : ∀ machine resumeAt deferred, frame = .stepping machine →
      world.judge machine reply = .await resumeAt deferred → shared deferred) :
    State.Calm may shared world stack (returning world stack reply frame) := by
  cases frame with
  | inspected _ _ _ | announced _ _ | launched _ _ _ => cases outside
  | program next => exact ⟨.refl world, ⟨[], rfl, rfl⟩, rfl⟩
  | answering settled => exact replying_calm (.refl world)
  | recording record => exact replying_calm (recorded_calm record)
  | placing receipt raw deferred =>
      obtain ⟨allowed, present⟩ := shares.receipts deferred (.head _)
      exact replying_calm (.putReceipt receipt raw allowed present)
  | firing deferred rest =>
      cases rest with
      | nil => exact absurd rfl (unfired deferred)
      | cons continuation rest => exact ⟨.refl world, ⟨[.firing deferred rest], rfl, rfl⟩, rfl⟩
  | waking deferred poisons =>
      exact replying_calm (.modifyDeferred deferred (fun _ _ => .refl _)
        (.inr fun _ taken => taken) (.inl (shares.wakers deferred poisons rfl)))
  | working deferred => exact worked_calm
  | stepping machine =>
      exact stepped_calm fun resumeAt deferred => known machine resumeAt deferred rfl
  | releasing machine => exact ⟨.refl world, ⟨[], rfl, rfl⟩, rfl⟩
  | starting handle machine => exact started_calm
  | blocking machine pool deferred =>
      exact waiting_calm (.same rfl rfl rfl rfl)
        (shares.receipts deferred (.tail _ (.head _))).1
  | disposing rest =>
      cases rest with
      | nil => exact replying_calm (.refl world)
      | cons owned rest => exact ⟨.refl world, ⟨[.disposing rest], rfl, rfl⟩, rfl⟩
  | unwinding rest payload =>
      cases rest with
      | nil => exact ⟨.refl world, ⟨[], rfl, rfl⟩, rfl⟩
      | cons owned rest => exact ⟨.refl world, ⟨[.unwinding rest payload], rfl, rfl⟩, rfl⟩
  | context saved pool => exact replying_calm (.same rfl rfl rfl rfl)
  | thread saved => exact replying_calm (.same rfl rfl rfl rfl)
  | attempting => exact replying_calm (.refl world)
  | worker pool number saved => exact replying_calm (.same rfl rfl rfl rfl)
  | turning name loop => exact parking_calm
  | looping name loop ran => exact runningNext_calm
  | deciding drive last => exact decided_calm
  | pumping drive => exact deciding_calm
  | closing loop discarded => exact closingNext_calm

/-- A panic goes through every frame calmly. -/
theorem unwindingThrough_calm {frame : Frame} {payload : Payload}
    (shares : frame.Shares shared world) :
    State.Calm may shared world stack (unwindingThrough world stack payload frame) := by
  cases frame with
  | firing _ _ => exact dropping_calm (.refl world)
  | waking deferred poisons =>
      exact ⟨.modifyDeferred deferred (fun _ _ => .refl _)
        (.inr fun _ taken => taken) (.inl (shares.wakers deferred poisons rfl)), ⟨[], rfl, rfl⟩, rfl⟩
  | releasing machine | starting _ machine =>
      exact ⟨.refl world, ⟨[.unwinding [.activation machine] payload], rfl, rfl⟩, rfl⟩
  | blocking machine _ _ =>
      exact ⟨.same rfl rfl rfl rfl, ⟨[.unwinding [.activation machine] payload], rfl, rfl⟩, rfl⟩
  | disposing _ => exact dropping_calm (.refl world)
  | context _ _ => exact ⟨.same rfl rfl rfl rfl, ⟨[], rfl, rfl⟩, rfl⟩
  | thread _ | worker _ _ _ => exact replying_calm (.same rfl rfl rfl rfl)
  | attempting => exact replying_calm (.refl world)
  | turning _ _ | looping _ _ _ | deciding _ _ | pumping _ => exact parkingUnwound_calm
  | closing _ _ => exact dropping_calm (.same rfl rfl rfl rfl)
  | _ => exact ⟨.refl world, ⟨[], rfl, rfl⟩, rfl⟩

end State

end Stepwise
