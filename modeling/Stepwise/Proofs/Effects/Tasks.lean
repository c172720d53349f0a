import Stepwise.Proofs.Effects.Basic
import Stepwise.Proofs.Outcome

/-!
# Effects of tasks, replies and panics

Each function that says what comes of a task, of a reply at a frame, or of a panic that
passes one, has at most one effect.
-/

namespace Stepwise

namespace World

variable {world : World} {deferred : Nat}

/-- A blocked thread waits for the same deferred whatever becomes of its signal. -/
theorem reads_modifyWaiter (waiter : Nat) {change : Waiter → Waiter}
    (same : ∀ found, (change found).deferred = found.deferred) :
    (world.modifyWaiter waiter change).reads deferred = world.reads deferred := by
  simp only [reads, modifyWaiter]
  rw [Store.total_modify_of_eq]
  intro found
  rw [same]

@[simp] theorem receipts_modifyBody (place : Place) (change : Body → Body) :
    (world.modifyBody place change).receipts = world.receipts := by
  cases place <;> rfl

@[simp] theorem waiters_modifyBody (place : Place) (change : Body → Body) :
    (world.modifyBody place change).waiters = world.waiters := by
  cases place <;> rfl

@[simp] theorem receipts_retrieve (deferred : Nat) :
    (world.retrieve deferred).1.receipts = world.receipts := by
  unfold World.retrieve
  split <;> rfl

@[simp] theorem waiters_retrieve (deferred : Nat) :
    (world.retrieve deferred).1.waiters = world.waiters := by
  unfold World.retrieve
  split <;> rfl

theorem isComplete_of_get? {found : Deferred}
    (lookup : world.deferreds.get? deferred = some found) :
    world.isComplete deferred = found.isComplete := by
  simp [isComplete, lookup]

end World

namespace State

variable {may : Task → Prop} {world : World} {stack : Stack}

theorem replying_affects {reply : Reply} :
    Affects .nothing may world stack (.replying world stack reply) :=
  .plain rfl rfl rfl ⟨[], rfl, rfl⟩ rfl

theorem refusing_affects {refusal : Refusal} :
    Affects .nothing may world stack (.refusing world stack refusal) :=
  .plain rfl rfl rfl ⟨[], rfl, rfl⟩ rfl

theorem disposing_affects {displaced : List Owned} {reply : Reply} :
    Affects .nothing may world stack (.disposing world stack displaced reply) := by
  cases displaced with
  | nil => exact replying_affects
  | cons first rest =>
      exact .plain rfl rfl rfl ⟨[.disposing (first :: rest), .answering reply], rfl, rfl⟩ rfl

theorem dropping_affects {owned : List Owned} {payload : Payload} :
    Affects .nothing may world stack (.dropping world stack owned payload) := by
  cases owned with
  | nil => exact .plain rfl rfl rfl ⟨[], rfl, rfl⟩ rfl
  | cons first rest =>
      exact .plain rfl rfl rfl ⟨[.unwinding (first :: rest) payload], rfl, rfl⟩ rfl

theorem performing_affects {task : Task} {reply : Reply} (idle : task.drives = false) :
    Affects .nothing may world stack (.performing world stack task reply) := by
  refine .plain rfl rfl rfl ⟨[.answering reply], rfl, rfl⟩ ?_
  simp [performing, Control.isIdle, idle]

/-! ## Tasks -/

theorem violating_affects {machine : Nat} {error : Error} :
    Affects .nothing may world stack (violating world stack machine error) :=
  dropping_affects.beyond rfl rfl rfl

/-- To register a continuation is just that. -/
theorem registering_affects {deferred : Nat} {continuation : Continuation} :
    Affects (.registers deferred continuation) may world stack
      (registering world stack deferred continuation) := by
  unfold registering
  split
  · next complete =>
      refine .inert (.unregistered ?_) (.same fun _ _ => rfl) (fun _ => Nat.le_refl _)
        ⟨[], rfl, rfl⟩ rfl
      intro found lookup
      rwa [World.isComplete_of_get? lookup] at complete
  · next incomplete =>
      refine .inert (.registered ?_) (.same fun _ _ => rfl) (fun _ => Nat.le_refl _)
        ⟨[], rfl, rfl⟩ rfl
      intro found lookup
      rw [World.isComplete_of_get? lookup] at incomplete
      exact Bool.eq_false_iff.mpr incomplete

theorem awakening_affects {deferred : Nat} :
    Affects .nothing may world stack (awakening world stack deferred) := by
  unfold awakening
  split
  · exact replying_affects
  · split
    · exact .plain rfl rfl rfl ⟨[], rfl, rfl⟩ rfl
    · exact .plain rfl rfl rfl ⟨[], rfl, rfl⟩ rfl
    · exact replying_affects
    · exact .inert (.retouched deferred (fun _ => rfl) fun _ => rfl) (.same fun _ _ => rfl)
        (fun _ => Nat.le_refl _) ⟨[.waking deferred (!stack.isPanicking)], rfl, rfl⟩ rfl

theorem advancing_affects {machine : Nat}
    (cancels : ∀ found, world.activations.get? machine = some found → found.cancelled = true →
      may (.finish machine (.error .cancelled))) :
    Affects .nothing may world stack (advancing world stack machine) := by
  unfold advancing
  split
  · exact replying_affects
  · next found lookup =>
      split
      · next cancelled =>
          refine ⟨.nothing _, .same fun _ _ => rfl, rfl, fun _ => Nat.le_add_right _ _, ?_⟩
          rintro task ⟨⟩ -
          exact cancels found lookup cancelled
      · exact .plain rfl rfl rfl ⟨[.stepping machine], rfl, rfl⟩ rfl

theorem resuming_affects {machine : Nat} (advances : may (.advance machine)) :
    Affects .nothing may world stack (resuming world stack machine) := by
  unfold resuming
  split
  · exact replying_affects
  · split
    · exact .plain rfl rfl rfl ⟨[], rfl, rfl⟩ rfl
    · exact violating_affects
    · simp only
      split
      · refine ⟨.nothing _, .same fun _ _ => rfl, rfl, fun _ => Nat.le_add_right _ _, ?_⟩
        rintro task ⟨⟩ -
        exact advances
      · split
        · refine ⟨.nothing _, .same fun _ _ => rfl, rfl, fun _ => Nat.le_add_right _ _, ?_⟩
          rintro task ⟨⟩ -
          exact advances
        · exact violating_affects.beyond rfl rfl rfl

theorem finishing_affects {machine : Nat} {outcome : Outcome} :
    Affects .nothing may world stack (finishing world stack machine outcome) := by
  unfold finishing
  split
  · exact replying_affects
  · cases outcome
    all_goals
      simp only
      split
      · exact .plain rfl rfl rfl ⟨[], rfl, rfl⟩ rfl
      · exact .plain rfl rfl rfl ⟨[.releasing machine], rfl, rfl⟩ rfl
      · exact .plain rfl rfl rfl ⟨[.releasing machine], rfl, rfl⟩ rfl

theorem abandoning_affects {machine : Nat}
    (finishes : may (.finish machine (.error .shutdown))) :
    Affects .nothing may world stack (abandoning world stack machine) := by
  unfold abandoning
  split
  · exact replying_affects
  · split
    · refine ⟨.nothing _, .same fun _ _ => rfl, rfl, fun _ => Nat.le_add_right _ _, ?_⟩
      rintro task ⟨⟩ -
      exact finishes
    · exact .plain rfl rfl rfl ⟨[], rfl, rfl⟩ rfl

/-- The signal of a blocked thread is settled. -/
theorem signalled_affects {waiter : Nat} (signal : Signal) :
    Affects (.signals waiter signal) may world stack
      (.replying (world.modifyWaiter waiter fun found => { found with signal := signal })
        stack .done) := by
  refine .inert (.same fun _ _ _ => ⟨rfl, rfl⟩) (.modify ?_ ?_ ?_ ?_) ?_ ⟨[], rfl, rfl⟩ rfl
  · exact fun other found different => if_neg (Ne.symm different)
  · exact fun found => (if_pos rfl).symm
  · exact fun _ => rfl
  · exact fun _ => .inl rfl
  intro deferred
  have same := @World.reads_modifyWaiter world deferred waiter
    (fun found => { found with signal := signal }) fun _ => rfl
  exact Nat.le_of_eq same

theorem runningContinuation_affects {continuation : Continuation} :
    Affects (continuation.settles .woken) may world stack
      (runningContinuation world stack continuation) := by
  cases continuation with
  | job deferred work => exact .plain rfl rfl rfl ⟨[.working deferred], rfl, rfl⟩ rfl
  | signal waiter => exact signalled_affects .woken
  | _ => exact .plain rfl rfl rfl ⟨[], rfl, rfl⟩ rfl

theorem releasingShare_affects {machine : Nat} :
    Affects .nothing may world stack (releasingShare world stack machine) := by
  unfold releasingShare
  split
  · exact replying_affects
  · simp only
    split
    · split
      · exact .plain rfl rfl rfl ⟨[], rfl, rfl⟩ rfl
      · exact .plain rfl rfl rfl ⟨[], rfl, rfl⟩ rfl
    · exact .plain rfl rfl rfl ⟨[], rfl, rfl⟩ rfl

theorem shuttingDown_affects {pool : Nat} :
    Affects .nothing may world stack (shuttingDown world stack pool) := by
  unfold shuttingDown
  split
  · exact replying_affects
  · next found _ =>
      split
      · exact .plain rfl rfl rfl ⟨[], rfl, rfl⟩ rfl
      · simp only
        split
        all_goals
          exact .plain rfl rfl rfl
            ⟨[.disposing (found.jobs.map .continuation), .recording .runtimeShutDown], rfl, rfl⟩
            rfl

theorem discarding_affects {owned : Owned}
    (finishes : ∀ continuation machine, owned = .continuation continuation →
      continuation.assets = [.resumption machine] → may (.finish machine (.error .shutdown))) :
    Affects owned.settles may world stack (discarding world stack owned) := by
  cases owned with
  | continuation dropped =>
      cases dropped with
      | callback _ => exact replying_affects
      | handOver _ machine | resumption machine =>
          exact abandoning_affects (finishes _ machine rfl rfl)
      | job deferred _ => exact .plain rfl rfl rfl ⟨[], rfl, rfl⟩ rfl
      | signal waiter => exact signalled_affects .lost
  | writer deferred => exact .plain rfl rfl rfl ⟨[], rfl, rfl⟩ rfl
  | activation machine => exact releasingShare_affects
  | loop loop => exact .plain rfl rfl rfl ⟨[.closing loop 0], rfl, rfl⟩ rfl
  | runtime pool => exact shuttingDown_affects

theorem scheduling_affects {scheduler : Scheduler} {continuation : Continuation} :
    Affects .nothing may world stack (scheduling world stack scheduler continuation) := by
  unfold scheduling
  split
  · exact .plain rfl rfl rfl ⟨[], rfl, rfl⟩ rfl
  · split <;> exact .plain rfl rfl rfl ⟨[], rfl, rfl⟩ rfl
  · split
    · exact .plain rfl rfl rfl ⟨[], rfl, rfl⟩ rfl
    · exact .plain rfl rfl rfl ⟨[.recording .loopGone], rfl, rfl⟩ rfl
  · split <;> exact .plain rfl rfl rfl ⟨[], rfl, rfl⟩ rfl
  · exact .plain rfl rfl rfl ⟨[], rfl, rfl⟩ rfl

/-! ## Replies and panics -/

theorem parking_affects {name : Name} {loop : Nat} {reply : Reply} :
    Affects .nothing may world stack (parking world stack name loop reply) :=
  disposing_affects.beyond rfl rfl rfl

theorem parkingUnwound_affects {name : Name} {loop : Nat} {payload : Payload} :
    Affects .nothing may world stack (parkingUnwound world stack name loop payload) :=
  dropping_affects.beyond rfl rfl rfl

theorem deciding_affects {drive : Drive} {last : Bool} :
    Affects .nothing may world stack (deciding world stack drive last) :=
  .plain rfl rfl rfl ⟨[.deciding { drive with calls := drive.calls + 1 } last], rfl, rfl⟩ rfl

theorem pumping_affects {drive : Drive} :
    Affects .nothing may world stack (pumping world stack drive) := by
  unfold pumping
  split
  · exact deciding_affects
  · exact .plain rfl rfl rfl ⟨[.pumping { drive with turns := drive.turns + 1 }], rfl, rfl⟩ rfl

theorem decided_affects {drive : Drive} {last holds : Bool} :
    Affects .nothing may world stack (decided world stack drive last holds) := by
  unfold decided
  split
  · exact parking_affects
  · split
    · exact deciding_affects
    · exact pumping_affects

/-- The end of a step that awaits what is complete has the machine go on. -/
theorem awaited_affects {machine resumeAt deferred : Nat} (advances : may (.advance machine))
    (complete : world.isComplete deferred = true) :
    Affects .nothing may world stack
      (stepped world stack machine (.await resumeAt deferred)) := by
  simp only [stepped, complete, if_true]
  refine ⟨.nothing _, .same fun _ _ => rfl, rfl, fun _ => Nat.le_add_right _ _, ?_⟩
  rintro task ⟨⟩ -
  exact advances

/-- The end of a step that awaits what is pending registers the machine's resumption. -/
theorem suspended_affects {machine resumeAt deferred : Nat}
    (incomplete : world.isComplete deferred = false) :
    Affects (.registers deferred (.handOver
        (((world.activations.get? machine).map (·.scheduler)).getD .inline) machine))
      may world stack (stepped world stack machine (.await resumeAt deferred)) := by
  simp only [stepped, incomplete, Bool.false_eq_true, if_false]
  exact registering_affects.beyond rfl rfl rfl

/-- The end of a step that awaits nothing settles an outcome, or breaks the protocol. -/
theorem ended_affects {machine : Nat} {result : StepResult}
    (ends : ∀ resumeAt deferred, result ≠ .await resumeAt deferred)
    (finishes : ∀ position outcome,
      (StepEnd.returned result).outcome? position = some outcome → may (.finish machine outcome)) :
    Affects .nothing may world stack (stepped world stack machine result) := by
  cases result with
  | await resumeAt deferred => exact absurd rfl (ends resumeAt deferred)
  | complete value =>
      refine ⟨.nothing _, .same fun _ _ => rfl, rfl, fun _ => Nat.le_add_right _ _, ?_⟩
      rintro task ⟨⟩ -
      exact finishes .notStarted _ rfl
  | fail error =>
      simp only [stepped]
      split
      · exact violating_affects
      · next ordinary =>
          refine ⟨.nothing _, .same fun _ _ => rfl, rfl, fun _ => Nat.le_add_right _ _, ?_⟩
          rintro task ⟨⟩ -
          exact finishes .notStarted _ (by simp [StepEnd.outcome?, ordinary])

theorem stepPanicked_affects {machine : Nat} {payload : Payload}
    (finishes : may (.finish machine (.error (.stepPanicked
      (((world.activations.get? machine).map (·.position)).getD .notStarted)
        payload.message)))) :
    Affects .nothing may world stack (stepPanicked world stack machine payload) := by
  refine ⟨.nothing _, .same fun _ _ => rfl, rfl, fun _ => Nat.le_add_right _ _, ?_⟩
  rintro task ⟨⟩ -
  exact finishes

theorem started_affects {handle : Name} {machine : Nat} :
    Affects .nothing may world stack (started world stack handle machine) :=
  disposing_affects.beyond rfl rfl rfl

theorem closingNext_affects {loop discarded : Nat} :
    Affects .nothing may world stack (closingNext world stack loop discarded) := by
  unfold closingNext
  split
  · simp only
    split <;> exact .plain rfl rfl rfl ⟨[], rfl, rfl⟩ rfl
  · exact .plain rfl rfl rfl ⟨[.closing loop (discarded + 1)], rfl, rfl⟩ rfl

theorem runningNext_affects {name : Name} {loop ran : Nat} :
    Affects .nothing may world stack (runningNext world stack name loop ran) := by
  unfold runningNext
  split
  · exact parking_affects
  · exact .plain rfl rfl rfl ⟨[.looping name loop (ran + 1)], rfl, rfl⟩ rfl

/-- To dispatch work adds a deferred, which whatever waits for the dispatch may read. -/
theorem dispatching_affects {target : Target} {infallible : Bool} {work : Program}
    {waiting : Nat → Stack}
    (batches : (waiting world.deferreds.size).batches = stack.batches)
    (reads : ∀ deferred, (waiting world.deferreds.size).reads deferred ≤
      stack.reads deferred + if world.deferreds.size = deferred then 1 else 0) :
    Affects .nothing may world stack
      (dispatching world stack target infallible work waiting) := by
  have added {new : Stack} {later : World} {control : Control}
      (deferreds : later.deferreds = world.deferreds.push .fresh)
      (receipts : later.receipts = world.receipts) (waiters : later.waiters = world.waiters)
      (plain : new.all Frame.isInert = true) (idle : control.isIdle = true) :
      Affects .nothing may world stack ⟨later, new ++ waiting world.deferreds.size, control⟩ := by
    refine .added deferreds waiters ?_ ?_ idle
    · rw [Stack.batches_append, Stack.batches_of_inert plain, List.nil_append, batches]
    · intro deferred
      have bound := reads deferred
      simp only [State.reads, Stack.reads_append, Stack.reads_of_inert plain, World.reads,
        receipts, waiters]
      omega
  have queueing (pool : Nat) : Affects .nothing may world stack
      (if world.acceptsJobs pool then
        State.replying (world.newDeferred.1.modifyPool pool
          (·.push (.job world.deferreds.size work))) (waiting world.deferreds.size) .done
      else
        ⟨world.newDeferred.1, .recording .dispatchedAfterShutdown ::
            waiting world.deferreds.size,
          .task (.discard (.continuation (.job world.deferreds.size work)))⟩) := by
    split
    · exact @added [] _ _ rfl rfl rfl rfl rfl
    · exact @added [.recording .dispatchedAfterShutdown] _ _ rfl rfl rfl rfl rfl
  unfold dispatching
  cases target with
  | immediate => exact @added [.working world.deferreds.size] _ _ rfl rfl rfl rfl rfl
  | pool pool => exact queueing pool
  | context =>
      simp only
      split
      · exact queueing _
      · exact .plain rfl rfl rfl ⟨[], rfl, rfl⟩ rfl

end State

end Stepwise
