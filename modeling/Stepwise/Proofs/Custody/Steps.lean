import Stepwise.Proofs.Custody.Tasks

/-!
# Steps keep order

A step holds nothing itself: its claim is in the frame that waits for it.  It takes
what it awaited, changes its body, and dispatches work, whose writer goes with the
job.
-/

namespace Stepwise

namespace World

variable {world later : World} {deferred : Nat}

/-- What a step takes depends on the deferreds alone. -/
theorem takes_congr {occurrence : Value → Occurrence}
    (deferreds : later.deferreds = world.deferreds) :
    later.takes deferred occurrence = world.takes deferred occurrence := by
  unfold takes retrieve
  rw [deferreds]
  cases world.deferreds.get? deferred <;> rfl

@[simp] theorem deferreds_modifyBody (place : Place) (change : Body → Body) :
    (world.modifyBody place change).deferreds = world.deferreds := by
  cases place <;> rfl

end World

namespace Custody

variable {chronicle : Chronicle} {world : World} {stack : Stack} {inHand : List Holding}

/-- The body of a machine is its own affair. -/
theorem bodyModified (custody : Custody world.ledger chronicle [] stack) (place : Place)
    (change : Body → Body) :
    Custody (world.modifyBody place change).ledger chronicle [] stack := by
  cases place with
  | kept number => exact custody
  | started machine =>
      cases lookup : world.activations.get? machine with
      | none =>
          have same : (world.modifyBody (.started machine) change).ledger = world.ledger := by
            simp [World.modifyBody, World.modifyActivation, World.ledger,
              Store.modify_of_none lookup]
          rw [same]
          exact custody
      | some found =>
          have accords := custody.accords_of_lookup lookup
          exact custody.evolved lookup (fun _ _ => rfl) rfl rfl (fun _ _ => rfl) accords
            (.inr ⟨rfl, rfl⟩) (.inr ⟨rfl, rfl⟩) (fun _ written => written) (by simp)

/-- To take a result out of a deferred leaves it complete. -/
theorem retrieved (custody : Custody world.ledger chronicle inHand stack) (deferred : Nat)
    (rests : ∀ holding ∈ inHand, holding.rests = true) :
    Custody (world.retrieve deferred).1.ledger chronicle inHand stack := by
  unfold World.retrieve
  split
  · exact custody
  · next found lookup =>
      refine custody.retouched rests ?_
      intro present presentLookup
      cases progress : present.progress with
      | pending | taken =>
          have same : present.afterRetrieval = present := by
            simp [Deferred.afterRetrieval, progress]
          rw [same]
          exact ⟨.refl present, rfl⟩
      | complete outcome =>
          have changed : present.afterRetrieval = { present with progress := .taken } := by
            simp [Deferred.afterRetrieval, progress]
          rw [changed]
          refine ⟨⟨by simp [Deferred.isComplete, progress], ?_, fun _ => rfl⟩, rfl⟩
          intro fate agrees
          rw [progress] at agrees
          simp only [Progress.Agrees] at agrees ⊢
          simp [agrees]

end Custody

namespace State

variable {chronicle : Chronicle} {world : World} {stack : Stack}

/-- Work is dispatched: its writer goes with the job.  What waits for the dispatch
must be able to wait beside whatever the work brings about. -/
theorem dispatching_inOrder {target : Target} {infallible : Bool} {work : Program}
    {waiting : Nat → Stack} (launcher : Option (Place × Nat))
    (custody : Custody world.ledger chronicle [] stack)
    (waits : ∀ later sequel inHand, Custody later sequel inHand stack →
      ((later.deferreds.get? world.deferreds.size).isSome = true ∧
        ∀ found, sequel.work world.deferreds.size = some found → found.launcher = launcher) →
      Custody later sequel inHand (waiting world.deferreds.size)) :
    (dispatching world stack target infallible work waiting).InOrder
      (chronicle.afterAll (world.dispatch target work launcher)) := by
  have dispatched : Custody world.newDeferred.1.ledger
      (chronicle.after (.dispatched world.deferreds.size work launcher))
      [.continuation .loose (.job world.deferreds.size work)] stack := by
    refine custody.added (by simp) rfl rfl ?_ ⟨launcher, by simp [Chronicle.after]⟩
    intro other different
    have older : other ≠ world.deferreds.size := different
    simp [Chronicle.after, older]
  have waited := waits _ _ _ dispatched ⟨by simp [World.newDeferred, World.ledger],
    fun found recorded => by
      simp only [Chronicle.after, Chronicle.work_addWork, if_true, Option.some.injEq]
        at recorded
      rw [← recorded]⟩
  have queueing (pool : Nat) :
      (if world.acceptsJobs pool then
        State.replying (world.newDeferred.1.modifyPool pool
          (·.push (.job world.deferreds.size work))) (waiting world.deferreds.size) .done
      else
        ⟨world.newDeferred.1, .recording .dispatchedAfterShutdown ::
            waiting world.deferreds.size,
          .task (.discard (.continuation (.job world.deferreds.size work)))⟩).InOrder
        (chronicle.after (.dispatched world.deferreds.size work launcher)) := by
    split
    · next accepts =>
        simp only [World.acceptsJobs] at accepts
        cases lookup : world.pools.get? pool with
        | none => simp [lookup] at accepts
        | some found =>
            change Custody (world.newDeferred.1.modifyPool pool _).ledger _ []
              (waiting world.deferreds.size)
            refine waited.onPool lookup ?_ (by simp) ?_
            · intro asset
              simp [Pool.push, Holding.assets]
            · intro job member
              rcases List.mem_append.mp member with old | new
              · exact .inl old
              · rw [List.mem_singleton.mp new]
                exact .inr ⟨launcher, by simp [Chronicle.after]⟩
    · exact Custody.light waited rfl
  cases target with
  | immediate =>
      have begun : Custody world.newDeferred.1.ledger
          ((chronicle.after (.dispatched world.deferreds.size work launcher)).onFate
            world.deferreds.size .running)
          [.working world.deferreds.size] (waiting world.deferreds.size) :=
        waited.refated .running rfl rfl ⟨work, launcher, by simp [Chronicle.after]⟩
      exact Custody.push begun
  | pool pool => exact queueing pool
  | context =>
      cases context : world.thread.context with
      | none =>
          simp only [dispatching, World.dispatch, World.reaches, context, Option.isSome_none,
            Bool.false_eq_true, if_false]
          exact custody
      | some pool =>
          simp only [dispatching, World.dispatch, World.reaches, context, Option.isSome_some,
            reduceCtorEq, if_false, if_true]
          exact queueing pool

/-- Work whose outcome a step is about to await is dispatched. -/
theorem dispatching_launched_inOrder {target : Target} {infallible : Bool} {work : Program}
    (place : Place) (number : Nat) (custody : Custody world.ledger chronicle [] stack) :
    (dispatching world stack target infallible work
      fun deferred => .launched place number deferred :: stack).InOrder
        (chronicle.afterAll (world.dispatch target work (some (place, number)))) :=
  dispatching_inOrder _ custody fun _ _ _ held _ => held.light rfl

theorem launchingStage_inOrder {pipeline : Pipeline} {number : Nat} {input : Value}
    (place : Place) (custody : Custody world.ledger chronicle [] stack) :
    (launchingStage world stack place pipeline number input).InOrder
      (chronicle.afterAll (world.launch place pipeline number input)) := by
  unfold launchingStage World.launch
  cases pipeline.stage? number with
  | none => exact custody
  | some stage =>
      have used := custody.bodyModified place fun _ => .pipeline (pipeline.useStage number)
      cases place <;> exact dispatching_launched_inOrder _ number used

/-- A step that takes what it awaited goes on in good custody, whatever it shows. -/
theorem takingAwaited_inOrder {deferred : Nat} {proceed : World → Value → State}
    {occurrence : Value → Occurrence} (custody : Custody world.ledger chronicle [] stack)
    (quiet : ∀ value, chronicle.after (occurrence value) = chronicle)
    (goesOn : ∀ taken value, Custody taken.ledger chronicle [] stack →
      (proceed taken value).InOrder chronicle) :
    (takingAwaited world stack deferred proceed).InOrder
      (chronicle.afterAll (world.takes deferred occurrence)) := by
  have taken := custody.retrieved deferred (by simp)
  unfold takingAwaited World.takes
  cases retrieval : world.retrieve deferred with
  | mk after outcome =>
      rw [retrieval] at taken
      cases outcome with
      | ok value =>
          simp only [Chronicle.afterAll_cons, Chronicle.afterAll_nil, quiet]
          exact goesOn after value taken
      | error error => exact taken

theorem steppingPipeline_inOrder {pipeline : Pipeline} {place : Place} (position : Position)
    (body : world.body? place = some (.pipeline pipeline))
    (custody : Custody world.ledger chronicle [] stack) :
    (steppingPipeline world stack place pipeline position).InOrder
      (chronicle.afterAll (world.stepped place position)) := by
  unfold steppingPipeline World.stepped
  rw [body]
  cases position with
  | finished => exact custody
  | notStarted =>
      simp only
      cases seed : pipeline.seed with
      | none => exact custody
      | some value =>
          have moved := custody.bodyModified place fun _ =>
            .pipeline { pipeline with seed := none }
          simp only
          split
          · next empty =>
              have unlaunched : world.launch place pipeline 0 value = [] := by
                simp [World.launch, Pipeline.stage?, List.isEmpty_iff.mp empty]
              rw [unlaunched]
              exact moved
          · have same : (world.modifyBody place fun _ =>
                .pipeline { pipeline with seed := none }).launch place
                  { pipeline with seed := none } 0 value =
                world.launch place pipeline 0 value := by
              cases place <;> rfl
            rw [← same]
            exact launchingStage_inOrder place moved
  | suspension number =>
      simp only
      cases awaited : pipeline.awaited with
      | none => exact custody
      | some deferred =>
          have resumed := custody.bodyModified place fun _ =>
            .pipeline { pipeline with awaited := none }
          simp only
          rw [← World.takes_congr (World.deferreds_modifyBody place _)]
          refine takingAwaited_inOrder resumed (fun _ => rfl) ?_
          intro taken value held
          exact Custody.light held rfl

theorem inspectedValue_inOrder {place : Place} {number : Nat} {value : Value}
    {reply : Reply} (custody : Custody world.ledger chronicle [] stack) :
    (inspectedValue world stack place number value).InOrder
      (chronicle.afterAll (world.returned reply (.inspected place number value))) := by
  simp only [inspectedValue, World.returned]
  cases world.body? place with
  | none => exact custody
  | some found =>
      cases found with
      | custom step => exact custody
      | cubeRoot demo => exact custody
      | pipeline pipeline =>
          simp only
          cases pipeline.following? number with
          | none => exact custody
          | some next => exact launchingStage_inOrder place custody

theorem launchingWork_inOrder {demo : CubeRoot} {number : Nat} {work : Program}
    (place : Place) (custody : Custody world.ledger chronicle [] stack) :
    (launchingWork world stack place demo number work).InOrder
      (chronicle.afterAll (world.launchWork place demo number work)) := by
  have counted := custody.bodyModified place fun _ =>
    .cubeRoot { demo with dispatched := demo.dispatched + 1 }
  cases place <;> exact dispatching_launched_inOrder _ number counted

theorem steppingCubeRoot_inOrder {demo : CubeRoot} {place : Place} (position : Position)
    (body : world.body? place = some (.cubeRoot demo))
    (custody : Custody world.ledger chronicle [] stack) :
    (steppingCubeRoot world stack place demo position).InOrder
      (chronicle.afterAll (world.stepped place position)) := by
  unfold steppingCubeRoot World.stepped
  rw [body]
  cases position with
  | finished => exact custody
  | notStarted => exact Custody.light custody rfl
  | suspension number =>
      match number with
      | 0 =>
          simp only
          cases awaited : demo.awaitedCube with
          | none => exact custody
          | some deferred =>
              simp only
              rw [← World.takes_congr (World.deferreds_modifyBody place _)]
              refine takingAwaited_inOrder (custody.bodyModified place _) (fun _ => rfl) ?_
              intro taken value held
              exact Custody.light (held.bodyModified place _) rfl
      | 1 =>
          simp only
          cases awaited : demo.awaitedRoot with
          | none => exact custody
          | some deferred =>
              simp only
              rw [← World.takes_congr (World.deferreds_modifyBody place _)]
              refine takingAwaited_inOrder (custody.bodyModified place _) (fun _ => rfl) ?_
              intro taken value held
              exact Custody.light (held.bodyModified place _) rfl
      | _ + 2 => exact custody

theorem announcedProgress_inOrder {place : Place} {announcement : Announcement}
    {reply : Reply} (custody : Custody world.ledger chronicle [] stack) :
    (announcedProgress world stack place announcement).InOrder
      (chronicle.afterAll (world.returned reply (.announced place announcement))) := by
  simp only [announcedProgress, World.returned]
  cases world.body? place with
  | none => exact custody
  | some found =>
      cases found with
      | custom step => exact custody
      | pipeline pipeline => exact custody
      | cubeRoot demo =>
          cases announcement with
          | started => exact launchingWork_inOrder place custody
          | cube _ => exact launchingWork_inOrder place custody
          | root _ => exact Custody.light custody rfl
          | finished => exact custody

theorem runningStep_inOrder {place : Place} {position : Position}
    (custody : Custody world.ledger chronicle [] stack) :
    (runningStep world stack place position).InOrder
      (chronicle.afterAll (world.performed (.step place position))) := by
  unfold runningStep
  cases body : world.body? place with
  | none =>
      simp only [World.performed, World.stepped, body]
      exact custody
  | some found =>
      cases found with
      | custom step =>
          simp only [World.performed, World.stepped, body]
          exact custody
      | pipeline pipeline => exact steppingPipeline_inOrder position body custody
      | cubeRoot demo => exact steppingCubeRoot_inOrder position body custody

/-- Each task keeps order. -/
theorem carryingOut_inOrder {task : Task}
    (custody : Custody world.ledger chronicle task.holdings stack) :
    (carryingOut world stack task).InOrder (chronicle.afterAll (world.performed task)) := by
  cases task with
  | run continuation => exact runningContinuation_inOrder custody
  | discard owned => exact discarding_inOrder custody
  | publish deferred outcome => exact publishing_inOrder custody
  | schedule scheduler continuation => exact scheduling_inOrder custody
  | resume machine => exact resuming_inOrder custody
  | advance machine => exact advancing_inOrder custody
  | step place position => exact runningStep_inOrder custody
  | finish machine outcome => exact finishing_inOrder custody

end State

end Stepwise
