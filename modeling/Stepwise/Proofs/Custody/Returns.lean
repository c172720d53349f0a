import Stepwise.Proofs.Custody.Steps

/-!
# Replies and panics keep order

Whoever gets a reply, or is left by a panic, passes on what its frame held: a step
its claim, a work the writer of its deferred, a batch what is still to be fired.
-/

namespace Stepwise.State

variable {chronicle : Chronicle} {world : World} {stack : Stack} {machine deferred : Nat}

/-- A step that has ended leaves its claim in hand, and its end in the machine's life. -/
theorem ended_life {found : Activation} (ending : StepEnd)
    (custody : Custody world.ledger chronicle [.stepping machine] stack)
    (lookup : world.ledger.activations.get? machine = some found) :
    (chronicle.after (.ended machine ending)).life machine =
      { chronicle.life machine with step := some (found.position, some ending) } := by
  obtain ⟨again, lookupAgain, step⟩ := custody.rightful_head
  cases lookup.symm.trans lookupAgain
  simp [Chronicle.after, step]

/-- A claim whose step has ended is passed on, while the machine changes as the end of
the step says. -/
theorem ended_custody {found : Activation} {change : Activation → Activation}
    {new : Holding} {given : Asset} (ending : StepEnd)
    (custody : Custody world.ledger chronicle [.stepping machine] stack)
    (claimed : Custody.Claimed world.ledger chronicle stack machine found)
    (is : new.assets = [given])
    (forMachine : given ∈ [Asset.resumption machine, .claim machine, .share machine])
    (kept : (change found).observer = found.observer ∧
      (change found).cancelled = found.cancelled ∧ (change found).owners = found.owners)
    (status : match (change found).status with
      | .idle => given = .resumption machine ∧
          (change found).Waits ((chronicle.after (.ended machine ending)).life machine)
      | .running => given = .claim machine ∨ (given = .share machine ∧
          ((chronicle.after (.ended machine ending)).life machine).Violated)
      | .finished => False)
    (rightful : new.Rightful (world.modifyActivation machine change).ledger
      (chronicle.after (.ended machine ending))) :
    Custody (world.modifyActivation machine change).ledger
      (chronicle.after (.ended machine ending)) [new] stack := by
  obtain ⟨lookup, resumptions, claims, shares, -, observer, untold, cancelled⟩ := claimed
  have stillUntold : ((chronicle.after (.ended machine ending)).life machine).told = none := by
    simp [Chronicle.after, untold]
  have observed : (change found).Observed
      ((chronicle.after (.ended machine ending)).life machine) := by
    simpa [Activation.Observed, Chronicle.after, kept.1] using observer
  refine custody.passed lookup ⟨resumptions, claims⟩ rfl (by simp) is forMachine
    (fun other different => by simp [Chronicle.after, different])
    (by simp [Chronicle.after]) rfl kept.1 ⟨?_, ?_, ?_⟩
    rightful
  · simp [kept.2.1, cancelled, Chronicle.after]
  · rw [kept.2.2, ← shares]
    simp only [List.mem_cons, List.not_mem_nil, or_false] at forMachine
    rcases forMachine with rfl | rfl | rfl <;> simp [Nat.add_comm]
  · cases state : (change found).status with
    | idle =>
        simp only [state] at status ⊢
        obtain ⟨rfl, waits⟩ := status
        simp [observed, stillUntold, waits]
    | running =>
        simp only [state] at status ⊢
        rcases status with rfl | ⟨rfl, violated⟩
        · simp [observed, stillUntold]
        · simp [observed, stillUntold, violated]
    | finished =>
        simp only [state] at status

/-- A claim whose step has ended settles the outcome that the end explains. -/
theorem settled_custody {outcome : Outcome} (ending : StepEnd)
    (custody : Custody world.ledger chronicle [.stepping machine] stack)
    (explains : ((chronicle.after (.ended machine ending)).life machine).Explains outcome) :
    Custody world.ledger (chronicle.after (.ended machine ending))
      [.finishing machine outcome] stack := by
  obtain ⟨found, claimed⟩ := custody.claimed machine rfl
  have unchanged : (world.modifyActivation machine id).ledger = world.ledger :=
    Ledger.modify_activation_id world.ledger machine
  rw [← unchanged]
  exact ended_custody ending custody claimed rfl (by simp) ⟨rfl, rfl, rfl⟩
    (by simp [claimed.status]) explains

/-- A claim whose step awaits a deferred becomes the resumption that is registered on
it. -/
theorem suspended_custody {found : Activation} {resumeAt : Nat}
    (custody : Custody world.ledger chronicle [.stepping machine] stack)
    (claimed : Custody.Claimed world.ledger chronicle stack machine found)
    (awaits : ((chronicle.after (.ended machine
      (.returned (.await resumeAt deferred)))).life machine).Awaits resumeAt deferred) :
    Custody
      (((world.modifyActivation machine
        ({ · with position := .suspension resumeAt })).record
          (.suspended machine (.suspension resumeAt))).modifyActivation machine
            (·.suspend deferred)).ledger
      (chronicle.after (.ended machine (.returned (.await resumeAt deferred))))
      [.continuation (.registered deferred) (.handOver found.scheduler machine)] stack := by
  have present : world.activations.get? machine = some found := claimed.lookup
  have once : (((world.modifyActivation machine
        ({ · with position := .suspension resumeAt })).record
          (.suspended machine (.suspension resumeAt))).modifyActivation machine
            (·.suspend deferred)).ledger =
      (world.modifyActivation machine fun activation =>
        { activation with position := .suspension resumeAt }.suspend deferred).ledger := by
    simp only [World.ledger, World.modifyActivation, World.record, Store.modify_modify]
  rw [once]
  refine ended_custody _ custody claimed rfl (by simp) ⟨rfl, rfl, rfl⟩
    ⟨rfl, .inr ⟨resumeAt, deferred, rfl, rfl, awaits⟩⟩ ?_
  exact ⟨{ found with position := .suspension resumeAt }.suspend deferred,
    by simp [World.modifyActivation, World.ledger, present], rfl, rfl⟩

/-- An ended step is followed by the end of its machine, the next step, or a suspension,
unless it broke the protocol. -/
theorem stepped_inOrder {result : StepResult}
    (custody : Custody world.ledger chronicle [.stepping machine] stack) :
    (stepped world stack machine result).InOrder
      (chronicle.after (.ended machine (.returned result))) := by
  obtain ⟨found, claimed⟩ := custody.claimed machine rfl
  have present : world.activations.get? machine = some found := claimed.lookup
  have life := ended_life (.returned result) custody claimed.lookup
  cases result with
  | complete value =>
      exact settled_custody _ custody (.completed (by rw [life]))
  | fail error =>
      simp only [stepped]
      split
      · next fatal =>
          refine dropping_inOrder _ ?_
          have unchanged : (world.modifyActivation machine id).ledger = world.ledger :=
            Ledger.modify_activation_id world.ledger machine
          change Custody world.ledger _ [.share machine] stack
          rw [← unchanged]
          refine ended_custody _ custody claimed rfl (by simp) ⟨rfl, rfl, rfl⟩ ?_ trivial
          simp only [id, claimed.status]
          exact .inr ⟨trivial, found.position, error, by rw [life], fatal⟩
      · next ordinary =>
          exact settled_custody _ custody (.failed (by rw [life]) (by simpa using ordinary))
  | await resumeAt deferred =>
      have awaits : ((chronicle.after (.ended machine
          (.returned (.await resumeAt deferred)))).life machine).Awaits resumeAt deferred :=
        ⟨found.position, by rw [life]⟩
      simp only [stepped]
      split
      · next complete =>
          refine ended_custody _ custody claimed rfl (by simp) ⟨rfl, rfl, rfl⟩
            (by simp [claimed.status]) ?_
          refine ⟨{ found with position := .suspension resumeAt },
            by simp [World.modifyActivation, World.ledger, present],
            .inr ⟨resumeAt, deferred, rfl, awaits, complete⟩⟩
      · next incomplete =>
          simp only [present, Option.map_some, Option.getD_some]
          have suspended := suspended_custody custody claimed awaits
          refine registering_inOrder suspended rfl (fun complete => absurd complete incomplete)
            fun _ => suspended.rightful_head

/-- A step that panicked ends its machine. -/
theorem stepPanicked_inOrder {payload : Payload}
    (custody : Custody world.ledger chronicle [.stepping machine] stack) :
    (stepPanicked world stack machine payload).InOrder
      (chronicle.after (.ended machine (.panicked payload))) := by
  obtain ⟨found, claimed⟩ := custody.claimed machine rfl
  have present : world.activations.get? machine = some found := claimed.lookup
  have life := ended_life (.panicked payload) custody claimed.lookup
  simp only [stepPanicked, present, Option.map_some, Option.getD_some]
  exact settled_custody _ custody (.panicked (by rw [life]))

/-- A work that has ended publishes its outcome. -/
theorem worked_inOrder {result : Except Failure Value}
    (custody : Custody world.ledger chronicle [.working deferred] stack) :
    (worked world stack deferred result).InOrder
      (chronicle.after (.worked deferred result)) := by
  obtain ⟨program, launcher, recorded⟩ := custody.rightful_head
  have fate (outcome : Outcome) (same : (Fate.ended result).outcome? = some outcome) :
      Custody world.ledger (chronicle.onFate deferred (.ended result))
        [.publication deferred outcome] stack := by
    refine custody.refated _ rfl rfl ?_
    intro work ended
    simp only [Chronicle.work_onFate, if_true, recorded, Option.map_some,
      Option.some.injEq] at ended
    rw [← ended]
    exact same
  cases result <;> exact fate _ rfl

theorem started_inOrder {handle : Name}
    (custody : Custody world.ledger chronicle [.share machine] stack) :
    (started world stack handle machine).InOrder chronicle := by
  have named := custody.handleNamed handle
  refine disposing_inOrder _ ?_
  change Custody { world.ledger with handles := world.handles.insert handle machine } _ _ _
  have present : world.ledger.handles = world.handles := rfl
  rw [present] at named
  cases lookup : world.handles.find? handle with
  | none => rw [lookup] at named; exact named
  | some other => rw [lookup] at named; exact named

/-- A thread blocks on a public deferred; what it kept for its run goes with it. -/
theorem waiting_inOrder {run : Option (Nat × Nat)} {before : List Holding}
    (custody : Custody world.ledger chronicle before stack)
    (balance : ∀ asset, Holding.amount asset before =
      (Waiter.assets ⟨deferred, .waiting, run⟩).count asset)
    (blocks : world.ledger.Blocks chronicle ⟨deferred, .waiting, run⟩) :
    (waiting world stack deferred run).InOrder chronicle := by
  have blocked := custody.blocked rfl balance blocks
  refine registering_inOrder (blocked.light rfl) rfl ?_ fun _ => blocked.rightful_head
  intro complete
  refine ⟨deferred, blocked.rightful_head, ?_⟩
  obtain ⟨found, present⟩ := Option.isSome_iff_exists.mp blocks.isPublic.1
  have lookup : world.deferreds.get? deferred = some found := present
  exact ⟨found, present, by simpa [World.isComplete, lookup] using complete⟩

/-! ## Event loops -/

/-- The first continuation of a loop comes into hand. -/
theorem loopPopped {loop : Nat} {continuation : Continuation} {rest : List Continuation}
    (custody : Custody world.ledger chronicle [] stack)
    (queue : world.loopQueue loop = continuation :: rest) :
    Custody (world.modifyLoop loop ({ · with queue := rest })).ledger chronicle
      [.continuation .loose continuation] stack := by
  simp only [World.loopQueue] at queue
  cases lookup : world.loops.get? loop with
  | none => simp [lookup] at queue
  | some found =>
      simp only [lookup, Option.map_some, Option.getD_some] at queue
      have queued : (Site.queued (.loop loop)).Admits world.ledger chronicle continuation :=
        custody.kept _ _ ⟨found, lookup, by simp [queue]⟩
      refine custody.onLoop lookup ?_ ?_ ?_
      · intro asset
        simp [queue, Holding.assets, Nat.add_comm]
      · intro holding member
        rw [List.mem_singleton.mp member]
        exact queued.dequeue
      · intro other member
        exact .inl (by simp [queue, member])

/-- All continuations of a loop come into hand as the loop dies. -/
theorem loopEmptied {loop : Nat} (custody : Custody world.ledger chronicle [] stack) :
    Custody (world.modifyLoop loop ({ · with queue := [], alive := false })).ledger chronicle
      (((world.loopQueue loop).map Owned.continuation).flatMap Owned.holdings) stack := by
  rw [Owned.holdings_map_continuation]
  cases lookup : world.loops.get? loop with
  | none =>
      have same : (world.modifyLoop loop ({ · with queue := [], alive := false })).ledger =
          world.ledger := by
        simp [World.modifyLoop, World.ledger, Store.modify_of_none lookup]
      rw [same]
      simpa [World.loopQueue, lookup] using custody
  | some found =>
      have queue : world.loopQueue loop = found.queue := by simp [World.loopQueue, lookup]
      rw [queue]
      refine custody.onLoop lookup ?_ ?_ (by simp)
      · intro asset
        simp
      · intro holding member
        obtain ⟨continuation, queued, rfl⟩ := List.mem_map.mp member
        exact (custody.kept (.queued (.loop loop)) continuation
          ⟨found, lookup, queued⟩).dequeue

theorem parking_inOrder {name : Name} {loop : Nat} {reply : Reply}
    (custody : Custody world.ledger chronicle [] stack) :
    (parking world stack name loop reply).InOrder chronicle := by
  unfold parking World.restoreLoop
  refine disposing_inOrder _ ?_
  cases world.ownedLoops.find? name <;> exact custody

theorem parkingUnwound_inOrder {name : Name} {loop : Nat} {payload : Payload}
    (custody : Custody world.ledger chronicle [] stack) :
    (parkingUnwound world stack name loop payload).InOrder chronicle := by
  unfold parkingUnwound World.restoreLoop
  refine dropping_inOrder _ ?_
  cases world.ownedLoops.find? name <;> exact custody

theorem pumping_inOrder {drive : Drive} (custody : Custody world.ledger chronicle [] stack) :
    (pumping world stack drive).InOrder chronicle := by
  unfold pumping
  split
  · exact Custody.light custody rfl
  · next queue => exact Custody.light (loopPopped custody queue) rfl

theorem decided_inOrder {drive : Drive} {last holds : Bool}
    (custody : Custody world.ledger chronicle [] stack) :
    (decided world stack drive last holds).InOrder chronicle := by
  unfold decided
  split
  · exact parking_inOrder custody
  · split
    · exact Custody.light custody rfl
    · exact pumping_inOrder custody

theorem closingNext_inOrder {loop discarded : Nat}
    (custody : Custody world.ledger chronicle [] stack) :
    (closingNext world stack loop discarded).InOrder chronicle := by
  unfold closingNext
  split
  · have closed : Custody (world.modifyLoop loop ({ · with alive := false })).ledger chronicle
        [] stack :=
      custody.loopRetouched fun _ => rfl
    split <;> exact closed
  · next queue => exact Custody.light (loopPopped custody queue) rfl

theorem runningNext_inOrder {name : Name} {loop ran : Nat}
    (custody : Custody world.ledger chronicle [] stack) :
    (runningNext world stack name loop ran).InOrder chronicle := by
  unfold runningNext
  split
  · exact parking_inOrder custody
  · next queue => exact Custody.light (loopPopped custody queue) rfl

/-! ## All frames -/

/-- To count a call out of a runtime changes nothing that is owned. -/
theorem abort_custody {inHand : List Holding} (pool : Nat)
    (custody : Custody world.ledger chronicle inHand stack) :
    Custody (world.abort pool).ledger chronicle inHand stack :=
  custody.poolRetouched fun _ => rfl

/-- What was fired is run next, or dropped with the rest. -/
theorem fired_custody {batch : List Continuation}
    (custody : Custody world.ledger chronicle
      (batch.map (.continuation (.fired deferred))) stack) :
    Custody world.ledger chronicle ((batch.map Owned.continuation).flatMap Owned.holdings)
      stack := by
  rw [Owned.holdings_map_continuation]
  refine custody.exchange (fun asset => by simp) ?_
  intro holding member
  obtain ⟨continuation, fired, rfl⟩ := List.mem_map.mp member
  have admits : (Site.fired deferred).Admits world.ledger chronicle continuation :=
    custody.rightful (.continuation (.fired deferred) continuation)
      (List.mem_append_left _ (List.mem_map.mpr ⟨continuation, fired, rfl⟩))
  exact admits.unfire

/-- The first continuation of a batch is run, and the rest is kept. -/
theorem firing_custody {continuation : Continuation} {rest : List Continuation}
    (custody : Custody world.ledger chronicle
      ((continuation :: rest).map (.continuation (.fired deferred))) stack) :
    Custody world.ledger chronicle
      (.continuation .loose continuation :: rest.map (.continuation (.fired deferred)))
      stack := by
  have admits : (Site.fired deferred).Admits world.ledger chronicle continuation :=
    custody.rightful_head
  refine custody.exchange (fun asset => by simp [Holding.assets]) ?_
  intro holding member
  rcases List.mem_cons.mp member with rfl | later
  · exact admits.unfire
  · exact custody.rightful holding (List.mem_append_left _ (List.mem_cons_of_mem _ later))

/-- A reply to any frame keeps order. -/
theorem returning_inOrder {frame : Frame} {reply : Reply}
    (custody : Custody world.ledger chronicle frame.holdings stack) :
    (returning world stack reply frame).InOrder
      (chronicle.afterAll (world.returned reply frame)) := by
  cases frame with
  | program next => exact custody
  | answering settled => exact custody
  | recording record => exact custody
  | placing receipt raw deferred =>
      have held : Custody world.ledger chronicle [.receipt deferred] stack := custody
      exact (held.receiptNamed receipt raw held.rightful_head).forget rfl
  | firing deferred rest =>
      cases rest with
      | nil => exact awakening_inOrder custody
      | cons continuation rest => exact Custody.push (firing_custody custody)
  | waking deferred poisons =>
      have held : Custody world.ledger chronicle [] stack := custody
      exact held.wakerChanged fun _ => ⟨rfl, rfl⟩
  | working deferred => exact worked_inOrder custody
  | stepping machine => exact stepped_inOrder custody
  | releasing machine => exact custody
  | inspected place number value => exact inspectedValue_inOrder custody
  | announced place announcement => exact announcedProgress_inOrder custody
  | launched place number deferred => exact custody.bodyModified place _
  | starting handle machine => exact started_inOrder custody
  | blocking machine pool deferred =>
      have held : Custody world.ledger chronicle
          [.share machine, .receipt deferred, .promise machine deferred] stack := custody
      refine waiting_inOrder (abort_custody pool held)
        (fun asset => by simp [Waiter.assets, Holding.assets])
        ⟨?_, fun awake => (awake rfl).elim, ?_⟩
      · exact held.rightful (.receipt deferred) (by simp)
      · intro _ _ run
        cases run
        exact held.rightful (.promise machine deferred) (by simp)
  | disposing rest =>
      cases rest with
      | nil => exact custody
      | cons owned rest => exact Custody.push custody
  | unwinding rest payload =>
      cases rest with
      | nil => exact custody
      | cons owned rest => exact Custody.push custody
  | context saved pool => exact abort_custody pool custody
  | thread saved => exact custody
  | attempting => exact custody
  | worker pool number saved => exact custody.poolRetouched fun _ => rfl
  | turning name loop => exact parking_inOrder custody
  | looping name loop ran => exact runningNext_inOrder custody
  | deciding drive last => exact decided_inOrder custody
  | pumping drive => exact Custody.light custody rfl
  | closing loop discarded => exact closingNext_inOrder custody

/-- A panic through any frame keeps order. -/
theorem unwindingThrough_inOrder {frame : Frame} {payload : Payload}
    (custody : Custody world.ledger chronicle frame.holdings stack) :
    (unwindingThrough world stack payload frame).InOrder
      (chronicle.afterAll (World.unwound payload frame)) := by
  cases frame with
  | program next => exact custody
  | answering settled => exact custody
  | recording record => exact custody
  | placing receipt raw deferred =>
      have held : Custody world.ledger chronicle [.receipt deferred] stack := custody
      exact held.forget rfl
  | firing deferred rest => exact dropping_inOrder _ (fired_custody custody)
  | waking deferred poisons =>
      have held : Custody world.ledger chronicle [] stack := custody
      exact held.wakerChanged fun _ => ⟨rfl, rfl⟩
  | working deferred => exact worked_inOrder custody
  | stepping machine => exact stepPanicked_inOrder custody
  | releasing machine => exact Custody.push custody
  | inspected place number value => exact custody
  | announced place announcement => exact custody
  | launched place number deferred => exact custody
  | starting handle machine => exact Custody.push custody
  | blocking machine pool deferred =>
      have held : Custody world.ledger chronicle
          [.share machine, .receipt deferred, .promise machine deferred] stack := custody
      have share : Custody world.ledger chronicle [.share machine] stack :=
        held.exchange (fun asset => by simp [Holding.assets])
          fun holding member => held.rightful holding (by simp_all)
      exact Custody.push (abort_custody pool share)
  | disposing rest => exact dropping_inOrder _ custody
  | unwinding rest payload => trivial
  | context saved pool => exact abort_custody pool custody
  | thread saved => exact custody
  | attempting => exact custody
  | worker pool number saved => exact custody.poolRetouched fun _ => rfl
  | turning name loop => exact parkingUnwound_inOrder custody
  | looping name loop ran => exact parkingUnwound_inOrder custody
  | deciding drive last => exact parkingUnwound_inOrder custody
  | pumping drive => exact parkingUnwound_inOrder custody
  | closing loop discarded => exact dropping_inOrder _ (loopEmptied custody)

end Stepwise.State
