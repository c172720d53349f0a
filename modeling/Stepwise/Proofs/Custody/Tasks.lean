import Stepwise.Proofs.Custody.Order

/-!
# Tasks keep order

Each task hands over what it holds: a publication its continuations, a resumption a
claim, a claim the outcome of its machine.  In a state that is in order no resumption
finds its machine running or finished, or what it awaited still pending, so the
driver's checks never fail.
-/

namespace Stepwise.State

variable {chronicle : Chronicle} {world : World} {stack : Stack} {machine deferred : Nat}

/-- A complete deferred is complete in the world. -/
theorem isComplete_of_completed (completed : world.ledger.Completed deferred) :
    world.isComplete deferred = true := by
  obtain ⟨found, lookup, complete⟩ := completed
  have present : world.deferreds.get? deferred = some found := lookup
  simp [World.isComplete, present, complete]

theorem publishing_inOrder {outcome : Outcome}
    (custody : Custody world.ledger chronicle [.publication deferred outcome] stack) :
    (publishing world stack deferred outcome).InOrder chronicle := by
  obtain ⟨⟨found, lookup, -⟩, -⟩ := custody.pending_of_writer deferred
    (by simp [Holding.assets])
  have present : world.deferreds.get? deferred = some found := lookup
  simp only [publishing, present]
  exact Custody.push (custody.published lookup)

/-- To register a continuation, it must be right to run it if the deferred is
complete, and right to leave it there if not. -/
theorem registering_inOrder {holding : Holding} {continuation : Continuation}
    (custody : Custody world.ledger chronicle [holding] stack)
    (assets : holding.assets = continuation.assets)
    (ready : world.isComplete deferred = true →
      Site.loose.Admits world.ledger chronicle continuation)
    (early : world.isComplete deferred = false →
      (Site.registered deferred).Admits world.ledger chronicle continuation) :
    (registering world stack deferred continuation).InOrder chronicle := by
  unfold registering
  by_cases complete : world.isComplete deferred = true
  · rw [if_pos complete]
    exact custody.become assets.symm (ready complete)
  · have pending : world.isComplete deferred = false := by simpa using complete
    have found : ∃ found, world.deferreds.get? deferred = some found ∧
        found.isComplete = false := by
      simp only [World.isComplete] at pending
      cases lookup : world.deferreds.get? deferred with
      | none => simp [lookup] at pending
      | some found => exact ⟨found, rfl, by simpa [lookup] using pending⟩
    obtain ⟨found, lookup, incomplete⟩ := found
    rw [if_neg complete]
    have held : Custody world.ledger chronicle
        [.continuation (.registered deferred) continuation] stack :=
      custody.become assets.symm (early pending)
    exact held.registered lookup incomplete

theorem awakening_inOrder (custody : Custody world.ledger chronicle [] stack) :
    (awakening world stack deferred).InOrder chronicle := by
  unfold awakening
  split
  · exact custody
  · next found lookup =>
      split
      · trivial
      · exact custody
      · exact custody
      · exact Custody.light (custody.wakerChanged fun _ => ⟨rfl, rfl⟩) rfl

/-- A resumption finds its machine idle, and what it awaited complete. -/
theorem resuming_inOrder
    (custody : Custody world.ledger chronicle [.resuming machine] stack) :
    (resuming world stack machine).InOrder chronicle := by
  obtain ⟨found, suspended⟩ := custody.suspended machine rfl
  obtain ⟨lookup, resumptions, claims, shares, status, observer, untold, cancelled, waits⟩ :=
    suspended
  obtain ⟨again, lookupAgain, ready⟩ := custody.rightful_head
  cases lookup.symm.trans lookupAgain
  have claimed (rightful : (Holding.advancing machine).Rightful
      (world.modifyActivation machine fun activation =>
        { activation with status := .running, pending := none }).ledger chronicle) :
      Custody
        (world.modifyActivation machine fun activation =>
          { activation with status := .running, pending := none }).ledger
        chronicle [.advancing machine] stack := by
    refine custody.passed lookup ⟨resumptions, claims⟩ rfl (by simp) rfl (by simp)
      (fun _ _ => rfl) rfl rfl rfl ⟨cancelled, ?_, ?_⟩ rightful
    · simp only [List.count_singleton, beq_iff_eq, reduceCtorEq, if_false, if_true]
      omega
    · exact ⟨rfl, by simp, untold, fun _ => observer, by simp⟩
  have present : world.activations.get? machine = some found := lookup
  simp only [resuming, present, status]
  rcases waits with ⟨none, notStarted, unstepped⟩ | ⟨resumeAt, deferred, some, position, awaits⟩
  · simp only [none]
    refine claimed ⟨{ found with status := .running, pending := Option.none },
      by simp [World.ledger, World.modifyActivation, present],
      .inl ⟨notStarted, ?_, unstepped⟩⟩
    rcases ready with ⟨-, uncancelled⟩ | ⟨deferred, some, -⟩
    · exact uncancelled
    · simp [none] at some
  · have completed : world.ledger.Completed deferred := by
      rcases ready with ⟨none, -⟩ | ⟨other, pending, completed⟩
      · simp [some] at none
      · cases some.symm.trans pending
        exact completed
    have complete := isComplete_of_completed completed
    simp only [some]
    split
    · exact claimed ⟨{ found with status := .running, pending := Option.none },
        by simp [World.ledger, World.modifyActivation, present],
        .inr ⟨resumeAt, deferred, position, awaits, complete⟩⟩
    · next pending => exact absurd complete pending

/-- A claim calls the next step, unless its machine was cancelled. -/
theorem advancing_inOrder
    (custody : Custody world.ledger chronicle [.advancing machine] stack) :
    (advancing world stack machine).InOrder
      (chronicle.afterAll (world.performed (.advance machine))) := by
  obtain ⟨found, lookup, resumptions, claims, shares, status, observer, untold, cancelled⟩ :=
    custody.claimed machine rfl
  obtain ⟨again, lookupAgain, ready⟩ := custody.rightful_head
  cases lookup.symm.trans lookupAgain
  have present : world.activations.get? machine = some found := lookup
  simp only [advancing, World.performed, present]
  by_cases cancel : found.cancelled = true
  · simp only [cancel, if_true, Chronicle.afterAll_nil]
    refine custody.become rfl ?_
    rcases ready with ⟨-, uncancelled, -⟩ | ⟨resumeAt, deferred, -, awaits, -⟩
    · simp [uncancelled] at cancel
    · exact .cancelled (cancelled.symm.trans cancel) awaits
  · rw [if_neg cancel, if_neg cancel]
    refine Custody.push ?_
    change Custody world.ledger _ [.stepping machine] stack
    rw [← Ledger.modify_activation_id world.ledger machine]
    refine custody.passed lookup ⟨resumptions, claims⟩ rfl (by simp) rfl (by simp)
      (fun other different => by simp [Chronicle.after, different])
      (by simp [Chronicle.after]) rfl rfl ⟨by simp [Chronicle.after, cancelled], ?_, ?_⟩ ⟨found, ?_, ?_⟩
    · simp only [id, List.count_singleton, beq_iff_eq, reduceCtorEq, if_false, if_true]
      omega
    · simpa [Chronicle.after, status, untold, Activation.Observed] using fun _ => observer
    · simpa using lookup
    · simp [Chronicle.after]

/-- A claim is given up for the outcome of its machine. -/
theorem finished_custody {outcome : Outcome} {observer : Observer} {held : List Holding}
    {found : Activation}
    (custody : Custody world.ledger chronicle [.finishing machine outcome] stack)
    (claimed : Custody.Claimed world.ledger chronicle stack machine found)
    (observes : found.observer = some observer)
    (amounts : ∀ asset, Holding.amount asset held = observer.assets.count asset)
    (rightful : ∀ holding ∈ held, holding.Rightful
      (world.modifyActivation machine (·.finish)).ledger
      (chronicle.after (.told machine outcome))) :
    Custody (world.modifyActivation machine (·.finish)).ledger
      (chronicle.after (.told machine outcome)) (held ++ [.share machine]) stack := by
  obtain ⟨lookup, resumptions, claims, shares, -, -, -, cancelled⟩ := claimed
  have unowned (asset : Asset)
      (member : asset ∈ [Asset.resumption machine, .claim machine, .share machine]) :
      Holding.amount asset held = 0 := by
    have counted := Custody.count_assets_of_machine found member
    rw [amounts]
    simpa [Activation.assets, observes] using counted
  refine custody.evolved lookup (fun other different => by simp [Chronicle.after, different])
    (by simp [Chronicle.after]) rfl ?_ ⟨by simp [Chronicle.after, Activation.finish, cancelled], ?_, ?_⟩
    (.inl resumptions) (.inl claims) (fun _ written => by cases written) ?_
  · intro asset other
    have emptied : found.finish.assets = [] := rfl
    have carried : found.assets = observer.assets := by simp [Activation.assets, observes]
    simp only [List.mem_cons, List.not_mem_nil, or_false, not_or] at other
    simp [emptied, carried, amounts, Holding.assets, Ne.symm other.2.1, Ne.symm other.2.2]
  · simp only [Holding.amount_append, unowned _ (List.mem_cons_self ..),
      unowned (.claim machine) (by simp), unowned (.share machine) (by simp),
      Holding.amount_cons, Holding.amount_nil, Holding.assets, List.count_singleton,
      beq_iff_eq, reduceCtorEq, if_false, if_true, Activation.finish]
    omega
  · simp only [Activation.finish, Holding.amount_append, unowned _ (List.mem_cons_self ..),
      unowned (.claim machine) (by simp)]
    simp [resumptions, claims, Holding.assets, Chronicle.after]
  · intro holding member
    rcases List.mem_append.mp member with inHand | share
    · exact rightful holding inHand
    · rw [List.mem_singleton.mp share]
      trivial

/-- A settled outcome reaches the observer, and the claim becomes a share. -/
theorem finishing_inOrder {outcome : Outcome}
    (custody : Custody world.ledger chronicle [.finishing machine outcome] stack) :
    (finishing world stack machine outcome).InOrder
      (chronicle.afterAll (world.performed (.finish machine outcome))) := by
  obtain ⟨found, claimed⟩ := custody.claimed machine rfl
  have present : world.activations.get? machine = some found := claimed.lookup
  obtain ⟨observer, observes⟩ := Option.isSome_iff_exists.mp claimed.observer.1
  simp only [finishing, World.performed, present, observes, Option.isSome_some, if_true]
  cases observer with
  | callback body =>
      have told := finished_custody custody claimed observes (fun _ => Holding.amount_nil _)
        (by simp)
      cases outcome <;> exact Custody.push told
  | writer deferred =>
      have unlaunched := custody.observed machine found deferred claimed.lookup observes
      have told : Custody (world.modifyActivation machine (·.finish)).ledger
          (chronicle.after (.told machine outcome))
          ([.publication deferred outcome] ++ [.share machine]) stack := by
        refine finished_custody custody claimed observes
          (fun _ => by simp [Holding.assets, Observer.assets]) ?_
        intro holding member
        rw [List.mem_singleton.mp member]
        intro work recorded
        have known : chronicle.work deferred = some work := recorded
        simp [unlaunched] at known
      cases outcome <;> exact Custody.push told

/-- A resumption that is dropped is given up for the end of its machine. -/
theorem abandoning_inOrder {old : Holding}
    (custody : Custody world.ledger chronicle [old] stack)
    (was : old.assets = [.resumption machine])
    (suspends : ∃ scheduler deferred, world.ledger.Suspends machine scheduler deferred) :
    (abandoning world stack machine).InOrder (chronicle.after (.abandoned machine)) := by
  obtain ⟨found, lookup, resumptions, claims, shares, status, observer, untold, cancelled,
    waits⟩ := custody.suspended machine was
  obtain ⟨scheduler, deferred, again, lookupAgain, -, pending⟩ := suspends
  cases lookup.symm.trans lookupAgain
  have awaits : ∃ resumeAt deferred, (chronicle.life machine).Awaits resumeAt deferred := by
    rcases waits with ⟨absent, -⟩ | ⟨resumeAt, awaited, -, -, awaits⟩
    · simp [absent] at pending
    · exact ⟨resumeAt, awaited, awaits⟩
  obtain ⟨resumeAt, awaited, position, step⟩ := awaits
  have present : world.activations.get? machine = some found := lookup
  simp only [abandoning, present, status]
  refine custody.passed lookup ⟨resumptions, claims⟩ was (by simp) rfl (by simp)
    (fun other different => by simp [Chronicle.after, different])
    (by simp [Chronicle.after]) rfl rfl ⟨by simp [Chronicle.after, cancelled], ?_, ?_⟩ ?_
  · simp only [List.count_singleton, beq_iff_eq, reduceCtorEq, if_false, if_true]
    omega
  · simpa [Chronicle.after, untold, Activation.Observed] using fun _ => observer
  · exact .abandoned (by simp [Chronicle.after])
      ⟨position, by simpa [Chronicle.after] using step⟩

theorem scheduling_inOrder {scheduler : Scheduler} {continuation : Continuation}
    (custody : Custody world.ledger chronicle
      [.continuation (.sent scheduler) continuation] stack) :
    (scheduling world stack scheduler continuation).InOrder chronicle := by
  have admits : (Site.sent scheduler).Admits world.ledger chronicle continuation :=
    custody.rightful_head
  have loose : Custody world.ledger chronicle [.continuation .loose continuation] stack :=
    custody.become rfl admits.loosen
  cases scheduler with
  | inline => exact loose
  | discard => exact loose
  | pool pool =>
      simp only [scheduling]
      split
      · next accepts =>
          simp only [World.acceptsJobs] at accepts
          cases lookup : world.pools.get? pool with
          | none => simp [lookup] at accepts
          | some found =>
              change Custody (world.modifyPool pool _).ledger chronicle [] stack
              refine custody.onPool lookup ?_ (by simp) ?_
              · intro asset
                simp [Pool.push, Holding.assets]
              · intro job member
                rcases List.mem_append.mp member with old | new
                · exact .inl old
                · rw [List.mem_singleton.mp new]
                  exact .inr admits.enqueue
      · exact loose
  | loop loop =>
      simp only [scheduling]
      split
      · next accepts =>
          simp only [World.isLoopAlive] at accepts
          cases lookup : world.loops.get? loop with
          | none => simp [lookup] at accepts
          | some found =>
              change Custody (world.modifyLoop loop _).ledger chronicle [] stack
              refine custody.onLoop lookup ?_ (by simp) ?_
              · intro asset
                simp [EventLoop.push, Holding.assets]
              · intro queued member
                rcases List.mem_append.mp member with old | new
                · exact .inl old
                · rw [List.mem_singleton.mp new]
                  exact .inr admits.enqueue
      · exact Custody.light loose rfl
  | queue queue =>
      simp only [scheduling]
      split
      · next accepts =>
          simp only [World.hasQueue, decide_eq_true_eq] at accepts
          cases lookup : world.queues.get? queue with
          | none =>
              simp only [Store.get?, Store.size] at lookup accepts
              simp [accepts] at lookup
          | some found =>
              change Custody (world.modifyQueue queue _).ledger chronicle [] stack
              refine custody.onQueue lookup ?_ (by simp) ?_
              · intro asset
                simp [Holding.assets]
              · intro queued member
                rcases List.mem_append.mp member with old | new
                · exact .inl old
                · cases List.mem_singleton.mp new
                  exact .inr admits.enqueue
      · exact loose

theorem runningContinuation_inOrder {continuation : Continuation}
    (custody : Custody world.ledger chronicle [.continuation .loose continuation] stack) :
    (runningContinuation world stack continuation).InOrder
      (chronicle.afterAll (world.performed (.run continuation))) := by
  have admits : Site.loose.Admits world.ledger chronicle continuation := custody.rightful_head
  cases continuation with
  | callback body => exact custody.forget rfl
  | handOver scheduler machine => exact custody.become rfl admits
  | resumption machine =>
      obtain ⟨scheduler, deferred, ⟨found, lookup, -, pending⟩, completed⟩ := admits
      exact custody.become rfl ⟨found, lookup, .inr ⟨deferred, pending, completed⟩⟩
  | job deferred work =>
      obtain ⟨launcher, recorded⟩ := admits
      have begun : Custody world.ledger (chronicle.onFate deferred .running)
          [.working deferred] stack :=
        custody.refated .running rfl rfl ⟨work, launcher, by simp [recorded]⟩
      exact Custody.push begun
  | signal waiter => exact custody.signalled (by simp)

/-- The observer of a machine that nothing owns any more comes into hand. -/
theorem orphaned_custody {found : Activation} {held : List Holding}
    (custody : Custody world.ledger chronicle [] stack)
    (lookup : world.ledger.activations.get? machine = some found)
    (ownerless : found.owners = 0)
    (amounts : ∀ asset, Holding.amount asset held = found.assets.count asset)
    (rightful : ∀ holding ∈ held, holding.Rightful
      (world.modifyActivation machine ({ · with observer := none })).ledger chronicle) :
    Custody (world.modifyActivation machine ({ · with observer := none })).ledger chronicle
      held stack := by
  have accords := custody.accords_of_lookup lookup
  simp only [Holding.amount_nil, Nat.add_zero] at accords
  obtain ⟨cancelled, owners, status⟩ := accords
  have unowned (asset : Asset)
      (member : asset ∈ [Asset.resumption machine, .claim machine, .share machine]) :
      Holding.amount asset held = 0 := by
    rw [amounts]
    exact Custody.count_assets_of_machine found member
  have resumptions : world.ledger.total [] stack (.resumption machine) = 0 := by omega
  have claims : world.ledger.total [] stack (.claim machine) = 0 := by omega
  refine custody.evolved lookup (fun _ _ => rfl) rfl rfl ?_ ⟨cancelled, ?_, ?_⟩
    (.inr ⟨rfl, rfl⟩) (.inr ⟨rfl, rfl⟩) (fun _ written => by cases written) rightful
  · intro asset _
    have emptied : Activation.assets { found with observer := none } = [] := rfl
    simp [emptied, amounts]
  · rw [unowned _ (by simp), unowned (.claim machine) (by simp),
      unowned (.share machine) (by simp)]
    exact owners
  · rw [unowned _ (by simp), unowned (.claim machine) (by simp)]
    simp only [resumptions, claims] at status ⊢
    cases state : found.status with
    | idle => simp [state] at status
    | running =>
        simp only [state] at status ⊢
        obtain ⟨-, -, untold, -, violated⟩ := status
        exact ⟨trivial, Nat.zero_le _, untold, fun owned => absurd owned (by simp [ownerless]),
          violated⟩
    | finished =>
        simp only [state] at status ⊢
        obtain ⟨-, -, told, position, pending, -⟩ := status
        exact ⟨trivial, trivial, told, position, pending, trivial⟩

/-- A share is given up.  The last one takes the observer of a dead machine along. -/
theorem releasingShare_inOrder
    (custody : Custody world.ledger chronicle [.share machine] stack) :
    (releasingShare world stack machine).InOrder chronicle := by
  obtain ⟨found, lookup⟩ := custody.exists_of_owned machine
    (.tail _ (.tail _ (.head _))) (by simp [Holding.assets])
  have present : world.activations.get? machine = some found := lookup
  have accords := custody.accords_of_lookup lookup
  simp only [Holding.amount_cons, Holding.amount_nil, Holding.assets, List.count_singleton,
    beq_iff_eq, reduceCtorEq, if_false, if_true, Nat.add_zero] at accords
  obtain ⟨cancelled, owners, status⟩ := accords
  have released : Custody
      (world.modifyActivation machine fun activation =>
        { activation with owners := activation.owners - 1 }).ledger chronicle [] stack := by
    refine custody.evolved lookup (fun _ _ => rfl) rfl rfl ?_ ⟨cancelled, ?_, ?_⟩
      (.inr ⟨rfl, rfl⟩) (.inr ⟨rfl, rfl⟩) (fun _ written => written) (by simp)
    · intro asset other
      simp only [List.mem_cons, List.not_mem_nil, or_false, not_or] at other
      simp [Activation.assets, Holding.assets, Ne.symm other.2.2]
    · simp only [Holding.amount_nil]
      omega
    · cases state : found.status with
      | idle | finished =>
          simp only [state] at status ⊢
          exact status
      | running =>
          simp only [state] at status ⊢
          obtain ⟨resumptions, claims, untold, observer, violated⟩ := status
          exact ⟨resumptions, claims, untold, fun _ => observer (by omega), violated⟩
  simp only [releasingShare, present]
  by_cases last : found.owners ≤ 1
  · have lookupReleased : (world.modifyActivation machine fun activation =>
        { activation with owners := activation.owners - 1 }).ledger.activations.get? machine =
          some { found with owners := found.owners - 1 } := by
      simp [World.modifyActivation, World.ledger, present]
    have ownerless : found.owners - 1 = 0 := by omega
    rw [if_pos last]
    cases observes : found.observer with
    | none =>
        have emptied : Custody _ chronicle [] stack :=
          orphaned_custody released lookupReleased ownerless
            (by simp [Activation.assets, observes]) (by simp)
        exact emptied
    | some observer =>
        cases observer with
        | callback body =>
            have emptied : Custody _ chronicle [] stack :=
              orphaned_custody released lookupReleased ownerless
                (by simp [Activation.assets, observes, Observer.assets]) (by simp)
            exact emptied
        | writer deferred =>
            have unlaunched := custody.observed machine found deferred lookup observes
            have rightful (later : Ledger) :
                (Holding.writer deferred).Rightful later chronicle := by
              intro work recorded
              simp [unlaunched] at recorded
            have emptied : Custody _ chronicle [.writer deferred] stack :=
              orphaned_custody released lookupReleased ownerless
                (by simp [Activation.assets, observes, Observer.assets, Holding.assets])
                (fun holding member => List.mem_singleton.mp member ▸ rightful _)
            exact emptied
  · rw [if_neg last]
    exact released

theorem shuttingDown_inOrder {pool : Nat} (custody : Custody world.ledger chronicle [] stack) :
    (shuttingDown world stack pool).InOrder chronicle := by
  unfold shuttingDown
  split
  · exact custody
  · next found lookup =>
      split
      · trivial
      · have closed : Custody (world.modifyPool pool (·.close)).ledger chronicle
            ((found.jobs.map Owned.continuation).flatMap Owned.holdings) stack := by
          rw [Owned.holdings_map_continuation]
          refine custody.onPool lookup ?_ ?_ ?_
          · intro asset
            simp [Pool.close]
          · intro holding member
            obtain ⟨job, queued, rfl⟩ := List.mem_map.mp member
            exact (custody.kept (.queued (.pool pool)) job ⟨found, lookup, queued⟩).dequeue
          · intro job member
            cases member
        split <;> exact Custody.push (Custody.light closed rfl)

theorem discarding_inOrder {owned : Owned}
    (custody : Custody world.ledger chronicle owned.holdings stack) :
    (discarding world stack owned).InOrder
      (chronicle.afterAll (world.performed (.discard owned))) := by
  cases owned with
  | continuation dropped =>
      have held : Custody world.ledger chronicle [.continuation .loose dropped] stack := custody
      have admits : Site.loose.Admits world.ledger chronicle dropped := held.rightful_head
      cases dropped with
      | callback body => exact held.forget rfl
      | handOver scheduler machine =>
          exact abandoning_inOrder held rfl (admits.suspends rfl)
      | resumption machine => exact abandoning_inOrder held rfl (admits.suspends rfl)
      | job deferred work =>
          obtain ⟨launcher, recorded⟩ := admits
          refine held.refated .discarded rfl rfl ?_
          intro other fate
          simp only [Chronicle.work_onFate, if_true, recorded, Option.map_some,
            Option.some.injEq] at fate
          subst fate
          rfl
      | signal waiter => exact held.signalled (by simp)
  | writer deferred =>
      have held : Custody world.ledger chronicle [.writer deferred] stack := custody
      exact held.become rfl held.rightful_head
  | activation machine => exact releasingShare_inOrder custody
  | loop loop => exact Custody.light custody rfl
  | runtime pool => exact shuttingDown_inOrder custody

end Stepwise.State
