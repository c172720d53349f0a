import Stepwise.Proofs.Custody.Runs

/-!
# Resumptions

A suspended machine has one resumption, which goes from the deferred it awaits, by way
of the batch that is fired, to the machine's scheduler, and is run or dropped there.
So a resumption always finds its machine suspended and what it awaits complete: the
driver's checks for overlapping and spurious resumptions never fail.
-/

namespace Stepwise

/-- What a frame holds of continuations is a batch being fired, or is being dropped. -/
theorem Frame.exists_of_mem_holdings {frame : Frame} {site : Site}
    {continuation : Continuation}
    (member : Holding.continuation site continuation ∈ frame.holdings) :
    (∃ deferred rest, frame = .firing deferred rest ∧ site = .fired deferred ∧
      continuation ∈ rest) ∨
    (site = .loose ∧ ∃ rest, (frame = .disposing rest ∨ ∃ payload,
      frame = .unwinding rest payload) ∧ .continuation continuation ∈ rest) := by
  have dropped {rest : List Owned}
      (held : Holding.continuation site continuation ∈ rest.flatMap Owned.holdings) :
      site = .loose ∧ .continuation continuation ∈ rest := by
    obtain ⟨owned, among, held⟩ := List.mem_flatMap.mp held
    cases owned with
    | continuation other =>
        cases List.mem_singleton.mp held
        exact ⟨rfl, among⟩
    | writer _ | activation _ => cases List.mem_singleton.mp held
    | loop _ | runtime _ => cases held
  cases frame with
  | firing deferred rest =>
      obtain ⟨other, fired, same⟩ := List.mem_map.mp member
      cases same
      exact .inl ⟨deferred, rest, rfl, rfl, fired⟩
  | disposing rest =>
      obtain ⟨loose, among⟩ := dropped member
      exact .inr ⟨loose, rest, .inl rfl, among⟩
  | unwinding rest payload =>
      obtain ⟨loose, among⟩ := dropped member
      exact .inr ⟨loose, rest, .inr ⟨payload, rfl⟩, among⟩
  | _ => simp [Frame.holdings] at member

/-- A registered continuation waits for a deferred that is pending. -/
theorem Custody.isComplete_of_registered {world : World} {chronicle : Chronicle}
    {inHand : List Holding} {stack : Stack} {deferred : Nat} {continuation : Continuation}
    (custody : Custody world.ledger chronicle inHand stack)
    (holds : world.ledger.Holds (.registered deferred) continuation) :
    world.isComplete deferred = false := by
  obtain ⟨found, lookup, member⟩ := holds
  have present : world.deferreds.get? deferred = some found := lookup
  have account := custody.deferreds deferred
  simp only [Ledger.DeferredAccount, lookup] at account
  cases complete : found.isComplete with
  | false => simp [World.isComplete, present, complete]
  | true =>
      rw [account.2.1 complete] at member
      cases member

theorem Custody.not_completed_of_registered {world : World} {chronicle : Chronicle}
    {inHand : List Holding} {stack : Stack} {deferred : Nat} {continuation : Continuation}
    (custody : Custody world.ledger chronicle inHand stack)
    (holds : world.ledger.Holds (.registered deferred) continuation) :
    ¬ world.ledger.Completed deferred := by
  intro completed
  have complete := State.isComplete_of_completed completed
  rw [custody.isComplete_of_registered holds] at complete
  cases complete

namespace State

/-- Code may run: a program, the step of a machine, or whoever waits for a reply or is
left by a panic. -/
def isOpen (state : State) : Bool :=
  match state.control with
  | .task (.step _ _) => true
  | .task _ => false
  | .halted _ => false
  | _ => true

/-- How many resumptions of a machine are still to be run or dropped. -/
def resumptions (state : State) (machine : Nat) : Nat :=
  state.world.ledger.total state.control.holdings state.stack (.resumption machine)

/-- The stack is dropping a continuation, left over from a batch or a queue. -/
def Drops (state : State) (continuation : Continuation) : Prop :=
  ∃ rest, (Frame.disposing rest ∈ state.stack ∨
    ∃ payload, Frame.unwinding rest payload ∈ state.stack) ∧
      Owned.continuation continuation ∈ rest

/-- Where the resumption is of a machine with a scheduler that awaits a deferred. -/
inductive Places (state : State) (machine : Nat) (scheduler : Scheduler) (deferred : Nat) :
    Prop where
  /-- Among the continuations of the very deferred, which is pending. -/
  | registered :
      state.world.ledger.Holds (.registered deferred) (.handOver scheduler machine) →
        state.world.isComplete deferred = false → Places state machine scheduler deferred
  /-- In the batch of the deferred that is being fired, or in what is left of it. -/
  | fired :
      ((∃ rest, Frame.firing deferred rest ∈ state.stack ∧
        .handOver scheduler machine ∈ rest) ∨ state.Drops (.handOver scheduler machine)) →
        state.world.isComplete deferred = true → Places state machine scheduler deferred
  /-- In the keeping of the scheduler, or in what is left of its queue. -/
  | handedOver :
      (state.world.ledger.Holds (.queued scheduler) (.resumption machine) ∨
        state.Drops (.resumption machine)) →
        state.world.isComplete deferred = true → Places state machine scheduler deferred

variable {chronicle : Chronicle} {state : State} {machine : Nat}

/-- In a state that is open nothing is in hand. -/
theorem custody_of_isOpen (order : state.InOrder chronicle) (isOpen : state.isOpen = true) :
    state.control.holdings = [] ∧ Custody state.world.ledger chronicle [] state.stack := by
  obtain ⟨world, stack, control⟩ := state
  cases control with
  | program program => exact ⟨rfl, order⟩
  | reply reply => exact ⟨rfl, order⟩
  | unwind payload => exact ⟨rfl, order⟩
  | halted reason => cases isOpen
  | task task =>
      cases task with
      | step place position => exact ⟨rfl, order⟩
      | _ => cases isOpen

/-- What is at rest is kept by the world, or the stack holds it rightfully. -/
theorem kept_or_held {asset : Asset}
    (custody : Custody state.world.ledger chronicle [] state.stack)
    (rests : 0 < state.world.ledger.total [] state.stack asset) :
    0 < state.world.ledger.amount asset ∨
      ∃ holding ∈ Stack.holdings state.stack, asset ∈ holding.assets ∧
        holding.Rightful state.world.ledger chronicle := by
  by_cases kept : 0 < state.world.ledger.amount asset
  · exact .inl kept
  · right
    have held : 0 < Holding.amount asset (Stack.holdings state.stack) := by
      simp only [Ledger.total, List.nil_append] at rests
      omega
    obtain ⟨holding, member, carried⟩ := List.mem_flatMap.mp (List.count_pos_iff.mp held)
    exact ⟨holding, member, carried, custody.rightful holding (by simpa using member)⟩

/-- A resumption at rest is a continuation, kept by the world or held by the stack. -/
theorem exists_of_resumption (custody : Custody state.world.ledger chronicle [] state.stack)
    (rests : 0 < state.world.ledger.total [] state.stack (.resumption machine)) :
    ∃ site continuation, Asset.resumption machine ∈ continuation.assets ∧
      site.Admits state.world.ledger chronicle continuation ∧
      (state.world.ledger.Holds site continuation ∨
        .continuation site continuation ∈ Stack.holdings state.stack) := by
  rcases kept_or_held custody rests with kept | ⟨holding, member, carried, rightful⟩
  · obtain ⟨site, continuation, holds, carried⟩ := Ledger.exists_of_resumption_pos kept
    exact ⟨site, continuation, carried, custody.kept site continuation holds, .inl holds⟩
  · have resting := Stack.rests_of_mem_holdings member
    cases holding with
    | continuation site continuation =>
        exact ⟨site, continuation, carried, rightful, .inr member⟩
    | resuming _ => cases resting
    | _ => simp [Holding.assets] at carried

/-- What the stack holds of continuations is in a batch being fired, or is being
dropped. -/
theorem exists_of_mem_holdings {site : Site} {continuation : Continuation}
    (member : Holding.continuation site continuation ∈ Stack.holdings state.stack) :
    (∃ deferred rest, Frame.firing deferred rest ∈ state.stack ∧ site = .fired deferred ∧
      continuation ∈ rest) ∨ (site = .loose ∧ state.Drops continuation) := by
  obtain ⟨frame, among, held⟩ := List.mem_flatMap.mp member
  rcases Frame.exists_of_mem_holdings held with ⟨deferred, rest, rfl, same, fired⟩ |
    ⟨loose, rest, rfl | ⟨payload, rfl⟩, dropped⟩
  · exact .inl ⟨deferred, rest, among, same, fired⟩
  · exact .inr ⟨loose, rest, .inl among, dropped⟩
  · exact .inr ⟨loose, rest, .inr ⟨payload, among⟩, dropped⟩

/-- The resumption at rest of a suspended machine is where it should be. -/
theorem places_of_resumption {found : Activation}
    (custody : Custody state.world.ledger chronicle [] state.stack)
    (lookup : state.world.activations.get? machine = some found)
    (rests : 0 < state.world.ledger.total [] state.stack (.resumption machine)) :
    ∃ deferred, found.pending = some deferred ∧
      state.Places machine found.scheduler deferred := by
  obtain ⟨site, continuation, carried, admits, place⟩ := exists_of_resumption custody rests
  have pending {scheduler : Scheduler} {deferred : Nat}
      (suspends : state.world.ledger.Suspends machine scheduler deferred) :
      found.scheduler = scheduler ∧ found.pending = some deferred := by
    obtain ⟨again, lookupAgain, sameScheduler, samePending⟩ := suspends
    cases lookup.symm.trans lookupAgain
    exact ⟨sameScheduler, samePending⟩
  rcases Continuation.cases_of_resumption carried with ⟨scheduler, rfl⟩ | rfl
  · rcases place with holds | held
    · cases site with
      | registered deferred =>
          obtain ⟨rfl, waits⟩ := pending admits
          exact ⟨deferred, waits, .registered holds (custody.isComplete_of_registered holds)⟩
      | queued _ => exact admits.elim
      | fired _ | sent _ | loose => exact holds.elim
    · rcases exists_of_mem_holdings held with ⟨deferred, rest, among, rfl, member⟩ |
        ⟨rfl, dropped⟩
      · obtain ⟨rfl, waits⟩ := pending admits.1
        exact ⟨deferred, waits, .fired (.inl ⟨rest, among, member⟩)
          (isComplete_of_completed admits.2)⟩
      · obtain ⟨deferred, suspends, completed⟩ := admits
        obtain ⟨rfl, waits⟩ := pending suspends
        exact ⟨deferred, waits, .fired (.inr dropped) (isComplete_of_completed completed)⟩
  · rcases place with holds | held
    · cases site with
      | registered _ => exact admits.elim
      | queued scheduler =>
          obtain ⟨deferred, suspends, completed⟩ := admits
          obtain ⟨rfl, waits⟩ := pending suspends
          exact ⟨deferred, waits, .handedOver (.inl holds) (isComplete_of_completed completed)⟩
      | fired _ | sent _ | loose => exact holds.elim
    · rcases exists_of_mem_holdings held with ⟨deferred, rest, -, rfl, -⟩ | ⟨rfl, dropped⟩
      · exact admits.elim
      · obtain ⟨scheduler, deferred, suspends, completed⟩ := admits
        obtain ⟨rfl, waits⟩ := pending suspends
        exact ⟨deferred, waits, .handedOver (.inr dropped) (isComplete_of_completed completed)⟩

/-- A resumption about to run finds its machine suspended, and what it awaited
complete. -/
theorem resume_of_inOrder (order : state.InOrder chronicle)
    (resumes : state.control = .task (.resume machine)) :
    ∃ found, state.world.activations.get? machine = some found ∧ found.status = .idle ∧
      ∀ deferred, found.pending = some deferred →
        state.world.isComplete deferred = true := by
  obtain ⟨world, stack, control⟩ := state
  subst resumes
  have custody : Custody world.ledger chronicle [.resuming machine] stack := order
  obtain ⟨found, suspended⟩ := custody.suspended machine rfl
  obtain ⟨again, lookup, ready⟩ := custody.rightful_head
  cases suspended.lookup.symm.trans lookup
  refine ⟨found, lookup, suspended.status, ?_⟩
  intro deferred pending
  rcases ready with ⟨absent, -⟩ | ⟨awaited, waits, completed⟩
  · simp [absent] at pending
  · cases waits.symm.trans pending
    exact isComplete_of_completed completed

/-- A resumption that runs goes on to call its machine. -/
theorem advance_of_resume (order : state.InOrder chronicle)
    (resumes : state.control = .task (.resume machine)) :
    state.next.control = .task (.advance machine) := by
  obtain ⟨found, lookup, status, ready⟩ := resume_of_inOrder order resumes
  simp only [next, resumes, carryingOut, resuming, lookup, status]
  cases pending : found.pending with
  | none => rfl
  | some deferred =>
      simp only
      split
      · rfl
      · next incomplete => exact absurd (ready deferred pending) incomplete

/-- A resumption about to be dropped finds its machine suspended. -/
theorem drop_of_inOrder {continuation : Continuation} (order : state.InOrder chronicle)
    (drops : state.control = .task (.discard (.continuation continuation)))
    (carried : continuation.assets = [.resumption machine]) :
    ∃ found, state.world.activations.get? machine = some found ∧ found.status = .idle := by
  obtain ⟨world, stack, control⟩ := state
  subst drops
  have custody : Custody world.ledger chronicle [.continuation .loose continuation] stack :=
    order
  obtain ⟨found, suspended⟩ := custody.suspended machine carried
  exact ⟨found, suspended.lookup, suspended.status⟩

end State

/-- Resumption linearity.  Whenever code may run, a suspended machine has exactly one
resumption, which is where its deferred and its scheduler say, and no other machine has
any.  So a resumption that runs always resumes its machine, and one that is dropped
always finishes it. -/
theorem resumption_linearity {trace : List Occurrence} {state : State}
    (reaches : Reaches trace state) :
    (∀ machine found, state.isOpen = true →
      state.world.activations.get? machine = some found →
      match found.status with
      | .idle =>
          state.resumptions machine = 1 ∧ found.observer.isSome = true ∧
            ∃ resumeAt deferred, found.pending = some deferred ∧
              found.position = .suspension resumeAt ∧
              state.Places machine found.scheduler deferred
      | .running => state.resumptions machine = 0
      | .finished =>
          state.resumptions machine = 0 ∧ found.position = .finished ∧
            found.pending = none ∧ found.observer = none) ∧
    (∀ machine, state.control = .task (.resume machine) →
      state.next.control = .task (.advance machine)) ∧
    (∀ machine continuation,
      state.control = .task (.discard (.continuation continuation)) →
      continuation.assets = [.resumption machine] →
      state.next.control = .task (.finish machine (.error .shutdown))) := by
  have order := reaches.inOrder
  refine ⟨?_, ?_, ?_⟩
  · intro machine found isOpen lookup
    obtain ⟨nothing, custody⟩ := State.custody_of_isOpen order isOpen
    have counted : state.resumptions machine =
        state.world.ledger.total [] state.stack (.resumption machine) := by
      rw [State.resumptions, nothing]
    obtain ⟨-, -, accords⟩ := custody.accords_of_lookup lookup
    simp only [Holding.amount_nil, Nat.add_zero, ← counted] at accords
    cases status : found.status with
    | idle =>
        simp only [status] at accords ⊢
        obtain ⟨one, -, observer, -, waits⟩ := accords
        obtain ⟨deferred, pending, places⟩ :=
          State.places_of_resumption custody lookup (by omega)
        refine ⟨one, observer.1, ?_⟩
        rcases waits with ⟨absent, -⟩ | ⟨resumeAt, awaited, waits, position, -⟩
        · simp [absent] at pending
        · exact ⟨resumeAt, deferred, pending, position, places⟩
    | running =>
        simp only [status] at accords ⊢
        exact accords.1
    | finished =>
        simp only [status] at accords ⊢
        obtain ⟨zero, -, -, position, pending, observer⟩ := accords
        exact ⟨zero, position, pending, observer⟩
  · intro machine resumes
    exact State.advance_of_resume order resumes
  · intro machine continuation drops carried
    obtain ⟨found, lookup, status⟩ := State.drop_of_inOrder order drops carried
    cases continuation with
    | callback _ | job _ _ | signal _ => simp [Continuation.assets] at carried
    | handOver _ other | resumption other =>
        simp only [Continuation.assets, List.cons.injEq, Asset.resumption.injEq, and_true]
          at carried
        subst carried
        simp only [State.next, drops, State.carryingOut, State.discarding, State.abandoning,
          lookup, status]

/-- Start a machine whose scheduler drops what it is handed, and complete what the
machine awaits. -/
def Program.losing : Program :=
  .call (.pending (.shared "result") false (.shared "writer")) fun _ =>
    .call (.start (.shared "machine")
      (.custom fun _ => .call (.suspend (.shared "result") 7) .ret) .discard
      fun _ => .ret .done) fun _ =>
        .call (.complete (.shared "writer") (.ok .null)) .ret

/-- That machine is resumed by its start, suspended with one resumption, which is on the
deferred, and finished by the scheduler that drops it. -/
theorem resumption_linearity_losing :
    ((State.ofProgram .initial .losing).walk 4).2.control = .task (.advance 0) ∧
    (∃ found, ((State.ofProgram .initial .losing).walk 10).2.world.activations.get? 0 =
        some found ∧ found.status = .idle ∧
      ((State.ofProgram .initial .losing).walk 10).2.resumptions 0 = 1 ∧
      found.pending = some 0 ∧
      ((State.ofProgram .initial .losing).walk 10).2.Places 0 .discard 0) ∧
    ((State.ofProgram .initial .losing).walk 18).2.control =
      .task (.finish 0 (.error .shutdown)) := by
  have reaches := Reaches.begin .losing
  refine ⟨(resumption_linearity (reaches.walk 3)).2.1 0 rfl, ?_,
    (resumption_linearity (reaches.walk 17)).2.2 0 (.resumption 0) rfl rfl⟩
  obtain ⟨one, -, -, deferred, pending, -, places⟩ :=
    (resumption_linearity (reaches.walk 10)).1 0 _ rfl rfl
  cases pending
  exact ⟨_, rfl, rfl, one, rfl, places⟩

end Stepwise
