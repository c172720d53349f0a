import Stepwise.Proofs.Wakeups
import Stepwise.Proofs.Waits

/-!
# Linear retrieval

A deferred is pending, then complete, then taken, and never goes back.  Whoever asks whether it is
complete is told the same, and whoever asks for its outcome is told what the run says: it is not
ready before the publication, the first to ask afterwards gets what was published, and all others
come too late.
-/

namespace Stepwise

variable {state later : State} {past more : List State} {deferred : Nat} {outcome : Outcome}
  {found : Deferred} {receipt name : Name} {rest : Reply → Program}

/-! ## How far a deferred has come -/

/-- A small step publishes the outcome of a deferred, takes the outcome that was published, or
leaves the deferred where it is. -/
inductive State.Moves (state : State) (deferred : Nat) : Progress → Progress → Prop where
  | stays {progress : Progress} :
      (∀ outcome, progress = .complete outcome → state.effect ≠ .retrieves deferred) →
        Moves state deferred progress progress
  | completes {outcome : Outcome} : state.control = .task (.publish deferred outcome) →
      Moves state deferred .pending (.complete outcome)
  | takes {outcome : Outcome} : state.effect = .retrieves deferred →
      Moves state deferred (.complete outcome) .taken

theorem Published.mono (published : Published past deferred outcome) (kept : past ⊆ more) :
    Published more deferred outcome := by
  obtain ⟨before, member, publishes⟩ := published
  exact ⟨before, kept member, publishes⟩

/-- What neither publishes an outcome of a deferred nor retrieves it leaves it where it is. -/
theorem Effect.progress_of_other {effect : Effect}
    (unpublished : ∀ outcome, effect ≠ .publishes deferred outcome)
    (unretrieved : effect ≠ .retrieves deferred) :
    effect.progress deferred found = found.progress := by
  cases effect with
  | publishes other outcome => exact if_neg fun same => unpublished outcome (by rw [same])
  | retrieves other => exact if_neg fun same => unretrieved (by rw [same])
  | nothing | registers _ _ | signals _ _ => rfl

theorem State.publish_of_effect (publishes : state.effect = .publishes deferred outcome) :
    state.control = .task (.publish deferred outcome) := by
  have exerts := state.exerts
  rw [publishes] at exerts
  cases exerts with
  | publishes control => exact control

/-- A small step moves a deferred on, or leaves it where it is. -/
theorem Passes.moves (passes : Passes past state)
    (lookup : state.world.deferreds.get? deferred = some found) :
    ∃ changed, state.next.world.deferreds.get? deferred = some changed ∧
      state.Moves deferred found.progress changed.progress := by
  obtain ⟨changed, present, -, comes⟩ := state.takesEffect.alters.kept deferred found lookup
  refine ⟨changed, present, ?_⟩
  rw [comes]
  by_cases publishes : ∃ outcome, state.effect = .publishes deferred outcome
  · obtain ⟨outcome, publishes⟩ := publishes
    have control := State.publish_of_effect publishes
    have pending : found.progress = .pending :=
      (Ledger.pending_iff lookup).mpr (passes.not_completed_of_publish control)
    rw [publishes, Effect.progress, if_pos rfl, pending]
    exact .completes control
  simp only [not_exists] at publishes
  by_cases retrieves : state.effect = .retrieves deferred
  · rw [retrieves, Effect.progress, if_pos rfl]
    cases progress : found.progress with
    | pending | taken =>
        simp only [Deferred.afterRetrieval, progress]
        exact .stays fun _ complete => by cases complete
    | complete outcome =>
        simp only [Deferred.afterRetrieval, progress]
        exact .takes retrieves
  · rw [Effect.progress_of_other publishes retrieves]
    exact .stays fun _ _ => retrieves

/-! ## What retrieving gives -/

/-- How far a deferred has come in a run, and what retrieving gives then. -/
inductive Gives (past : List State) (deferred : Nat) : Progress → Outcome → Prop where
  /-- Nothing was published so far. -/
  | early : (∀ outcome, ¬ Published past deferred outcome) →
      Gives past deferred .pending (.error (.invalid .notReady))
  /-- Nothing was retrieved since the publication. -/
  | first {before after : List State} {publishing : State} {outcome : Outcome} :
      past = before ++ publishing :: after →
        publishing.control = .task (.publish deferred outcome) →
          (∀ visited ∈ after, visited.effect ≠ .retrieves deferred) →
            Gives past deferred (.complete outcome) outcome
  /-- The outcome was retrieved since. -/
  | again {before after : List State} {publishing taking : State} {outcome : Outcome} :
      past = before ++ publishing :: after →
        publishing.control = .task (.publish deferred outcome) →
          taking ∈ after → taking.effect = .retrieves deferred →
            Gives past deferred .taken (.error (.invalid .alreadyTaken))

namespace Gives

variable {before after : Progress}

/-- What retrieving gives is settled by how far the deferred has come. -/
theorem retrieved (gives : Gives past deferred found.progress outcome) :
    outcome = found.retrieved := by
  generalize progress : found.progress = stands at gives
  cases gives <;> simp [Deferred.retrieved, progress]

/-- What retrieving gives after a small step. -/
theorem next (gives : Gives past deferred before outcome)
    (moves : state.Moves deferred before after)
    (silent : after = .pending → ∀ outcome, ¬ Published (past ++ [state]) deferred outcome) :
    ∃ given, Gives (past ++ [state]) deferred after given := by
  -- What has happened since the publication is one small step more.
  have longer {earlier later : List State} {publishing : State}
      (split : past = earlier ++ publishing :: later) :
      past ++ [state] = earlier ++ publishing :: (later ++ [state]) := by
    rw [split, List.append_assoc, List.cons_append]
  cases moves with
  | completes publishes => exact ⟨_, .first rfl publishes (by simp)⟩
  | takes retrieves =>
      cases gives with
      | first split publishes _ =>
          exact ⟨_, .again (longer split) publishes
            (List.mem_append_right _ (List.mem_singleton_self _)) retrieves⟩
  | stays unretrieved =>
      cases gives with
      | early _ => exact ⟨_, .early (silent rfl)⟩
      | first split publishes untaken =>
          refine ⟨_, .first (longer split) publishes fun visited member => ?_⟩
          rcases List.mem_append.mp member with before | now
          · exact untaken visited before
          · rw [List.mem_singleton.mp now]
            exact unretrieved _ rfl
      | again split publishes member takes =>
          exact ⟨_, .again (longer split) publishes (List.mem_append_left _ member) takes⟩

end Gives

/-- The outcome of what is pending was not published. -/
theorem Passes.not_published (passes : Passes past state)
    (lookup : state.world.deferreds.get? deferred = some found)
    (pending : found.progress = .pending) (outcome : Outcome) :
    ¬ Published past deferred outcome := by
  have incomplete : ¬ state.world.ledger.Completed deferred :=
    (Ledger.pending_iff lookup).mp pending
  rw [passes.completed_iff_published, not_exists] at incomplete
  exact incomplete outcome

/-- How far a deferred has come, and what retrieving gives, can be read off the run. -/
theorem Passes.gives (passes : Passes past state)
    (lookup : state.world.deferreds.get? deferred = some found) :
    Gives past deferred found.progress found.retrieved := by
  suffices gives : ∃ given, Gives past deferred found.progress given by
    obtain ⟨given, gives⟩ := gives
    rwa [gives.retrieved] at gives
  induction passes generalizing found with
  | begin program => cases lookup
  | again program _ _ ih => exact ih lookup
  | @next past state passes ih =>
      cases present : state.world.deferreds.get? deferred with
      | none =>
          cases state.takesEffect.alters.fresh deferred found present lookup
          exact ⟨_, .early (passes.next.not_published lookup rfl)⟩
      | some earlier =>
          obtain ⟨changed, again, moves⟩ := passes.moves present
          cases again.symm.trans lookup
          obtain ⟨given, gives⟩ := ih present
          exact gives.next moves (passes.next.not_published lookup)

/-! ## Who asks -/

theorem World.retrieve_of_get? {world : World}
    (lookup : world.deferreds.get? deferred = some found) :
    (world.retrieve deferred).2 = found.retrieved := by
  simp [retrieve, lookup]

namespace State

/-- Whoever asks whether a deferred is complete is told so, or acts so: the receipt, a suspension
of it, and the driver, when a step awaits the deferred and when the machine is resumed. -/
structure Answers (state : State) (deferred : Nat) (ready : Bool) : Prop where
  receipt : ∀ receipt rest found,
    state.control = .program (.call (.readiness receipt) rest) →
      state.world.receipts.find? receipt = some found → found.deferred = deferred →
        state.next.control = .reply (.readiness found.raw ready)
  suspension : ∀ rest, state.control = .program (.call (.isComplete deferred) rest) →
    state.next.control = .reply (.flag ready)
  awaiting : ∀ machine resumeAt callers,
    state.Ends machine (.returned (.await resumeAt deferred)) callers →
      state.next.control = if ready then .task (.advance machine) else .reply .done
  resuming : ∀ machine found, state.control = .task (.resume machine) →
    state.world.activations.get? machine = some found → found.status = .idle →
      found.pending = some deferred →
        state.next.control = if ready then .task (.advance machine) else .reply .done

theorem answers (state : State) (deferred : Nat) :
    state.Answers deferred (state.world.isComplete deferred) where
  receipt := by
    rintro receipt rest found asks kept rfl
    obtain ⟨world, stack, control⟩ := state
    subst asks
    have given : world.receipts.find? receipt = some found := kept
    simp [next, requesting, withReceipt, given, replying]
  suspension := by
    intro rest asks
    obtain ⟨world, stack, control⟩ := state
    subst asks
    rfl
  awaiting := by
    rintro machine resumeAt callers ⟨placed, reply, replies, judged⟩
    obtain ⟨world, stack, control⟩ := state
    subst placed replies
    have result : world.judge machine reply = .await resumeAt deferred := judged
    have moved (change : Activation → Activation) (note : Record) (more : Activation → Activation) :
        (((world.modifyActivation machine change).record note).modifyActivation machine
          more).isComplete deferred = world.isComplete deferred := rfl
    simp only [next, returning, result, stepped, registering, moved]
    cases world.isComplete deferred <;> rfl
  resuming := by
    intro machine found resumes lookup idle pending
    obtain ⟨world, stack, control⟩ := state
    subst resumes
    have present : world.activations.get? machine = some found := lookup
    have claimed (change : Activation → Activation) :
        (world.modifyActivation machine change).isComplete deferred =
          world.isComplete deferred := rfl
    simp only [next, carryingOut, State.resuming, present, idle, pending, claimed]
    cases world.isComplete deferred <;> rfl

/-- A request for the outcome is answered with what retrieving gives. -/
theorem next_of_retrieve (asks : state.control = .program (.call (.retrieve receipt) rest))
    (may : state.world.awaiter? receipt = some deferred) :
    state.next.control = .reply (.outcome (state.world.retrieve deferred).2) := by
  obtain ⟨world, stack, control⟩ := state
  subst asks
  simp only [next, requesting, World.withAwaiter_of_awaiter may]
  rfl

/-- A poll under a free lock is answered pending, or with what retrieving gives. -/
theorem next_of_free_poll {waker : Waker}
    (polls : state.control = .program (.call (.poll receipt name) rest))
    (may : state.world.awaiter? receipt = some deferred)
    (kept : state.world.wakers.find? name = some waker)
    (lookup : state.world.deferreds.get? deferred = some found) (free : found.lock = .free) :
    state.next.control =
      .reply (if found.isComplete then .outcome found.retrieved else .notYet) := by
  rw [next_of_poll polls may, kept]
  simp only [polling, lookup, free]
  cases complete : found.isComplete with
  | true => simp [replying, World.retrieve_of_get? lookup]
  | false => simp [replying]

end State

/-- What a step of a library machine goes on to with the value that it has retrieved: it runs the
hook of the machine. -/
def Body.hears : Body → Position → Value → Control
  | .pipeline stages, .suspension number, value => .program (stages.inspect number value)
  | .cubeRoot demo, .suspension 0, value =>
      .program (demo.announce (.cube (CubeRoot.realOf value)))
  | .cubeRoot demo, .suspension 1, value =>
      .program (demo.announce (.root (CubeRoot.realOf value)))
  | _, _, _ => .reply .done

/-- The step of a library machine that retrieves goes on with the value, or fails with the
error. -/
theorem State.next_of_step {place : Place} {position : Position} {body : Body}
    (steps : state.control = .task (.step place position))
    (there : state.world.body? place = some body) (asks : body.asks position = some deferred)
    (lookup : state.world.deferreds.get? deferred = some found) :
    state.next.control = match found.retrieved with
      | .ok value => body.hears position value
      | .error error => .reply (.outcome (.error error)) := by
  obtain ⟨world, stack, control⟩ := state
  subst steps
  have present : world.body? place = some body := there
  have moved (change : Body → Body) :
      ((world.modifyBody place change).retrieve deferred).2 = found.retrieved :=
    World.retrieve_of_get? (by simpa using lookup)
  cases body with
  | custom step => cases asks
  | pipeline stages =>
      cases position with
      | notStarted | finished => cases asks
      | suspension number =>
          replace asks : stages.awaited = some deferred := asks
          simp only [next, carryingOut, runningStep, present, steppingPipeline, asks,
            takingAwaited, moved]
          cases found.retrieved <;> rfl
  | cubeRoot demo =>
      cases position with
      | notStarted | finished => cases asks
      | suspension number =>
          rcases number with _ | _ | _
          · replace asks : demo.awaitedCube = some deferred := asks
            simp only [next, carryingOut, runningStep, present, steppingCubeRoot, asks,
              takingAwaited, moved]
            cases found.retrieved <;> rfl
          · replace asks : demo.awaitedRoot = some deferred := asks
            simp only [next, carryingOut, runningStep, present, steppingCubeRoot, asks,
              takingAwaited, moved]
            cases found.retrieved <;> rfl
          · cases asks

/-! ## Runs -/

/-- The drop of a writer publishes a shutdown, and nothing else is published then. -/
theorem Passes.shutdown_of_drop {visited : State} (passes : Passes past state)
    (member : visited ∈ past) (drops : visited.control = .task (.discard (.writer deferred)))
    (published : Published past deferred outcome) : outcome = .error .shutdown := by
  have publishes : visited.next.control = .task (.publish deferred (.error .shutdown)) := by
    obtain ⟨world, stack, control⟩ := visited
    subst drops
    rfl
  rcases passes.next_mem member with inside | rfl | ⟨-, ⟨reply, replies⟩ | ⟨payload, unwinds⟩⟩
  · exact passes.published_unique published ⟨_, inside, publishes⟩
  · exact absurd (passes.completed_iff_published.mpr ⟨outcome, published⟩)
      (passes.not_completed_of_publish publishes)
  · cases publishes.symm.trans replies
  · cases publishes.symm.trans unwinds

/-- A deferred is retrieved linearly: how far it has come says what everybody is told who asks for
it, and only the publication of its outcome and the first retrieval after that move it on. -/
structure Linear (past : List State) (deferred : Nat) (found : Deferred) (state : State) :
    Prop where
  moves : ∃ changed, state.next.world.deferreds.get? deferred = some changed ∧
    state.Moves deferred found.progress changed.progress
  /-- How far the deferred has come, and what retrieving gives, is what the run says. -/
  gives : Gives past deferred found.progress found.retrieved
  single : ∀ outcome other, Published past deferred outcome → Published past deferred other →
    outcome = other
  dropped : ∀ visited ∈ past, visited.control = .task (.discard (.writer deferred)) →
    ∀ outcome, Published past deferred outcome → outcome = .error .shutdown
  /-- Everybody who asks is told whether the outcome was published, and this for ever. -/
  answers : state.Answers deferred found.isComplete
  complete : found.isComplete = true ↔ ∃ outcome, Published past deferred outcome
  lasting : found.isComplete = true → ∀ more later, state.GoesOn more later →
    later.world.isComplete deferred = true
  requests : ∀ receipt rest, state.control = .program (.call (.retrieve receipt) rest) →
    state.world.awaiter? receipt = some deferred →
      state.next.control = .reply (.outcome found.retrieved)
  /-- A poll is answered unless a waker has panicked, or is being woken. -/
  polls : (∀ visited ∈ past, ¬ visited.Spoils deferred) → state.stack.ringing deferred = 0 →
    ∀ receipt name rest waker, state.control = .program (.call (.poll receipt name) rest) →
      state.world.awaiter? receipt = some deferred →
        state.world.wakers.find? name = some waker →
          state.next.control =
            .reply (if found.isComplete then .outcome found.retrieved else .notYet)
  waits : ∀ waiter rest sleeper, state.control = .program (.call (.collect waiter) rest) →
    state.world.waiters.get? waiter = some sleeper → sleeper.deferred = deferred →
      sleeper.signal = .woken → sleeper.run = none →
        state.next.control = .reply (.outcome found.retrieved)
  steps : ∀ place position body, state.control = .task (.step place position) →
    state.world.body? place = some body → body.asks position = some deferred →
      state.next.control = match found.retrieved with
        | .ok value => body.hears position value
        | .error error => .reply (.outcome (.error error))

/-- A deferred is pending until its outcome is published, then complete until somebody retrieves
the outcome, and taken from then on.  Before the publication it says everywhere that it is not
complete, and afterwards for ever that it is.  Retrieving gives that it is not ready before the
publication, and changes nothing then; the first time afterwards it gives what was published, a
shutdown if the writer was dropped; and later that the outcome was taken.  So do polls, which
are pending at first, unless a waker has panicked or polls while it is woken. -/
theorem linear_retrieval (passes : Passes past state)
    (lookup : state.world.deferreds.get? deferred = some found) :
    Linear past deferred found state := by
  have retrieved := World.retrieve_of_get? lookup
  have complete := World.isComplete_of_get? lookup
  have published : found.isComplete = true ↔ ∃ outcome, Published past deferred outcome := by
    rw [← passes.completed_iff_published]
    refine ⟨fun complete => ⟨found, lookup, complete⟩, ?_⟩
    rintro ⟨other, present, complete⟩
    cases lookup.symm.trans present
    exact complete
  refine ⟨passes.moves lookup, passes.gives lookup, fun _ _ => passes.published_unique,
    fun _ member drops _ => passes.shutdown_of_drop member drops, complete ▸ state.answers deferred,
    published, ?_, ?_, ?_, ?_, fun _ _ _ steps there asks => State.next_of_step steps there asks
      lookup⟩
  · intro already more later goesOn
    obtain ⟨outcome, before⟩ := published.mp already
    obtain ⟨changed, present, complete⟩ := (passes.goesOn goesOn).completed_iff_published.mpr
      ⟨outcome, before.mono (List.subset_append_left ..)⟩
    rw [World.isComplete_of_get? present, complete]
  · intro receipt rest asks may
    rw [State.next_of_retrieve asks may, retrieved]
  · intro unspoiled silent receipt name rest waker polls may kept
    have free := (passes.latched deferred).free unspoiled silent
    rw [World.alarm_of_get? lookup] at free
    exact State.next_of_free_poll polls may kept lookup free
  · rintro waiter rest sleeper asks present rfl woken alone
    rw [State.next_of_collect asks present alone, woken]
    simp only [retrieved]

/-- Ask for the outcome of a deferred before its writer is dropped, in its callback, and after. -/
def Program.claiming : Program :=
  .call (.pending (.shared "result") false (.shared "writer")) fun _ =>
    .call (.onComplete (.shared "result") (.call (.retrieve (.shared "result")) .ret)) fun _ =>
      .call (.newWaker (.shared "waker") (.ret .done)) fun _ =>
        .call (.poll (.shared "result") (.shared "waker")) fun _ =>
          .call (.retrieve (.shared "result")) fun _ =>
            .call (.dropWriter (.shared "writer")) fun _ =>
              .call (.retrieve (.shared "result")) .ret

/-- The state after so many small steps. -/
def State.claiming (count : Nat) : State := ((State.ofProgram .initial .claiming).walk count).2

/-- The poll is pending, the first request comes too early, the callback is told of the shutdown,
and the last request comes too late. -/
theorem linear_retrieval_claiming :
    (State.claiming 8).control = .reply .notYet ∧
    (State.claiming 10).control = .reply (.outcome (.error (.invalid .notReady))) ∧
    (State.claiming 17).control = .reply (.outcome (.error .shutdown)) ∧
    (State.claiming 25).control = .reply (.outcome (.error (.invalid .alreadyTaken))) := by
  have passes (count : Nat) : Passes ((State.ofProgram .initial .claiming).visits count)
      (State.claiming count) := (Passes.begin .claiming).walk count
  have silent : ((State.ofProgram .initial .claiming).visits 7).all
      (fun visited => visited.stack.ringing 0 = 0) = true := by decide +kernel
  have unspoiled : ∀ visited ∈ (State.ofProgram .initial .claiming).visits 7,
      ¬ visited.Spoils 0 := fun visited member => State.not_spoils_of_silent
        (of_decide_eq_true (List.all_eq_true.mp silent visited member))
  have polled : (State.claiming 7).world.deferreds.get? 0 = some _ := rfl
  have early : (State.claiming 9).world.deferreds.get? 0 = some _ := rfl
  have within : (State.claiming 16).world.deferreds.get? 0 = some _ := rfl
  have late : (State.claiming 24).world.deferreds.get? 0 = some _ := rfl
  exact ⟨(linear_retrieval (passes 7) polled).polls unspoiled rfl _ _ _ _ rfl rfl rfl,
    (linear_retrieval (passes 9) early).requests _ _ rfl rfl,
    (linear_retrieval (passes 16) within).requests _ _ rfl rfl,
    (linear_retrieval (passes 24) late).requests _ _ rfl rfl⟩

end Stepwise
