import Stepwise.Proofs.Dispatched
import Stepwise.Proofs.Docket

/-!
# The order of continuations

No continuation runs before the outcome is published.  Those registered before run in the
order of registration while the completing call lasts, and one that is registered later runs
at once, before its registration returns and before any that still waits for its turn.  When
the completing call returns, all have run that are registered so far, and none is kept from
then on.
-/

namespace Stepwise

variable {trace : List Occurrence} {state later : State} {past more : List State}
  {base : Stack} {deferred count : Nat} {outcome : Outcome} {continuation : Continuation}
  {docket : Docket}

/-! ## Panics that pass a call -/

/-- Whether a frame lets a panic pass and drops nothing. -/
def Frame.isAnswering : Frame → Bool
  | .answering _ => true
  | _ => false

namespace State

/-- A panic is on its way through calls whose reply was settled, or drops something on the way,
or has met another. -/
inductive Doomed (base : Stack) (state : State) : Prop where
  | dropping {above settled : Stack} {rest : List Owned} {payload : Payload} :
      state.stack = above ++ .unwinding rest payload :: (settled ++ base) →
        settled.all Frame.isAnswering = true → Doomed base state
  | panicking {settled : Stack} {payload : Payload} :
      state.control = .unwind payload → state.stack = settled ++ base →
        settled.all Frame.isAnswering = true → Doomed base state
  | halted {reason : Halt} : state.control = .halted reason → Doomed base state

/-- A panic that drops something goes on through the calls beneath. -/
theorem Doomed.of_dropping {world : World} {settled : Stack} {owned : List Owned}
    {payload : Payload} (answering : settled.all Frame.isAnswering = true) :
    Doomed base (.dropping world (settled ++ base) owned payload) := by
  cases owned with
  | nil => exact .panicking rfl rfl answering
  | cons first rest => exact @Doomed.dropping _ _ [] settled _ _ rfl answering

/-- A panic is not stopped before it comes to what waits for the call. -/
theorem Doomed.next (doomed : Doomed base state) (reaches : Reaches trace state)
    (inside : base.length < state.stack.length) : Doomed base state.next := by
  cases doomed with
  | halted same =>
      obtain ⟨world, stack, control⟩ := state
      subst same
      exact .halted rfl
  | @panicking settled payload unwinds placed answering =>
      obtain ⟨world, stack, control⟩ := state
      subst unwinds placed
      cases settled with
      | nil => simp at inside
      | cons frame settled =>
          cases frame with
          | answering reply => exact .panicking rfl rfl answering
          | _ => simp [Frame.isAnswering] at answering
  | @dropping above settled rest payload placed answering =>
      rcases beneath_or_delivers reaches.inOrder placed with ⟨⟨more, still⟩, -⟩ | ⟨placed, how⟩
      · exact .dropping still answering
      · obtain ⟨world, stack, control⟩ := state
        subst placed
        rcases how with ⟨reply, rfl⟩ | ⟨second, rfl⟩
        · cases rest with
          | nil => exact .panicking rfl rfl answering
          | cons owned rest => exact @Doomed.dropping _ _ [] settled rest payload rfl answering
        · exact .halted rfl

/-- A panic gives no reply. -/
theorem Doomed.not_reply {reply : Reply} (doomed : Doomed base state) (back : state.stack = base) :
    state.control ≠ .reply reply := by
  intro replies
  cases doomed with
  | halted same => cases same.symm.trans replies
  | panicking unwinds _ _ => cases unwinds.symm.trans replies
  | dropping placed _ =>
      have lengths := congrArg List.length (placed.symm.trans back)
      simp only [List.length_append, List.length_cons] at lengths
      omega

/-! ## Calls that complete a deferred -/

/-- What waits for a small step: the rest of the program that makes a call, and the frames that
are left alone. -/
def callers (state : State) : Stack :=
  match state.control with
  | .program (.call _ rest) => .program rest :: state.stack
  | _ => state.base

/-- A call completes a deferred: it publishes an outcome, or user code completes the writer or
drops it. -/
inductive Completes (state : State) (deferred : Nat) : Outcome → Prop where
  | publishes {outcome : Outcome} :
      state.control = .task (.publish deferred outcome) → Completes state deferred outcome
  | completes {writer : Name} {outcome : Outcome} {rest : Reply → Program} :
      state.control = .program (.call (.complete writer outcome) rest) →
        state.world.writers.find? writer = some deferred → Completes state deferred outcome
  | drops {writer : Name} {rest : Reply → Program} :
      state.control = .program (.call (.dropWriter writer) rest) →
        state.world.writers.find? writer = some deferred →
          Completes state deferred (.error .shutdown)

/-- The batch of a deferred is through: all of it has had its turn. -/
def ComesThrough (state : State) (deferred : Nat) : Prop :=
  ∃ below reply, state.stack = .firing deferred [] :: below ∧ state.control = .reply reply

/-- A call that completes a deferred, from its first small step on: it comes to the publication of
the outcome; its batch is fired; all of it has been fired; or a panic is on its way out. -/
inductive Completing (past : List State) (deferred : Nat) (base : Stack) (state : State) :
    Prop where
  | called {reply : Reply} :
      state.stack = .answering reply :: base →
        (state.control = .task (.discard (.writer deferred)) ∨
          ∃ outcome, state.control = .task (.publish deferred outcome)) →
        Completing past deferred base state
  | firing {above settled : Stack} {rest : List Continuation} :
      state.stack = above ++ .firing deferred rest :: (settled ++ base) →
        settled.all Frame.isAnswering = true → Completing past deferred base state
  | fired {docket : Docket} :
      (Docket.pending []).Comes (log deferred past) docket →
        docket.Accords state.world state.stack deferred → docket.isSettled = true →
          docket.left = [] → base.rests deferred = [] →
            (∃ visited ∈ past, visited.ComesThrough deferred) →
              Completing past deferred base state
  | doomed : Doomed base state → state.world.ledger.Completed deferred →
      base.rests deferred = [] → Completing past deferred base state

/-- The publication of an outcome leaves the batch above what waits for it. -/
theorem Completing.of_publish {settled : Stack} (passes : Passes past state)
    (publishes : state.control = .task (.publish deferred outcome))
    (placed : state.stack = settled ++ base)
    (answering : settled.all Frame.isAnswering = true) :
    Completing (past ++ [state]) deferred base state.next := by
  have custody := passes.reaches.inOrder.custody (by simp [publishes])
  rw [publishes] at custody
  obtain ⟨⟨found, lookup, -⟩, -⟩ := custody.pending_of_writer deferred
    (by simp [Control.holdings, Task.holdings, Holding.assets])
  obtain ⟨world, stack, control⟩ := state
  subst publishes placed
  have present : world.deferreds.get? deferred = some found := lookup
  refine @Completing.firing _ _ _ _ [] settled found.continuations ?_ answering
  simp [next, carryingOut, publishing, present]

/-- A call that completes a deferred publishes the outcome, or comes to the publication or to the
drop of the writer by its first small step. -/
theorem Completes.begins (completes : state.Completes deferred outcome) :
    (state.control = .task (.publish deferred outcome) ∧ state.callers = state.stack) ∨
      state.next.stack = .answering .done :: state.callers ∧
        (state.next.control = .task (.publish deferred outcome) ∨
          state.next.control = .task (.discard (.writer deferred)) ∧
            outcome = .error .shutdown) := by
  cases completes with
  | publishes publishes => exact .inl ⟨publishes, by simp [callers, base, publishes]⟩
  | @completes writer _ rest calls named =>
      obtain ⟨world, stack, control⟩ := state
      subst calls
      have kept : world.writers.find? writer = some deferred := named
      simp [next, requesting, withNamed, kept, performing, callers]
  | @drops writer rest calls named =>
      obtain ⟨world, stack, control⟩ := state
      subst calls
      have kept : world.writers.find? writer = some deferred := named
      simp [next, requesting, withNamed, kept, performing, callers]

/-- A call that completes a deferred begins so. -/
theorem Completes.completing (completes : state.Completes deferred outcome)
    (passes : Passes past state) :
    Completing (past ++ [state]) deferred state.callers state.next := by
  rcases completes.begins with ⟨publishes, same⟩ | ⟨placed, publishes | ⟨discards, -⟩⟩
  · exact .of_publish passes publishes (same ▸ rfl : state.stack = [] ++ state.callers) rfl
  · exact .called placed (.inr ⟨outcome, publishes⟩)
  · exact .called placed (.inl discards)

/-- A call that completes a deferred goes on so until it is over. -/
theorem Completing.next (completing : Completing past deferred base state)
    (passes : Passes past state) (inside : base.length < state.stack.length) :
    Completing (past ++ [state]) deferred base state.next := by
  have order := passes.reaches.inOrder
  cases completing with
  | @called reply placed goesOn =>
      rcases goesOn with discards | ⟨outcome, publishes⟩
      · obtain ⟨world, stack, control⟩ := state
        subst discards
        exact .called placed (.inr ⟨_, rfl⟩)
      · exact @of_publish _ _ _ _ _ [.answering reply] passes publishes placed rfl
  | doomed doomed completed unfired =>
      exact .doomed (doomed.next passes.reaches inside) ((onward_next order).completed completed)
        unfired
  | fired comes accords settled spent unfired through =>
      obtain ⟨later, turns, comesOn, agrees⟩ := passes.accords_next comes accords
      obtain ⟨still, left, -⟩ := (Docket.Comes.here.next turns).settled settled
      obtain ⟨visited, member, ends⟩ := through
      exact .fired comesOn agrees still (left.trans spent) unfired
        ⟨visited, List.mem_append_left _ member, ends⟩
  | @firing above settled rest placed answering =>
      rcases beneath_or_delivers order placed with ⟨⟨more, still⟩, -⟩ | ⟨placed, how⟩
      · exact .firing still answering
      · obtain ⟨docket, comes, accords⟩ := passes.accords deferred
        obtain ⟨later, turns, comesOn, agrees⟩ := passes.accords_next comes accords
        rw [placed] at accords
        obtain ⟨rfl, isOver, nothing⟩ := accords.of_firing
        rw [Stack.rests_append, List.append_eq_nil_iff] at nothing
        have completed : state.world.ledger.Completed deferred := isOver.completed
        rcases how with ⟨reply, replies⟩ | ⟨payload, unwinds⟩
        · cases rest with
          | nil =>
              obtain ⟨still, left, -⟩ := (Docket.Comes.here.next turns).settled rfl
              exact .fired comesOn agrees still left nothing.2
                ⟨state, by simp, settled ++ base, reply, placed, replies⟩
          | cons first rest =>
              obtain ⟨world, stack, control⟩ := state
              subst placed replies
              exact @Completing.firing _ _ _ _ [] settled rest rfl answering
        · refine .doomed ?_ ((onward_next order).completed completed) nothing.2
          obtain ⟨world, stack, control⟩ := state
          subst placed unwinds
          exact .of_dropping answering

/-- What a call that completes a deferred has come to while it lasts. -/
theorem Completing.walk (completing : Completing past deferred base state)
    (passes : Passes past state)
    (inside : ∀ visited ∈ state.visits count, base.length < visited.stack.length) :
    Completing (past ++ state.visits count) deferred base (state.walk count).2 := by
  induction count generalizing past state with
  | zero => simpa [visits, State.walk] using completing
  | succ count ih =>
      have goesOn := ih (completing.next passes (inside state (List.mem_cons_self ..)))
        passes.next fun visited member => inside visited (List.mem_cons_of_mem _ member)
      rwa [List.append_assoc] at goesOn

/-- When a call that completes a deferred is over, no batch of it is on the stack; its batch is
through and nothing is left on the docket, or a panic goes on its way. -/
theorem Completing.through_or_doomed (completing : Completing past deferred base state)
    (back : state.stack = base) :
    base.rests deferred = [] ∧
      (((∃ visited ∈ past, visited.ComesThrough deferred) ∧
        ∃ docket, (Docket.pending []).Comes (log deferred past) docket ∧
          docket.Accords state.world state.stack deferred ∧ docket.isSettled = true ∧
            docket.left = []) ∨
      (Doomed base state ∧ state.world.ledger.Completed deferred)) := by
  have apart {above settled : Stack} {frame : Frame}
      (placed : state.stack = above ++ frame :: (settled ++ base)) : False := by
    have lengths := congrArg List.length (placed.symm.trans back)
    simp only [List.length_append, List.length_cons] at lengths
    omega
  cases completing with
  | @called reply placed _ => exact (@apart [] [] (.answering reply) placed).elim
  | firing placed _ => exact (apart placed).elim
  | fired comes accords settled spent unfired through =>
      exact ⟨unfired, .inl ⟨through, _, comes, accords, settled, spent⟩⟩
  | doomed doomed completed unfired => exact ⟨unfired, .inr ⟨doomed, completed⟩⟩

/-- When a call that completes a deferred is over, the docket is settled, and nothing is left on
it if the call has returned. -/
theorem Completing.settled (completing : Completing past deferred base state)
    (passes : Passes past state) (back : state.stack = base) :
    ∃ docket, (Docket.pending []).Comes (log deferred past) docket ∧
      docket.Accords state.world state.stack deferred ∧ docket.isSettled = true ∧
        ((∃ reply, state.control = .reply reply) → docket.left = []) := by
  obtain ⟨unfired, ⟨-, docket, comes, accords, settled, spent⟩ | ⟨doomed, completed⟩⟩ :=
    completing.through_or_doomed back
  · exact ⟨docket, comes, accords, settled, fun _ => spent⟩
  · obtain ⟨docket, comes, accords⟩ := passes.accords deferred
    refine ⟨docket, comes, accords, accords.settled completed (back ▸ unfired), ?_⟩
    rintro ⟨reply, replies⟩
    exact absurd replies (doomed.not_reply back)

/-! ## Continuations that run at once -/

theorem registering_of_complete {world : World} {stack : Stack}
    (completed : world.isComplete deferred = true) :
    registering world stack deferred continuation = ⟨world, stack, .task (.run continuation)⟩ :=
  if_pos completed

/-- A thread that blocks on a complete deferred wakes at once. -/
theorem waiting_of_complete {world : World} {stack : Stack} {run : Option (Nat × Nat)}
    (completed : world.isComplete deferred = true) :
    waiting world stack deferred run =
      ⟨world.block deferred run, .answering (.reference world.waiters.size) :: stack,
        .task (.run (.signal world.waiters.size))⟩ :=
  if_pos completed

/-- What is registered on a complete deferred runs by the next small step, and only what waits
for the registration is beneath. -/
theorem next_of_registers (registers : state.effect = .registers deferred continuation)
    (completed : state.world.isComplete deferred = true) :
    state.next.control = .task (.run continuation) ∧
      ∃ reply, state.next.stack = .answering reply :: state.callers := by
  have exerts := state.exerts
  rw [registers] at exerts
  obtain ⟨world, stack, control⟩ := state
  cases exerts with
  | listens same kept =>
      subst same
      have found : world.receipts.find? _ = some _ := kept
      simp [next, requesting, withReceipt, found, registering_of_complete completed, callers]
  | waits same may =>
      subst same
      simp only [next, requesting, World.withAwaiter_of_awaiter may]
      rw [waiting_of_complete]
      · exact ⟨rfl, _, rfl⟩
      · exact completed
  | suspends _ _ incomplete => cases completed.symm.trans incomplete
  | blocks placed replies =>
      subst placed replies
      simp only [next, returning]
      rw [waiting_of_complete]
      · exact ⟨rfl, _, rfl⟩
      · exact completed

/-- What runs has been registered on a complete deferred, or has its turn in the batch. -/
theorem control_of_runs (runs : (state.noted? deferred).bind Entry.runs? = some continuation) :
    state.next.control = .task (.run continuation) := by
  obtain ⟨entry, noted, same⟩ := Option.bind_eq_some_iff.mp runs
  cases happens_of_entry noted with
  | kept _ _ _ | published _ | broke _ _ => cases same
  | fired placed replies =>
      cases same
      obtain ⟨world, stack, control⟩ := state
      subst placed replies
      rfl
  | ran registers lookup complete =>
      cases same
      exact (next_of_registers registers
        (by rw [World.isComplete_of_get? lookup, complete])).1

/-- A continuation that is registered on a complete deferred runs before its registration
returns, and before any that waits for its turn. -/
structure RunsAtOnce (state : State) (deferred : Nat) (continuation : Continuation) : Prop where
  begins : state.next.control = .task (.run continuation)
  /-- The registration is over only when the continuation has returned or panicked. -/
  answers : ∃ reply, state.next.stack = .answering reply :: state.callers ∧
    ∀ count, state.next.Leaves state.callers count → ∃ fewer < count,
      (state.next.walk fewer).2.stack = .answering reply :: state.callers ∧
        ((∃ reply, (state.next.walk fewer).2.control = .reply reply) ∨
          ∃ payload, (state.next.walk fewer).2.control = .unwind payload)
  overtakes : ∀ count,
    (∀ visited ∈ state.next.visits count, state.callers.length < visited.stack.length) →
      (log deferred (state.next.visits count)).filterMap Entry.fired? = []

end State

/-- What happens to the continuations of a deferred up to a state and in the next small step
keeps their order. -/
structure Orderly (past : List State) (deferred : Nat) (state : State) : Prop where
  /-- None runs before the outcome is published. -/
  published : ∀ continuation, (state.noted? deferred).bind Entry.runs? = some continuation →
    state.next.control = .task (.run continuation) ∧
      ∃ outcome, Published past deferred outcome
  /-- Those that are kept run in the order of registration, each once at most. -/
  inTurn : (log deferred past).filterMap Entry.fired? <+:
    (log deferred past).filterMap Entry.kept?
  /-- Of all that are registered, each has run once, or is left. -/
  once : ∃ left, ((log deferred past).filterMap Entry.runs? ++ left).Perm
    ((log deferred past).filterMap Entry.registered?)
  /-- The deferred keeps what is registered on it until it is complete, and nothing then. -/
  keeps : ∀ found, state.world.deferreds.get? deferred = some found →
    found.continuations =
      if found.isComplete then [] else (log deferred past).filterMap Entry.kept?

/-- All that is registered has run once: what was kept in the order of registration. -/
structure AllRun (entries : List Entry) : Prop where
  inTurn : entries.filterMap Entry.fired? = entries.filterMap Entry.kept?
  once : (entries.filterMap Entry.runs?).Perm (entries.filterMap Entry.registered?)

namespace Docket

/-- A settled docket with nothing left means that all has run. -/
theorem Comes.allRun {entries : List Entry} (comes : (Docket.pending []).Comes entries docket)
    (spent : docket.left = []) : AllRun entries where
  inTurn := by
    have whole := comes.fired
    rwa [spent, List.append_nil] at whole
  once := by
    have whole := comes.runs
    rwa [spent, List.append_nil] at whole

end Docket

theorem Passes.orderly (passes : Passes past state) (deferred : Nat) :
    Orderly past deferred state := by
  obtain ⟨docket, comes, accords⟩ := passes.accords deferred
  refine ⟨fun continuation runs => ⟨State.control_of_runs runs, ?_⟩, ?_, ⟨docket.left, ?_⟩, ?_⟩
  · obtain ⟨later, turns, -, -⟩ := passes.accords_next comes accords
    obtain ⟨entry, noted, same⟩ := Option.bind_eq_some_iff.mp runs
    rw [noted] at turns
    have complete : docket.isPending = false := by
      cases turns with
      | ran _ complete => exact complete
      | fired => rfl
      | kept _ | published | broke => cases same
    obtain ⟨before, among, happens⟩ := List.mem_filterMap.mp (comes.published rfl complete)
    cases State.happens_of_entry happens with
    | published publishes => exact ⟨_, before, among, publishes⟩
  · exact ⟨docket.left, comes.fired⟩
  · exact comes.runs
  · intro found lookup
    cases docket with
    | pending kept =>
        obtain ⟨-, keeps⟩ := accords
        simp only [lookup] at keeps
        rw [keeps.1, keeps.2]
        exact (comes.pending rfl).symm
    | complete _ | broken _ =>
        obtain ⟨⟨other, present, complete, nothing⟩, -⟩ := accords
        cases lookup.symm.trans present
        simp [complete, nothing]

theorem Passes.runsAtOnce (passes : Passes past state)
    (registers : state.effect = .registers deferred continuation)
    (completed : state.world.ledger.Completed deferred) :
    state.RunsAtOnce deferred continuation := by
  obtain ⟨found, lookup, complete⟩ := completed
  obtain ⟨begins, reply, placed⟩ := State.next_of_registers registers
    (by rw [World.isComplete_of_get? lookup, complete])
  refine ⟨begins, ⟨reply, placed, fun count leaves =>
    @State.Leaves.delivers _ _ _ [] _ _ leaves passes.next.reaches placed⟩, ?_⟩
  intro count inside
  have still : state.next.world.ledger.Completed deferred :=
    (State.onward_next passes.reaches.inOrder).completed ⟨found, lookup, complete⟩
  by_cases unfired : state.callers.rests deferred = []
  · -- Without a batch beneath, nothing is left to be fired.
    obtain ⟨docket, -, accords⟩ := passes.next.accords deferred
    have settled := accords.settled still (by rw [placed, Stack.rests_other rfl, unfired])
    obtain ⟨later, comes, -⟩ := accords.goesOn passes.next (state.next.goesOn_walk count)
    exact (comes.settled settled).2.2
  · -- The batch is beneath, and has no turn meanwhile.
    refine List.filterMap_eq_nil_iff.mpr fun entry member => ?_
    obtain ⟨visited, among, noted⟩ := List.mem_filterMap.mp member
    cases State.happens_of_entry noted with
    | kept _ _ _ | published _ | ran _ _ _ | broke _ _ => rfl
    | @fired first rest below _ innermost _ =>
        obtain ⟨fewer, bound, rfl⟩ := State.exists_walk_of_mem among
        obtain ⟨above, beneath⟩ :
            ∃ above, (state.next.walk fewer).2.stack = above ++ state.callers :=
          @State.beneath_walk _ _ [.answering reply] _ _ passes.next.reaches placed
            fun visited member =>
              inside visited (State.mem_visits_of_le (Nat.le_of_lt bound) member)
        obtain ⟨docket, -, accords⟩ := (passes.next.walk fewer).accords deferred
        have higher := inside _ among
        rw [innermost] at accords
        obtain ⟨-, -, alone⟩ := accords.of_firing
        cases above with
        | nil =>
            rw [beneath, List.nil_append] at higher
            exact absurd higher (Nat.lt_irrefl _)
        | cons head above =>
            have same : below = above ++ state.callers :=
              (List.cons.inj (innermost.symm.trans beneath)).2
            rw [same, Stack.rests_append, List.append_eq_nil_iff] at alone
            exact absurd alone.2 unfired

/-- Continuations run in order and once.  None runs before the outcome of its deferred is
published; those that were registered before then run in the order of registration, while the
completing call lasts; one that is registered later runs at once, before its registration returns
and before those that still wait for their turn; and when the completing call has returned, all
that have been registered so far have run, and the deferred keeps none, now and later. -/
theorem continuation_order (passes : Passes past state) (deferred : Nat) :
    Orderly past deferred state ∧
    (∀ continuation, state.effect = .registers deferred continuation →
      state.world.ledger.Completed deferred → state.RunsAtOnce deferred continuation) ∧
    ∀ outcome count more later, state.Completes deferred outcome →
      state.next.Leaves state.callers count → (state.next.walk count).2.GoesOn more later →
        (log deferred more).filterMap Entry.fired? = [] ∧
        ((∃ reply, (state.next.walk count).2.control = .reply reply) →
          AllRun (log deferred (past ++ state.visits (count + 1) ++ more)) ∧
          ∀ found, later.world.deferreds.get? deferred = some found →
            found.continuations = []) := by
  refine ⟨passes.orderly deferred, fun _ => passes.runsAtOnce, ?_⟩
  intro outcome count more later completes leaves goesOn
  have passed : Passes (past ++ state.visits (count + 1)) (state.next.walk count).2 :=
    passes.walk (count + 1)
  have completing := (completes.completing passes).walk passes.next leaves.inside
  rw [List.append_assoc] at completing
  obtain ⟨docket, comes, accords, settled, spent⟩ := completing.settled passed leaves.back
  obtain ⟨reached, goes, agrees⟩ := accords.goesOn passed goesOn
  obtain ⟨still, left, unfired⟩ := goes.settled settled
  refine ⟨unfired, fun returned => ⟨?_, fun found lookup => ?_⟩⟩
  · rw [log_append]
    exact (comes.trans goes).allRun (left.trans (spent returned))
  · obtain ⟨other, present, -, nothing⟩ := agrees.over still
    cases lookup.symm.trans present
    exact nothing

/-- Register two callbacks, the first of which registers another, complete the deferred, and
register one more. -/
def Program.crowding : Program :=
  .call (.pending (.shared "result") false (.shared "writer")) fun _ =>
    .call (.onComplete (.shared "result")
      (.call (.onComplete (.shared "result") (.ret .notYet)) .ret)) fun _ =>
        .call (.onComplete (.shared "result") (.ret .done)) fun _ =>
          .call (.complete (.shared "writer") (.ok .null)) fun _ =>
            .call (.onComplete (.shared "result") (.ret (.flag true))) .ret

/-- The completing call is about to be made. -/
def State.crowding : State := ((State.ofProgram .initial .crowding).walk 8).2

/-- The callback that the first one registers runs before the second one, and all four have run
in the end. -/
theorem continuation_order_crowding :
    (State.crowding.walk 4).2.RunsAtOnce 0 (.callback (.ret .notYet)) ∧
    ∃ entries, entries.filterMap Entry.runs? =
        [.callback (.call (.onComplete (.shared "result") (.ret .notYet)) .ret),
          .callback (.ret .notYet), .callback (.ret .done), .callback (.ret (.flag true))] ∧
      AllRun entries := by
  have passes : Passes ([] ++ (State.ofProgram .initial .crowding).visits 8) .crowding :=
    (Passes.begin .crowding).walk 8
  have inside : (State.crowding.next.visits 14).all
      (fun visited => 1 < visited.stack.length) = true := by decide +kernel
  have leaves : State.crowding.next.Leaves State.crowding.callers 14 :=
    ⟨fun visited member => of_decide_eq_true (List.all_eq_true.mp inside visited member), rfl⟩
  refine ⟨(continuation_order (passes.walk 4) 0).2.1 _ rfl ⟨_, rfl, rfl⟩, _, ?_,
    (((continuation_order passes 0).2.2 (.ok .null) 14 _ _ (.completes rfl rfl) leaves
      (State.goesOn_walk _ 7)).2 ⟨_, rfl⟩).1⟩
  rfl

end Stepwise
