import Stepwise.Proofs.Effects.Steps
import Stepwise.Proofs.Shutdown

/-!
# The continuations of a deferred

What happens to the continuations of one deferred is a log: each is kept while the deferred
is pending, or run at once when it is complete; those kept are fired in their turn, unless a
panic leaves them behind.  The docket of a deferred is what the log leaves to be done, and
agrees with what the deferred keeps and with the batch on the stack.
-/

namespace Stepwise

/-- What happens to the continuations of a deferred. -/
inductive Entry where
  /-- A continuation is kept until the deferred completes. -/
  | kept (continuation : Continuation)
  /-- The outcome is published. -/
  | published
  /-- A continuation that was kept runs in its turn. -/
  | fired (continuation : Continuation)
  /-- A continuation that is registered on the complete deferred runs at once. -/
  | ran (continuation : Continuation)
  /-- A panic leaves those that have not had their turn. -/
  | broke (left : List Continuation)

namespace Entry

/-- The continuation that is kept. -/
def kept? : Entry → Option Continuation
  | .kept continuation => some continuation
  | _ => none

/-- The continuation that runs in its turn. -/
def fired? : Entry → Option Continuation
  | .fired continuation => some continuation
  | _ => none

/-- The continuation that is registered, be it kept or run. -/
def registered? : Entry → Option Continuation
  | .kept continuation => some continuation
  | .ran continuation => some continuation
  | _ => none

/-- The continuation that runs. -/
def runs? : Entry → Option Continuation
  | .fired continuation => some continuation
  | .ran continuation => some continuation
  | _ => none

end Entry

/-- What is left to be done with the continuations of a deferred. -/
inductive Docket where
  | pending (kept : List Continuation)
  /-- The deferred is complete, and these have not had their turn. -/
  | complete (rest : List Continuation)
  /-- The deferred is complete, and a panic has left these. -/
  | broken (left : List Continuation)

namespace Docket

/-- The continuations that have not run. -/
def left : Docket → List Continuation
  | .pending kept => kept
  | .complete rest => rest
  | .broken left => left

/-- Whether the deferred is pending. -/
def isPending : Docket → Bool
  | .pending _ => true
  | _ => false

/-- Whether no continuation is kept or waits for its turn. -/
def isSettled : Docket → Bool
  | .pending _ => false
  | .complete rest => rest.isEmpty
  | .broken _ => true

/-- How a docket changes with what happens, if anything does. -/
inductive Turns : Docket → Option Entry → Docket → Prop where
  | still (docket : Docket) : Turns docket none docket
  | kept {kept : List Continuation} (continuation : Continuation) :
      Turns (.pending kept) (some (.kept continuation)) (.pending (kept ++ [continuation]))
  | published {kept : List Continuation} :
      Turns (.pending kept) (some .published) (.complete kept)
  | fired {continuation : Continuation} {rest : List Continuation} :
      Turns (.complete (continuation :: rest)) (some (.fired continuation)) (.complete rest)
  | broke {left : List Continuation} :
      Turns (.complete left) (some (.broke left)) (.broken left)
  | ran {docket : Docket} (continuation : Continuation) :
      docket.isPending = false → Turns docket (some (.ran continuation)) docket

/-- What a docket comes to by what happens, oldest first. -/
inductive Comes (docket : Docket) : List Entry → Docket → Prop where
  | here : Comes docket [] docket
  | next {entries : List Entry} {entry : Option Entry} {reached later : Docket} :
      docket.Comes entries reached → reached.Turns entry later →
        docket.Comes (entries ++ entry.toList) later

end Docket

/-- What an effect does to the continuations of a deferred. -/
def Effect.noted? (deferred : Nat) (found : Deferred) : Effect → Option Entry
  | .registers other continuation =>
      if other = deferred then
        some (if found.isComplete then .ran continuation else .kept continuation)
      else none
  | .publishes other _ => if other = deferred then some .published else none
  | _ => none

/-- What becomes of the batch of a deferred when its frame gets a reply or a panic. -/
def Frame.noted? (deferred : Nat) : Frame → Control → Option Entry
  | .firing other (first :: _), .reply _ => if other = deferred then some (.fired first) else none
  | .firing other left, .unwind _ => if other = deferred then some (.broke left) else none
  | _, _ => none

/-- What becomes of the batch of a deferred in a small step. -/
def State.turned? (deferred : Nat) (state : State) : Option Entry :=
  state.stack.head?.bind (·.noted? deferred state.control)

/-- What a small step does to the continuations of a deferred. -/
def State.noted? (deferred : Nat) (state : State) : Option Entry :=
  (state.turned? deferred).or
    ((state.world.deferreds.get? deferred).bind (state.effect.noted? deferred))

/-- What has happened to the continuations of a deferred, oldest first. -/
def log (deferred : Nat) (past : List State) : List Entry :=
  past.filterMap (State.noted? deferred)

/-- The batches of a deferred that are being fired, innermost first. -/
def Stack.rests (deferred : Nat) (stack : Stack) : List (List Continuation) :=
  stack.batches.filterMap fun batch => if batch.1 = deferred then some batch.2 else none

/-- A deferred is complete, and keeps no continuation. -/
def World.Over (world : World) (deferred : Nat) : Prop :=
  ∃ found, world.deferreds.get? deferred = some found ∧ found.isComplete = true ∧
    found.continuations = []

/-- A deferred keeps what is on the docket while it is pending, and the stack fires what is
on the docket afterwards. -/
def Docket.Accords (world : World) (stack : Stack) (deferred : Nat) : Docket → Prop
  | .pending kept =>
      stack.rests deferred = [] ∧
        match world.deferreds.get? deferred with
        | some found => found.isComplete = false ∧ found.continuations = kept
        | none => kept = []
  | .complete rest =>
      world.Over deferred ∧
        (stack.rests deferred = [rest] ∨ rest = [] ∧ stack.rests deferred = [])
  | .broken _ => world.Over deferred ∧ stack.rests deferred = []

variable {state : State} {world later : World} {stack : Stack} {past : List State}
  {chronicle : Chronicle} {deferred : Nat} {docket : Docket}
  {continuation : Continuation} {outcome : Outcome} {effect : Effect}

namespace Stack

theorem rests_append (stack more : Stack) (deferred : Nat) :
    Stack.rests deferred (stack ++ more) = stack.rests deferred ++ more.rests deferred := by
  simp [rests]

theorem rests_firing (other : Nat) (rest : List Continuation) :
    Stack.rests deferred (.firing other rest :: stack) =
      if other = deferred then rest :: stack.rests deferred else stack.rests deferred := by
  by_cases same : other = deferred <;> simp [rests, batches, Frame.batch?, same]

theorem rests_other {frame : Frame} (unbatched : frame.batch? = none) :
    Stack.rests deferred (frame :: stack) = stack.rests deferred := by
  simp [rests, batches, unbatched]

end Stack

/-! ## What a deferred keeps -/

namespace Effect

/-- A complete deferred that keeps nothing stays so. -/
theorem Alters.over (alters : effect.Alters world.deferreds later.deferreds)
    (isOver : world.Over deferred) : later.Over deferred := by
  obtain ⟨found, lookup, complete, nothing⟩ := isOver
  obtain ⟨changed, present, continuations, progress⟩ := alters.kept deferred found lookup
  refine ⟨changed, present, ?_, ?_⟩
  · simp only [Deferred.isComplete, progress]
    cases effect with
    | nothing | registers _ _ | signals _ _ => exact complete
    | publishes other _ =>
        simp only [Effect.progress]
        by_cases same : other = deferred
        · simp [same]
        · rw [if_neg same]
          exact complete
    | retrieves other =>
        simp only [Effect.progress]
        by_cases same : other = deferred
        · rw [if_pos same]
          simp only [Deferred.isComplete, Deferred.afterRetrieval] at complete ⊢
          cases reached : found.progress <;> simp_all
        · rw [if_neg same]
          exact complete
  · rw [continuations]
    cases effect with
    | nothing | retrieves _ | signals _ _ => exact nothing
    | registers other _ => simp [Effect.continuations, complete, nothing]
    | publishes other _ => simp [Effect.continuations, nothing]

/-- A pending deferred whose outcome is not published stays pending, and keeps what is
registered on it. -/
theorem Alters.pending {found : Deferred}
    (alters : effect.Alters world.deferreds later.deferreds)
    (lookup : world.deferreds.get? deferred = some found) (pending : found.isComplete = false)
    (unpublished : ∀ outcome, effect ≠ .publishes deferred outcome) :
    ∃ changed, later.deferreds.get? deferred = some changed ∧ changed.isComplete = false ∧
      changed.continuations = effect.continuations deferred found := by
  obtain ⟨changed, present, continuations, progress⟩ := alters.kept deferred found lookup
  refine ⟨changed, present, ?_, continuations⟩
  have reached : found.progress = .pending := by
    cases reached : found.progress <;> simp_all [Deferred.isComplete]
  simp only [Deferred.isComplete, progress]
  cases effect with
  | nothing | registers _ _ | signals _ _ => simp [Effect.progress, reached]
  | publishes other outcome =>
      have different : other ≠ deferred := by
        rintro rfl
        exact unpublished outcome rfl
      simp [Effect.progress, different, reached]
  | retrieves other => simp [Effect.progress, Deferred.afterRetrieval, reached]

/-- The publication of an outcome completes the deferred, and leaves nothing there. -/
theorem Alters.publishes {found : Deferred}
    (alters : (Effect.publishes deferred outcome).Alters world.deferreds later.deferreds)
    (lookup : world.deferreds.get? deferred = some found) : later.Over deferred := by
  obtain ⟨changed, present, continuations, progress⟩ := alters.kept deferred found lookup
  exact ⟨changed, present, by simp [Deferred.isComplete, progress, Effect.progress],
    by simp [continuations, Effect.continuations]⟩

end Effect

/-! ## What the stack fires -/

namespace State

/-- The batch of a deferred stays as it is, or is over, unless it has its turn or the deferred
is completed. -/
theorem rests_next (still : state.turned? deferred = none)
    (unpublished : ∀ outcome, state.control ≠ .task (.publish deferred outcome)) :
    state.stack.rests deferred = state.next.stack.rests deferred ∨
      state.stack.rests deferred = [] :: state.next.stack.rests deferred := by
  have left := congrArg
    (List.filterMap fun batch => if batch.1 = deferred then some batch.2 else none)
    state.takesEffect.batches
  rw [List.filterMap_append] at left
  change state.next.stack.rests deferred = _ ++ state.base.rests deferred at left
  rw [left]
  clear left
  obtain ⟨world, stack, control⟩ := state
  cases control with
  | program _ | halted _ => exact .inl rfl
  | task task =>
      cases task with
      | publish other outcome =>
          have different : other ≠ deferred := by
            rintro rfl
            exact unpublished outcome rfl
          cases lookup : world.deferreds.get? other <;>
            simp [leaves?, base, lookup, different]
      | _ => exact .inl rfl
  | reply reply =>
      cases stack with
      | nil => exact .inl rfl
      | cons frame rest =>
          cases frame with
          | firing other batch =>
              cases batch with
              | nil =>
                  rw [Stack.rests_firing]
                  by_cases same : other = deferred
                  · exact .inr (if_pos same)
                  · exact .inl (if_neg same)
              | cons first batch =>
                  have different : other ≠ deferred := by
                    simpa [turned?, Frame.noted?] using still
                  simp [Stack.rests_firing, different, leaves?, base]
          | _ => exact .inl (Stack.rests_other rfl)
  | unwind payload =>
      cases stack with
      | nil => exact .inl rfl
      | cons frame rest =>
          cases frame with
          | firing other batch =>
              have different : other ≠ deferred := by
                simpa [turned?, Frame.noted?] using still
              simp [Stack.rests_firing, different, leaves?, base]
          | _ => exact .inl (Stack.rests_other rfl)

/-- A deferred that is completed has its continuations fired. -/
theorem rests_of_publish {found : Deferred}
    (publishes : state.control = .task (.publish deferred outcome))
    (lookup : state.world.deferreds.get? deferred = some found) :
    state.next.stack.rests deferred = found.continuations :: state.stack.rests deferred := by
  obtain ⟨world, stack, control⟩ := state
  subst publishes
  have present : world.deferreds.get? deferred = some found := lookup
  simp [next, carryingOut, publishing, present, Stack.rests_firing]

/-- Only the task that publishes an outcome has that effect. -/
theorem control_of_publishes (publishes : state.effect = .publishes deferred outcome) :
    state.control = .task (.publish deferred outcome) := by
  have exerts := state.exerts
  rw [publishes] at exerts
  cases exerts with
  | publishes same => exact same

/-- A batch has its turn when its frame is the innermost one, and a panic breaks it. -/
theorem stack_of_turned {entry : Entry} (turned : state.turned? deferred = some entry) :
    ∃ below,
      (∃ first rest, entry = .fired first ∧
        state.stack = .firing deferred (first :: rest) :: below ∧
        ∃ reply, state.control = .reply reply) ∨
      ∃ left payload, entry = .broke left ∧ state.stack = .firing deferred left :: below ∧
        state.control = .unwind payload := by
  obtain ⟨world, stack, control⟩ := state
  cases stack with
  | nil => cases turned
  | cons frame below =>
      refine ⟨below, ?_⟩
      simp only [turned?, List.head?_cons, Option.bind_some] at turned
      unfold Frame.noted? at turned
      split at turned
      · split at turned
        · next same =>
            subst same
            cases turned
            exact .inl ⟨_, _, rfl, rfl, _, rfl⟩
        · cases turned
      · split at turned
        · next same =>
            subst same
            cases turned
            exact .inr ⟨_, _, rfl, rfl, rfl⟩
        · cases turned
      · cases turned

/-- Where each entry of a log comes from. -/
inductive Happens (state : State) (deferred : Nat) : Entry → Prop where
  | kept {continuation : Continuation} {found : Deferred} :
      state.effect = .registers deferred continuation →
        state.world.deferreds.get? deferred = some found → found.isComplete = false →
          Happens state deferred (.kept continuation)
  | published {outcome : Outcome} :
      state.control = .task (.publish deferred outcome) → Happens state deferred .published
  | fired {continuation : Continuation} {rest : List Continuation} {below : Stack}
      {reply : Reply} :
      state.stack = .firing deferred (continuation :: rest) :: below →
        state.control = .reply reply → Happens state deferred (.fired continuation)
  | ran {continuation : Continuation} {found : Deferred} :
      state.effect = .registers deferred continuation →
        state.world.deferreds.get? deferred = some found → found.isComplete = true →
          Happens state deferred (.ran continuation)
  | broke {left : List Continuation} {below : Stack} {payload : Payload} :
      state.stack = .firing deferred left :: below → state.control = .unwind payload →
        Happens state deferred (.broke left)

theorem happens_of_entry {entry : Entry} (noted : state.noted? deferred = some entry) :
    state.Happens deferred entry := by
  cases turned : state.turned? deferred with
  | some turn =>
      simp only [noted?, turned, Option.some_or, Option.some.injEq] at noted
      subst noted
      obtain ⟨below, ⟨first, rest, rfl, placed, reply, replies⟩ |
        ⟨left, payload, rfl, placed, unwinds⟩⟩ := stack_of_turned turned
      · exact .fired placed replies
      · exact .broke placed unwinds
  | none =>
      rw [noted?, turned, Option.none_or] at noted
      obtain ⟨found, lookup, noted⟩ := Option.bind_eq_some_iff.mp noted
      cases effect : state.effect with
      | nothing | retrieves _ | signals _ _ => simp [effect, Effect.noted?] at noted
      | publishes other outcome =>
          simp only [effect, Effect.noted?, Option.ite_none_right_eq_some,
            Option.some.injEq] at noted
          obtain ⟨rfl, rfl⟩ := noted
          exact .published (control_of_publishes effect)
      | registers other continuation =>
          simp only [effect, Effect.noted?, Option.ite_none_right_eq_some,
            Option.some.injEq] at noted
          obtain ⟨rfl, rfl⟩ := noted
          split
          · next complete => exact .ran effect lookup complete
          · next pending => exact .kept effect lookup (by simpa using pending)

/-- No batch has its turn while something else goes on. -/
theorem turned_of_calling (unreplied : ∀ reply, state.control ≠ .reply reply)
    (calm : ∀ payload, state.control ≠ .unwind payload) : state.turned? deferred = none := by
  refine Option.eq_none_iff_forall_not_mem.mpr fun entry turned => ?_
  obtain ⟨_, ⟨_, _, -, -, reply, replies⟩ | ⟨_, payload, -, -, unwinds⟩⟩ :=
    stack_of_turned turned
  · exact unreplied reply replies
  · exact calm payload unwinds

end State

/-! ## Small steps -/

/-- A docket with a batch on the stack is that of a complete deferred. -/
theorem Docket.Accords.of_firing {below : Stack} {rest : List Continuation}
    (accords : docket.Accords world (.firing deferred rest :: below) deferred) :
    docket = .complete rest ∧ world.Over deferred ∧ below.rests deferred = [] := by
  cases docket with
  | pending kept =>
      have nothing := accords.1
      simp [Stack.rests_firing] at nothing
  | broken left =>
      have nothing := accords.2
      simp [Stack.rests_firing] at nothing
  | complete left =>
      obtain ⟨isOver, batch⟩ := accords
      rw [Stack.rests_firing, if_pos rfl] at batch
      rcases batch with one | ⟨-, nothing⟩
      · obtain ⟨rfl, none⟩ := List.cons.inj one
        exact ⟨rfl, isOver, none⟩
      · cases nothing

/-- A batch that has its turn is that on the docket. -/
theorem Docket.Accords.turned {entry : Entry}
    (accords : docket.Accords state.world state.stack deferred)
    (turned : state.turned? deferred = some entry) :
    ∃ later, docket.Turns (some entry) later ∧
      later.Accords state.next.world state.next.stack deferred := by
  obtain ⟨below, cases⟩ := State.stack_of_turned turned
  obtain ⟨world, stack, control⟩ := state
  rcases cases with ⟨first, rest, rfl, rfl, reply, rfl⟩ | ⟨left, payload, rfl, rfl, rfl⟩
  · obtain ⟨rfl, isOver, nothing⟩ := accords.of_firing
    refine ⟨.complete rest, .fired, isOver, .inl ?_⟩
    simp [State.next, State.returning, Stack.rests_firing, nothing]
  · obtain ⟨rfl, isOver, nothing⟩ := accords.of_firing
    refine ⟨.broken left, .broke, ?_, ?_⟩
    · simp only [State.next, State.unwindingThrough]
      unfold State.dropping
      split <;> exact isOver
    · simp only [State.next, State.unwindingThrough]
      unfold State.dropping
      split
      · exact nothing
      · exact (Stack.rests_other rfl).trans nothing

/-- What is published leaves the continuations on the docket to be fired. -/
theorem Docket.Accords.published
    (accords : docket.Accords state.world state.stack deferred)
    (publishes : state.control = .task (.publish deferred outcome))
    (pending : ¬ state.world.ledger.Completed deferred) :
    ∃ later, docket.Turns (state.noted? deferred) later ∧
      later.Accords state.next.world state.next.stack deferred := by
  have effect : state.effect = .publishes deferred outcome := by
    simp [State.effect, publishes]
  have quiet : state.turned? deferred = none :=
    State.turned_of_calling (by simp [publishes]) (by simp [publishes])
  have alters := state.takesEffect.alters
  rw [effect] at alters
  cases docket with
  | complete _ =>
      obtain ⟨⟨found, lookup, complete, -⟩, -⟩ := accords
      exact absurd ⟨found, lookup, complete⟩ pending
  | broken _ =>
      obtain ⟨⟨found, lookup, complete, -⟩, -⟩ := accords
      exact absurd ⟨found, lookup, complete⟩ pending
  | pending kept =>
      obtain ⟨unfired, keeps⟩ := accords
      cases lookup : state.world.deferreds.get? deferred with
      | none =>
          have same : state.next = .replying state.world state.stack .done := by
            obtain ⟨world, stack, control⟩ := state
            subst publishes
            have absent : world.deferreds.get? deferred = none := lookup
            simp [State.next, State.carryingOut, State.publishing, absent]
          rw [State.noted?, quiet, lookup, same]
          refine ⟨.pending kept, .still _, unfired, ?_⟩
          simp only [lookup] at keeps
          simpa only [State.replying, lookup] using keeps
      | some found =>
          simp only [lookup] at keeps
          have entry : state.noted? deferred = some .published := by
            simp [State.noted?, quiet, lookup, effect, Effect.noted?]
          rw [entry]
          refine ⟨.complete kept, .published, alters.publishes lookup, .inl ?_⟩
          rw [State.rests_of_publish publishes lookup, unfired, keeps.2]

/-- An effect that does not publish the outcome of a pending deferred keeps a continuation there,
or does nothing to those it keeps. -/
theorem Effect.entry_of_pending {found : Deferred} (pending : found.isComplete = false)
    (unpublished : ∀ outcome, effect ≠ .publishes deferred outcome) :
    (effect.noted? deferred found = none ∧
      effect.continuations deferred found = found.continuations) ∨
    ∃ continuation, effect.noted? deferred found = some (.kept continuation) ∧
      effect.continuations deferred found = found.continuations ++ [continuation] := by
  cases effect with
  | nothing | retrieves _ | signals _ _ => exact .inl ⟨rfl, rfl⟩
  | publishes other outcome =>
      have different : other ≠ deferred := by
        rintro rfl
        exact unpublished outcome rfl
      exact .inl ⟨if_neg different, if_neg different⟩
  | registers other continuation =>
      by_cases same : other = deferred
      · exact .inr ⟨continuation, by simp [noted?, same, pending],
          by simp [Effect.continuations, same, pending]⟩
      · exact .inl ⟨if_neg same, if_neg fun both => same both.1⟩

/-- A complete deferred stays so, and what is registered on it runs, while its batch has no
turn. -/
theorem World.Over.next (isOver : state.world.Over deferred)
    (still : state.turned? deferred = none)
    (unpublished : ∀ outcome, state.control ≠ .task (.publish deferred outcome))
    (complete : docket.isPending = false) :
    state.next.world.Over deferred ∧ docket.Turns (state.noted? deferred) docket := by
  refine ⟨state.takesEffect.alters.over isOver, ?_⟩
  obtain ⟨found, lookup, complete, -⟩ := isOver
  rw [State.noted?, still, lookup, Option.none_or, Option.bind_some]
  cases effect : state.effect with
  | nothing | retrieves _ | signals _ _ => exact .still _
  | publishes other outcome =>
      have different : other ≠ deferred := by
        rintro rfl
        exact unpublished outcome (State.control_of_publishes effect)
      rw [Effect.noted?, if_neg different]
      exact .still _
  | registers other continuation =>
      rw [Effect.noted?]
      by_cases same : other = deferred
      · rw [if_pos same, if_pos complete]
        exact .ran continuation ‹_›
      · rw [if_neg same]
        exact .still _

/-- What is registered on a pending deferred goes on the docket. -/
theorem Docket.Accords.kept {kept : List Continuation}
    (accords : (Docket.pending kept).Accords state.world state.stack deferred)
    (still : state.turned? deferred = none)
    (unpublished : ∀ outcome, state.control ≠ .task (.publish deferred outcome)) :
    ∃ later, (Docket.pending kept).Turns (state.noted? deferred) later ∧
      later.Accords state.next.world state.next.stack deferred := by
  obtain ⟨unfired, keeps⟩ := accords
  have unfiredStill : state.next.stack.rests deferred = [] := by
    rcases state.rests_next still unpublished with same | isOver
    · exact same.symm.trans unfired
    · exact absurd (isOver.symm.trans unfired) (by simp)
  have alters := state.takesEffect.alters
  have other (outcome : Outcome) : state.effect ≠ .publishes deferred outcome :=
    fun publishes => unpublished outcome (State.control_of_publishes publishes)
  cases lookup : state.world.deferreds.get? deferred with
  | none =>
      simp only [lookup] at keeps
      subst keeps
      have quiet : state.noted? deferred = none := by simp [State.noted?, still, lookup]
      rw [quiet]
      refine ⟨.pending [], .still _, unfiredStill, ?_⟩
      cases present : state.next.world.deferreds.get? deferred with
      | none => rfl
      | some fresh =>
          rw [alters.fresh deferred fresh lookup present]
          exact ⟨rfl, rfl⟩
  | some found =>
      simp only [lookup] at keeps
      obtain ⟨pending, rfl⟩ := keeps
      obtain ⟨changed, present, stillPending, continuations⟩ :=
        alters.pending lookup pending other
      have keepsStill : (Docket.pending (state.effect.continuations deferred found)).Accords
          state.next.world state.next.stack deferred := by
        refine ⟨unfiredStill, ?_⟩
        simp only [present]
        exact ⟨stillPending, continuations⟩
      rw [State.noted?, still, lookup, Option.none_or, Option.bind_some]
      rcases Effect.entry_of_pending pending other with ⟨none, same⟩ | ⟨given, entry, grown⟩
      · rw [none]
        rw [same] at keepsStill
        exact ⟨_, .still _, keepsStill⟩
      · rw [entry]
        rw [grown] at keepsStill
        exact ⟨_, .kept given, keepsStill⟩

/-- A small step turns the docket as what happens in it says, as long as nothing complete is
published. -/
theorem Docket.Accords.next (accords : docket.Accords state.world state.stack deferred)
    (fresh : ∀ outcome, state.control = .task (.publish deferred outcome) →
      ¬ state.world.ledger.Completed deferred) :
    ∃ later, docket.Turns (state.noted? deferred) later ∧
      later.Accords state.next.world state.next.stack deferred := by
  cases turned : state.turned? deferred with
  | some entry =>
      have same : state.noted? deferred = some entry := by simp [State.noted?, turned]
      rw [same]
      exact accords.turned turned
  | none =>
      by_cases publishes : ∃ outcome, state.control = .task (.publish deferred outcome)
      · obtain ⟨outcome, publishes⟩ := publishes
        exact accords.published publishes (fresh outcome publishes)
      · simp only [not_exists] at publishes
        have rests := state.rests_next turned publishes
        cases docket with
        | pending kept => exact accords.kept turned publishes
        | complete rest =>
            obtain ⟨isOver, batch⟩ := accords
            obtain ⟨overStill, turns⟩ :=
              @isOver.next _ _ (.complete rest) turned publishes rfl
            refine ⟨.complete rest, turns, overStill, ?_⟩
            rcases batch with one | ⟨empty, nothing⟩
            · rw [one] at rests
              rcases rests with same | isOver
              · exact .inl same.symm
              · obtain ⟨rfl, nothing⟩ := List.cons.inj isOver
                exact .inr ⟨rfl, nothing.symm⟩
            · rw [nothing] at rests
              rcases rests with same | isOver
              · exact .inr ⟨empty, same.symm⟩
              · cases isOver
        | broken left =>
            obtain ⟨isOver, nothing⟩ := accords
            obtain ⟨overStill, turns⟩ :=
              @isOver.next _ _ (.broken left) turned publishes rfl
            refine ⟨.broken left, turns, overStill, ?_⟩
            rw [nothing] at rests
            rcases rests with same | isOver
            · exact same.symm
            · cases isOver

/-! ## Runs -/

theorem log_snoc (deferred : Nat) (past : List State) (state : State) :
    log deferred (past ++ [state]) = log deferred past ++ (state.noted? deferred).toList := by
  cases entry : state.noted? deferred <;> simp [log, entry]

theorem log_append (deferred : Nat) (past more : List State) :
    log deferred (past ++ more) = log deferred past ++ log deferred more :=
  List.filterMap_append

/-- What is published was not complete. -/
theorem Passes.not_completed_of_publish (passes : Passes past state)
    (publishes : state.control = .task (.publish deferred outcome)) :
    ¬ state.world.ledger.Completed deferred := by
  have custody := passes.reaches.inOrder.custody (by simp [publishes])
  rw [publishes] at custody
  exact custody.not_completed_of_inHand (by simp [Control.holdings, Task.holdings, Holding.assets])

/-- A docket comes to what happens in a run, and what the deferred and the stack hold agrees with
it all the time. -/
theorem Docket.Accords.goesOn {docket : Docket} {more : List State} {later : State}
    (accords : docket.Accords state.world state.stack deferred) (passes : Passes past state)
    (goesOn : state.GoesOn more later) :
    ∃ reached, docket.Comes (log deferred more) reached ∧
      reached.Accords later.world later.stack deferred := by
  induction goesOn with
  | here => exact ⟨docket, .here, accords⟩
  | again program _ ended ih =>
      obtain ⟨reached, comes, agrees⟩ := ih
      rw [ended.1] at agrees
      exact ⟨reached, comes, agrees⟩
  | @next more later goesOn ih =>
      obtain ⟨reached, comes, agrees⟩ := ih
      obtain ⟨turned, turns, stillAgrees⟩ :=
        agrees.next fun _ => (passes.goesOn goesOn).not_completed_of_publish
      rw [log_snoc]
      exact ⟨turned, comes.next turns, stillAgrees⟩

/-- The docket after one small step of a run. -/
theorem Passes.accords_next {docket : Docket} (passes : Passes past state)
    (comes : (Docket.pending []).Comes (log deferred past) docket)
    (accords : docket.Accords state.world state.stack deferred) :
    ∃ later, docket.Turns (state.noted? deferred) later ∧
      (Docket.pending []).Comes (log deferred (past ++ [state])) later ∧
      later.Accords state.next.world state.next.stack deferred := by
  obtain ⟨later, turns, agrees⟩ := accords.next fun _ => passes.not_completed_of_publish
  rw [log_snoc]
  exact ⟨later, turns, comes.next turns, agrees⟩

/-- A run goes on from its beginning. -/
theorem Passes.exists_goesOn (passes : Passes past state) :
    ∃ program, (State.ofProgram .initial program).GoesOn past state := by
  induction passes with
  | begin program => exact ⟨program, .here⟩
  | next _ ih =>
      obtain ⟨program, goesOn⟩ := ih
      exact ⟨program, goesOn.next⟩
  | again more _ ended ih =>
      obtain ⟨program, goesOn⟩ := ih
      exact ⟨program, goesOn.again more ended⟩

/-- What has happened to the continuations of a deferred always leaves a docket, and the deferred
and the stack hold what is on it. -/
theorem Passes.accords (passes : Passes past state) (deferred : Nat) :
    ∃ docket, (Docket.pending []).Comes (log deferred past) docket ∧
      docket.Accords state.world state.stack deferred := by
  obtain ⟨program, goesOn⟩ := passes.exists_goesOn
  have accords : (Docket.pending []).Accords (State.ofProgram .initial program).world
      (State.ofProgram .initial program).stack deferred := by
    refine ⟨rfl, ?_⟩
    simp [State.ofProgram, World.initial]
  exact accords.goesOn (.begin program) goesOn

/-! ## What a docket comes to -/

/-- The docket of a complete deferred without a batch on the stack is settled. -/
theorem Docket.Accords.settled (accords : docket.Accords world stack deferred)
    (completed : world.ledger.Completed deferred) (unfired : stack.rests deferred = []) :
    docket.isSettled = true := by
  cases docket with
  | broken _ => rfl
  | complete rest =>
      rcases accords.2 with one | ⟨rfl, -⟩
      · cases unfired.symm.trans one
      · rfl
  | pending kept =>
      obtain ⟨found, lookup, complete⟩ := completed
      have present : world.deferreds.get? deferred = some found := lookup
      have pending := accords.2
      simp only [present, complete] at pending
      cases pending.1

theorem World.Over.completed (isOver : world.Over deferred) :
    world.ledger.Completed deferred := by
  obtain ⟨found, lookup, complete, -⟩ := isOver
  exact ⟨found, lookup, complete⟩

/-- A deferred with a settled docket is over. -/
theorem Docket.Accords.over (accords : docket.Accords world stack deferred)
    (settled : docket.isSettled = true) : world.Over deferred := by
  cases docket with
  | pending _ => cases settled
  | complete _ | broken _ => exact accords.1

namespace Docket

variable {entries : List Entry} {entry : Option Entry} {later : Docket}

theorem Comes.trans {more : List Entry} {reached : Docket} (first : docket.Comes entries reached)
    (second : reached.Comes more later) : docket.Comes (entries ++ more) later := by
  induction second with
  | here => simpa using first
  | next _ turns ih =>
      rw [← List.append_assoc]
      exact ih.next turns

/-- What is kept is fired in the order of registration, or is left. -/
theorem Comes.fired (comes : docket.Comes entries later) :
    entries.filterMap Entry.fired? ++ later.left =
      docket.left ++ entries.filterMap Entry.kept? := by
  induction comes with
  | here => simp
  | @next entries entry reached later _ turns ih =>
      have step : entry.toList.filterMap Entry.fired? ++ later.left =
          reached.left ++ entry.toList.filterMap Entry.kept? := by
        cases turns <;> simp [left, List.filterMap_cons, Entry.fired?, Entry.kept?]
      rw [List.filterMap_append, List.filterMap_append, List.append_assoc, step,
        ← List.append_assoc, ih, List.append_assoc]

/-- While the deferred is pending, all that was kept is left. -/
theorem Comes.pending (comes : docket.Comes entries later) (pending : later.isPending = true) :
    docket.left ++ entries.filterMap Entry.kept? = later.left := by
  induction comes with
  | here => simp
  | @next entries entry reached later _ turns ih =>
      rw [List.filterMap_append]
      cases turns with
      | still => simpa using ih pending
      | kept continuation =>
          have before := ih rfl
          rw [← List.append_assoc, before]
          rfl
      | ran _ complete => cases pending.symm.trans complete
      | published | fired | broke => cases pending

/-- What is registered runs once, or is left. -/
theorem Comes.runs (comes : docket.Comes entries later) :
    (entries.filterMap Entry.runs? ++ later.left).Perm
      (docket.left ++ entries.filterMap Entry.registered?) := by
  induction comes with
  | here => simp
  | @next entries entry reached later _ turns ih =>
      have step : (entry.toList.filterMap Entry.runs? ++ later.left).Perm
          (reached.left ++ entry.toList.filterMap Entry.registered?) := by
        cases turns with
        | ran continuation _ =>
            simpa [Entry.runs?, Entry.registered?] using
              (List.perm_append_singleton continuation reached.left).symm
        | _ => simp [left, List.filterMap_cons, Entry.runs?, Entry.registered?]
      simp only [List.filterMap_append, List.append_assoc]
      refine (step.append_left _).trans ?_
      rw [← List.append_assoc, ← List.append_assoc]
      exact ih.append_right _

/-- Once nothing is kept or waits for its turn, nothing is fired, and it stays so. -/
theorem Comes.settled (comes : docket.Comes entries later) (settled : docket.isSettled = true) :
    later.isSettled = true ∧ later.left = docket.left ∧
      entries.filterMap Entry.fired? = [] := by
  induction comes with
  | here => exact ⟨settled, rfl, rfl⟩
  | @next entries entry reached later _ turns ih =>
      obtain ⟨before, same, nothing⟩ := ih
      have step : later.isSettled = true ∧ later.left = reached.left ∧
          entry.toList.filterMap Entry.fired? = [] := by
        cases turns with
        | still | ran _ _ => exact ⟨before, rfl, rfl⟩
        | broke => exact ⟨rfl, rfl, rfl⟩
        | kept _ | published | fired => cases before
      rw [List.filterMap_append, nothing, step.2.2]
      exact ⟨step.1, step.2.1.trans same, rfl⟩

/-- A docket that is not pending any more was published. -/
theorem Comes.published (comes : docket.Comes entries later) (pending : docket.isPending = true)
    (complete : later.isPending = false) : .published ∈ entries := by
  induction comes with
  | here => cases pending.symm.trans complete
  | @next entries entry reached later _ turns ih =>
      by_cases before : reached.isPending = true
      · cases turns with
        | published => exact List.mem_append_right _ (by simp)
        | ran _ already => cases before.symm.trans already
        | still | kept _ => cases before.symm.trans complete
        | fired | broke => cases before
      · exact List.mem_append_left _ (ih (by simpa using before))

end Docket

end Stepwise
