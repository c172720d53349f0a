import Stepwise.Proofs.Course.Standing
import Stepwise.Proofs.Outcome

/-!
# Batches of continuations

A deferred that completes fires what is registered on it, one continuation after the other,
and then wakes its waker.  Each begins to run when the one before it has returned.  A panic
that one of them lets out is the end of the batch: those behind it are dropped on the way up
instead of run, so a machine among them is told a shutdown, and the waker is not woken.
-/

namespace Stepwise

/-- What is done with the continuations of a batch, and with the waker behind them. -/
inductive Turn where
  /-- A continuation begins to run. -/
  | runs (continuation : Continuation)
  /-- All have returned, and it is the turn of the deferred's waker. -/
  | wakes (deferred : Nat)
  /-- The panic of a continuation leaves the batch. -/
  | breaks (payload : Payload)
  /-- Something is dropped on the way up. -/
  | drops (owned : Owned)

/-- The whole course of a batch: each continuation runs, in order, and then the waker is
woken; or one of them panics, and those behind it are dropped. -/
inductive Batch (deferred : Nat) (continuations : List Continuation) : List Turn → Prop where
  | fired : Batch deferred continuations (continuations.map .runs ++ [.wakes deferred])
  | broken {ran dropped : List Continuation} {culprit : Continuation} {payload : Payload} :
      continuations = ran ++ culprit :: dropped →
        Batch deferred continuations ((ran ++ [culprit]).map .runs ++
          .breaks payload :: dropped.map (.drops <| .continuation ·))

/-- What is done with a batch when its frame gets a reply or a panic. -/
def Frame.turn? : Frame → Control → Option Turn
  | .firing deferred [], .reply _ => some (.wakes deferred)
  | .firing _ (first :: _), .reply _ => some (.runs first)
  | .firing _ _, .unwind payload => some (.breaks payload)
  | .unwinding (first :: _) _, .reply _ => some (.drops first)
  | _, _ => none

namespace State

/-- What is done next with the batch that is fired on top of so many frames. -/
def turn? (height : Nat) (state : State) : Option Turn :=
  match state.stack with
  | frame :: below => if below.length = height then frame.turn? state.control else none
  | [] => none

/-- What a number of small steps does with the batch that is fired on top of so many
frames. -/
def turns (height count : Nat) (state : State) : List Turn :=
  (state.visits count).filterMap (turn? height)

/-- What a turn of a batch comes down to: what is run is run by the next small step, and a
resumption that is dropped so has its machine told a shutdown. -/
def Takes (state : State) : Turn → Prop
  | .runs continuation => state.next.control = .task (.run continuation)
  | .wakes deferred =>
      ∀ found waker, state.world.deferreds.get? deferred = some found → found.lock = .free →
        found.waker = some waker → state.next.control = .program waker.body
  | .breaks payload => state.control = .unwind payload
  | .drops owned =>
      state.next.control = .task (.discard owned) ∧
        ∀ continuation machine, owned = .continuation continuation →
          continuation.assets = [.resumption machine] →
          ∃ observer, state.next.next.Tells machine observer (.error .shutdown)

end State

variable {trace : List Occurrence} {state : State} {base : Stack} {frame : Frame}
  {continuations : List Continuation} {taken : List Turn} {deferred : Nat}

namespace State

/-- A frame stays where it is until it is the innermost one and gets a reply or a panic;
as long as it does, its batch has no turn. -/
theorem beneath_or_delivers {above : Stack} (order : state.InOrder (.of trace))
    (placed : state.stack = above ++ frame :: base) :
    ((∃ more, state.next.stack = more ++ frame :: base) ∧ state.turn? base.length = none ∧
      (above = [] → ∀ reply, state.control ≠ .reply reply)) ∨
    (state.stack = frame :: base ∧ ((∃ reply, state.control = .reply reply) ∨
      ∃ payload, state.control = .unwind payload)) := by
  obtain ⟨new, goesOn⟩ := stack_next order
  obtain ⟨world, stack, control⟩ := state
  subst placed
  cases above with
  | nil =>
      cases control with
      | reply reply => exact .inr ⟨rfl, .inl ⟨reply, rfl⟩⟩
      | unwind payload => exact .inr ⟨rfl, .inr ⟨payload, rfl⟩⟩
      | program _ | task _ | halted _ =>
          refine .inl ⟨⟨new, goesOn⟩, ?_, by simp⟩
          cases frame <;> simp [turn?, Frame.turn?]
  | cons top rest =>
      have higher : (rest ++ frame :: base).length ≠ base.length := by simp; omega
      refine .inl ⟨?_, by simp only [turn?, List.cons_append, if_neg higher], by simp⟩
      cases control with
      | reply _ | unwind _ => exact ⟨new ++ rest, by simpa [State.base] using goesOn⟩
      | program _ | task _ | halted _ =>
          exact ⟨new ++ top :: rest, by simpa [State.base] using goesOn⟩

/-- A batch of a deferred, after some turns, on top of what waits for it. -/
inductive Fires (deferred : Nat) (continuations : List Continuation) (base : Stack) :
    List Turn → State → Prop where
  | firing {state : State} {above : Stack} {ran rest : List Continuation} :
      continuations = ran ++ rest → state.stack = above ++ .firing deferred rest :: base →
        (ran = [] → above = [] ∧ ∃ reply, state.control = .reply reply) →
        Fires deferred continuations base (ran.map .runs) state
  | waking {state : State} {above : Stack} {poisons : Bool} :
      state.stack = above ++ .waking deferred poisons :: base →
        Fires deferred continuations base (continuations.map .runs ++ [.wakes deferred]) state
  | dropping {state : State} {above : Stack} {ran dropped kept : List Continuation}
      {culprit : Continuation} {payload : Payload} :
      continuations = ran ++ culprit :: (dropped ++ kept) →
        state.stack = above ++ .unwinding (kept.map .continuation) payload :: base →
        Fires deferred continuations base
          ((ran ++ [culprit]).map .runs ++
            .breaks payload :: dropped.map (.drops <| .continuation ·)) state
  | left {state : State} {taken whole : List Turn} :
      state.stack = base → Batch deferred continuations whole → taken <+: whole →
        ((∀ reason, state.control ≠ .halted reason) → taken = whole) →
        Fires deferred continuations base taken state

/-- A batch whose turns are all taken is over as soon as what waits for it goes on. -/
theorem Fires.whole (placed : state.stack = base)
    (batch : Batch deferred continuations taken) :
    Fires deferred continuations base taken state :=
  .left placed batch (List.prefix_refl _) fun _ => rfl

/-- When all continuations have returned, the waker is woken, if it can be. -/
theorem Fires.awakening {world : World} :
    Fires deferred continuations base (continuations.map .runs ++ [.wakes deferred])
      (.awakening world base deferred) := by
  unfold State.awakening
  split
  · exact .whole rfl .fired
  · split
    · exact .whole rfl .fired
    · exact .whole rfl .fired
    · exact .whole rfl .fired
    · exact @Fires.waking _ _ _ _ [] _ rfl

/-- The frame on top of those that wait for the batch gives the batch its turn. -/
theorem turn?_of_innermost (placed : state.stack = frame :: base) :
    state.turn? base.length = frame.turn? state.control := by
  rw [turn?, placed]
  exact if_pos rfl

/-- One small step takes one turn of a batch at most. -/
theorem Fires.next (fires : Fires deferred continuations base taken state)
    (order : state.InOrder (.of trace)) (inside : base.length < state.stack.length) :
    Fires deferred continuations base (taken ++ (state.turn? base.length).toList)
      state.next := by
  cases fires with
  | @firing _ above ran rest split placed begins =>
      rcases beneath_or_delivers order placed with ⟨⟨more, still⟩, quiet, held⟩ | ⟨placed, how⟩
      · rw [quiet, Option.toList_none, List.append_nil]
        refine .firing split still fun none => ?_
        obtain ⟨innermost, reply, replies⟩ := begins none
        exact absurd replies (held innermost reply)
      · rw [turn?_of_innermost placed]
        obtain ⟨world, stack, control⟩ := state
        subst placed
        rcases how with ⟨reply, rfl⟩ | ⟨payload, rfl⟩
        · cases rest with
          | nil =>
              rw [List.append_nil] at split
              subst split
              exact .awakening
          | cons first rest =>
              have started : Fires deferred continuations base ((ran ++ [first]).map .runs)
                  ⟨world, .firing deferred rest :: base, .task (.run first)⟩ :=
                @Fires.firing _ _ _ _ [] _ rest (by simp [split]) rfl (by simp)
              rw [List.map_append] at started
              exact started
        · -- A batch is not broken before a continuation has begun to run.
          rcases List.eq_nil_or_concat ran with rfl | ⟨ran, culprit, rfl⟩
          · obtain ⟨-, reply, replies⟩ := begins rfl
            cases replies
          · rw [List.concat_eq_append, List.append_assoc] at split
            rw [List.concat_eq_append]
            cases rest with
            | nil => exact .whole rfl (.broken split)
            | cons first rest =>
                exact @Fires.dropping _ _ _ _ [] _ [] (first :: rest) _ payload split rfl
  | waking placed =>
      rcases beneath_or_delivers order placed with ⟨⟨more, still⟩, quiet, -⟩ | ⟨placed, how⟩
      · rw [quiet, Option.toList_none, List.append_nil]
        exact .waking still
      · rw [turn?_of_innermost placed]
        obtain ⟨world, stack, control⟩ := state
        subst placed
        rcases how with ⟨reply, rfl⟩ | ⟨payload, rfl⟩
        all_goals
          simp only [Frame.turn?, Option.toList_none, List.append_nil]
          exact .whole rfl .fired
  | @dropping _ above ran dropped kept culprit payload split placed =>
      rcases beneath_or_delivers order placed with ⟨⟨more, still⟩, quiet, -⟩ | ⟨placed, how⟩
      · rw [quiet, Option.toList_none, List.append_nil]
        exact .dropping split still
      · rw [turn?_of_innermost placed]
        obtain ⟨world, stack, control⟩ := state
        subst placed
        rcases how with ⟨reply, rfl⟩ | ⟨second, rfl⟩
        · cases kept with
          | nil =>
              rw [List.append_nil] at split
              simp only [List.map_nil, Frame.turn?, Option.toList_none, List.append_nil]
              exact .whole rfl (.broken split)
          | cons first kept =>
              have drops := @Fires.dropping deferred continuations base
                ⟨world, .unwinding (kept.map .continuation) payload :: base,
                  .task (.discard (.continuation first))⟩ []
                ran (dropped ++ [first]) kept culprit payload (by simp [split]) rfl
              simp only [List.map_append, List.append_assoc, List.cons_append] at drops ⊢
              exact drops
        · -- A second panic halts the run.
          have batch : Batch deferred continuations _ := @Batch.broken _ _ _ _ _ payload split
          refine .left rfl batch ?_ fun running => absurd rfl (running .doublePanic)
          simp [Frame.turn?]
  | left placed _ _ _ => simp [placed] at inside

/-- Small steps take the turns of a batch one after the other. -/
theorem Fires.walk {count : Nat} (fires : Fires deferred continuations base taken state)
    (reaches : Reaches trace state)
    (inside : ∀ visited ∈ state.visits count, base.length < visited.stack.length) :
    Fires deferred continuations base (taken ++ state.turns base.length count)
      (state.walk count).2 := by
  induction count generalizing trace state taken with
  | zero => simpa [turns, visits, State.walk] using fires
  | succ count ih =>
      have goesOn := ih
        (fires.next reaches.inOrder (inside state (List.mem_cons_self ..))) reaches.next
        fun visited member => inside visited (List.mem_cons_of_mem _ member)
      rw [List.append_assoc] at goesOn
      have split : state.turns base.length (count + 1) =
          (state.turn? base.length).toList ++ state.next.turns base.length count := by
        cases turn : state.turn? base.length <;> simp [turns, visits, turn]
      rwa [split]

/-- The turns that were taken begin the course of the batch, and are all of it once those who
wait for it go on. -/
theorem Fires.batch (fires : Fires deferred continuations base taken state) :
    ∃ whole, Batch deferred continuations whole ∧ taken <+: whole ∧
      (state.stack = base → (∀ reason, state.control ≠ .halted reason) → taken = whole) := by
  have beneath {above : Stack} {frame : Frame}
      (placed : state.stack = above ++ frame :: base) :
      state.stack ≠ base := by
    intro same
    have lengths := congrArg List.length (placed.symm.trans same)
    simp only [List.length_append, List.length_cons] at lengths
    omega
  cases fires with
  | @firing _ _ ran rest split placed _ =>
      refine ⟨_, .fired, ⟨rest.map .runs ++ [.wakes deferred], ?_⟩, fun same => ?_⟩
      · simp [split]
      · exact absurd same (beneath placed)
  | waking placed =>
      exact ⟨_, .fired, List.prefix_refl _, fun same => absurd same (beneath placed)⟩
  | @dropping _ _ ran dropped kept culprit payload split placed =>
      refine ⟨_, @Batch.broken _ _ _ _ _ payload split,
        ⟨kept.map (.drops <| .continuation ·), ?_⟩, fun same => ?_⟩
      · simp
      · exact absurd same (beneath placed)
  | left placed batch begun all => exact ⟨_, batch, begun, fun _ => all⟩

/-- A turn of a batch comes down to what it says. -/
theorem takes_of_turn {height : Nat} {turn : Turn} (reaches : Reaches trace state)
    (takes : state.turn? height = some turn) : state.Takes turn := by
  obtain ⟨world, stack, control⟩ := state
  cases stack with
  | nil => cases takes
  | cons frame below =>
      simp only [turn?] at takes
      split at takes
      · unfold Frame.turn? at takes
        split at takes
        · cases takes
          intro found waker lookup free kept
          have present : world.deferreds.get? _ = some found := lookup
          simp [next, returning, awakening, present, free, kept]
        · cases takes
          rfl
        · cases takes
          rfl
        · cases takes
          refine ⟨rfl, ?_⟩
          rintro continuation machine rfl carried
          exact ⟨_, (tells_of_abandons reaches.next.inOrder ⟨continuation, rfl, carried⟩).2⟩
        · cases takes
      · cases takes

end State

/-- Batches.  When a deferred completes, what is done with its continuations is always the
beginning of the course of a batch, and all of it when those who wait for it go on, unless
the run has halted.  So every continuation runs, and the waker is woken, unless one of them
panics; but then none of those behind it runs, the waker is not woken, and every machine
among them is told a shutdown. -/
theorem batch_fired {outcome : Outcome} {found : Deferred} {count : Nat}
    (reaches : Reaches trace state)
    (publishes : state.control = .task (.publish deferred outcome))
    (lookup : state.world.deferreds.get? deferred = some found)
    (inside : ∀ visited ∈ state.next.visits count,
      state.stack.length < visited.stack.length) :
    (∃ whole, Batch deferred found.continuations whole ∧
      state.next.turns state.stack.length count <+: whole ∧
      ((state.next.walk count).2.stack = state.stack →
        (∀ reason, (state.next.walk count).2.control ≠ .halted reason) →
          state.next.turns state.stack.length count = whole)) ∧
    ∀ visited ∈ state.next.visits count, ∀ turn,
      visited.turn? state.stack.length = some turn → visited.Takes turn := by
  have fires : State.Fires deferred found.continuations state.stack [] state.next := by
    obtain ⟨world, stack, control⟩ := state
    subst publishes
    have present : world.deferreds.get? deferred = some found := lookup
    refine @State.Fires.firing _ _ _ _ [] [] found.continuations rfl ?_ fun _ => ⟨rfl, ?_⟩ <;>
      simp [State.next, State.carryingOut, State.publishing, present]
  have last := fires.walk reaches.next inside
  rw [List.nil_append] at last
  refine ⟨last.batch, ?_⟩
  intro visited member turn takes
  obtain ⟨trace, reached⟩ := reaches.next.visits member
  exact State.takes_of_turn reached takes

/-- Register a callback that panics, start a machine that awaits the same deferred, and poll
it; then complete it. -/
def Program.spoiling : Program :=
  .call (.pending (.shared "result") false (.shared "writer")) fun _ =>
    .call (.onComplete (.shared "result") (.panic (.text "boom"))) fun _ =>
      .call (.start (.shared "machine")
        (.custom fun _ => .call (.suspend (.shared "result") 0) .ret) .inline
        fun _ => .ret .done) fun _ =>
          .call (.newWaker (.shared "waker") (.ret .done)) fun _ =>
            .call (.poll (.shared "result") (.shared "waker")) fun _ =>
              .call (.complete (.shared "writer") (.ok .null)) .ret

/-- The small steps between that completion and its end. -/
theorem State.inside_spoiling :
    ∀ visited ∈ ((State.ofProgram .initial .spoiling).walk 21).2.visits 11,
      2 < visited.stack.length := by
  simp only [State.visits, List.forall_mem_cons]
  decide

/-- The machine behind that callback is told a shutdown. -/
theorem batch_fired_spoiling :
    (∃ whole, Batch 0 [.callback (.panic (.text "boom")), .handOver .inline 0] whole ∧
      ((State.ofProgram .initial .spoiling).walk 21).2.turns 2 11 = whole) ∧
    ∃ observer,
      ((State.ofProgram .initial .spoiling).walk 27).2.Tells 0 observer (.error .shutdown) := by
  obtain ⟨⟨whole, batch, -, all⟩, takes⟩ :=
    @batch_fired _ _ 0 (.ok .null) _ 11 ((Reaches.begin .spoiling).walk 20) rfl rfl
      State.inside_spoiling
  have dropped := takes _ (State.walk_mem_visits (by decide : 4 < 11)) _ rfl
  exact ⟨⟨whole, batch, all rfl fun _ halted => nomatch halted⟩,
    dropped.2 (.handOver .inline 0) 0 rfl rfl⟩

/-- Not everything that waits for a deferred hears of its completion: behind a callback that
panics, the other continuations do not run, and the waker is not woken. -/
theorem batch_fired_broken :
    ¬ ∀ trace state deferred outcome found count, Reaches trace state →
      state.control = .task (.publish deferred outcome) →
      state.world.deferreds.get? deferred = some found →
      (∀ visited ∈ state.next.visits count, state.stack.length < visited.stack.length) →
      (state.next.walk count).2.stack = state.stack →
      (∀ reason, (state.next.walk count).2.control ≠ .halted reason) →
        (∀ continuation ∈ found.continuations,
          .runs continuation ∈ state.next.turns state.stack.length count) ∧
        ∀ waker, found.waker = some waker →
          .wakes deferred ∈ state.next.turns state.stack.length count := by
  intro hears
  obtain ⟨runs, -⟩ := hears _ _ 0 (.ok .null) _ 11 ((Reaches.begin .spoiling).walk 20) rfl rfl
    State.inside_spoiling rfl fun _ halted => nomatch halted
  have ran := runs (.handOver .inline 0) (List.mem_cons_of_mem _ (List.mem_cons_self ..))
  have turns : ((State.ofProgram .initial .spoiling).walk 21).2.turns 2 11 =
      [.runs (.callback (.panic (.text "boom"))), .breaks (.text "boom"),
        .drops (.continuation (.handOver .inline 0))] := rfl
  have among : Turn.runs (.handOver .inline 0) ∈
      ((State.ofProgram .initial .spoiling).walk 21).2.turns 2 11 := ran
  rw [turns] at among
  simp at among

end Stepwise
