import Stepwise.Proofs.Loops.Turns

/-!
# The queue of an event loop

An event loop starts what is scheduled on it in that order, each continuation once, and loses
none: what has been started and what is queued are together what was scheduled.  A drive until
the loop is idle ends with an empty queue and counts what it has started.  A panic takes with it
only the continuation that let it out.  A loop that is dropped drops what is queued and what its
drops still queue, in order; the machines among that are told a shutdown, and are not stepped
any more.

While a loop is dropped, one frame waits right above those who dropped it: it holds the place of
the queue, or, after a panic, what is left of the queue itself.
-/

namespace Stepwise

variable {past since more : List State} {state later : State} {above base : Stack}
  {loop machine count : Nat} {left : List Continuation} {continuation : Continuation}
  {frame : Frame}

/-- A loop was dropped. -/
def Dropped (past : List State) (loop : Nat) : Prop :=
  ∃ visited ∈ past, visited.control = .task (.discard (.loop loop))

theorem Dropped.snoc (dropped : Dropped past loop) : Dropped (past ++ [state]) loop := by
  obtain ⟨visited, member, drops⟩ := dropped
  exact ⟨visited, List.mem_append_left _ member, drops⟩

theorem World.Gone.isLoopAlive {world : World} (gone : world.Gone loop) :
    world.isLoopAlive loop = false := by
  rw [World.Gone] at gone
  simp [World.isLoopAlive, gone]

/-- Nothing is queued on a loop that is gone. -/
theorem World.Gone.queuedOn (gone : state.world.Gone loop) : state.queuedOn loop = [] := by
  unfold State.queuedOn
  split <;> simp [gone.isLoopAlive]

/-- The continuation that the frame on top of so many others drops in the small step. -/
def State.droppedAt (height : Nat) (state : State) : List Continuation :=
  match state.control, state.next.control with
  | .reply _, .task (.discard (.continuation continuation)) =>
      if state.stack.length = height + 1 then [continuation] else []
  | _, _ => []

/-! ## Loops that were dropped -/

theorem dropped_iff :
    Dropped past loop ↔ 0 < (past.flatMap fun visited => visited.control.loops).count loop := by
  rw [List.count_pos_iff, List.mem_flatMap]
  constructor
  · rintro ⟨visited, member, drops⟩
    exact ⟨visited, member, by simp [drops, Control.loops, Owned.loop?]⟩
  · rintro ⟨visited, member, held⟩
    refine ⟨visited, member, ?_⟩
    unfold Control.loops at held
    split at held
    · next owned drops =>
        cases owned with
        | loop other => simpa [Owned.loop?, drops, eq_comm] using held
        | _ => cases held
    · cases held

/-- Whoever goes on with the drop of a loop has a frame for it. -/
theorem State.closings_pos (closes : state.closes loop = true) :
    0 < state.stack.closings loop := by
  unfold State.closes at closes
  split at closes
  · next frame rest _ placed => simp [placed, closes]
  · next frame rest _ placed => simp [placed, closes]
  · cases closes

namespace Passes

theorem closings_le (passes : Passes past state) (loop : Nat) :
    state.stack.closings loop ≤ (past.flatMap fun visited => visited.control.loops).count loop := by
  induction passes with
  | begin _ | again _ _ _ _ => exact Nat.zero_le _
  | @next past state _ ih =>
      have bound := state.closings_next loop
      simp only [List.flatMap_append, List.flatMap_singleton, List.count_append]
      omega

/-- One frame at most drops a loop. -/
theorem closings_le_one (passes : Passes past state) (loop : Nat) :
    state.stack.closings loop ≤ 1 := by
  have drops := passes.closings_le loop
  have once := passes.owners_le_one loop
  omega

/-- A loop that is being dropped was dropped. -/
theorem dropped_of_closes (passes : Passes past state) (closes : state.closes loop = true) :
    Dropped past loop :=
  dropped_iff.mpr (Nat.lt_of_lt_of_le (State.closings_pos closes) (passes.closings_le loop))

/-- A loop that is dropped is not driven, now or later. -/
theorem startedOn_of_dropped (passes : Passes past state)
    (dropped : Dropped (past ++ [state]) loop) : state.startedOn loop = [] := by
  rcases State.started_cases loop state with idle | ⟨_, _, frame, callers, _, _, _, placed, drives⟩
  · exact idle
  · obtain ⟨visited, member, drops⟩ := dropped
    have waits : frame ∈ state.next.stack := placed ▸ List.mem_cons_self ..
    exact absurd drops (passes.next.undropped waits drives visited member)

end Passes

/-! ## The whole queue -/

/-- What was scheduled on a loop is started in order, and until the loop is dropped all of it is
started or queued. -/
structure InTurn (past : List State) (loop : Nat) (state : State) : Prop where
  inOrder : past.flatMap (State.startedOn loop) <+: past.flatMap (State.queuedOn loop)
  lossless : ¬ Dropped past loop →
    past.flatMap (State.startedOn loop) ++ state.world.loopQueue loop =
      past.flatMap (State.queuedOn loop)
  alive : ¬ Dropped past loop → state.world.Open loop

theorem InTurn.next (passes : Passes past state) (inTurn : InTurn past loop state) :
    InTurn (past ++ [state]) loop state.next := by
  by_cases dropped : Dropped past loop
  · have still : Dropped (past ++ [state]) loop := dropped.snoc
    refine ⟨?_, fun opens => absurd still opens, fun opens => absurd still opens⟩
    simp only [List.flatMap_append, List.flatMap_singleton, passes.startedOn_of_dropped still,
      List.append_nil]
    exact inTurn.inOrder.trans (List.prefix_append ..)
  · have stays : state.closes loop = false :=
      Bool.eq_false_iff.mpr fun closes => dropped (passes.dropped_of_closes closes)
    have lossless : (past ++ [state]).flatMap (State.startedOn loop) ++
        state.next.world.loopQueue loop = (past ++ [state]).flatMap (State.queuedOn loop) := by
      simp only [List.flatMap_append, List.flatMap_singleton]
      rw [List.append_assoc, State.loopQueue_next stays, ← inTurn.lossless dropped,
        List.append_assoc]
    exact ⟨⟨_, lossless⟩, fun _ => lossless, fun _ => State.open_next stays (inTurn.alive dropped)⟩

theorem Passes.inTurn (passes : Passes past state) (loop : Nat) : InTurn past loop state := by
  induction passes with
  | begin program =>
      exact ⟨List.prefix_refl _, fun _ => rfl, fun _ found lookup => by
        simp [State.ofProgram, World.initial] at lookup⟩
  | again program _ _ ih => exact ⟨ih.inOrder, ih.lossless, ih.alive⟩
  | next passes ih => exact ih.next passes

/-! ## While a loop is dropped -/

/-- What is left to be dropped of a loop, by the frame right above those who drop it. -/
inductive Emptying (loop : Nat) (base : Stack) : List Continuation → State → Prop where
  | closing {state : State} {above : Stack} {discarded : Nat} :
      state.stack = above ++ .closing loop discarded :: base →
        (state.world.loops.get? loop).isSome = true →
          Emptying loop base (state.world.loopQueue loop) state
  | unwinding {state : State} {above : Stack} {left : List Continuation} {payload : Payload} :
      state.stack = above ++ .unwinding (left.map .continuation) payload :: base →
        state.world.Gone loop → Emptying loop base left state
  | ended {state : State} : state.stack = base → state.world.Gone loop →
      (∀ task, state.control ≠ .task task) → Emptying loop base [] state

/-- A reply or a panic is on its way to a frame, the innermost one on top of some others. -/
def State.Delivers (frame : Frame) (base : Stack) (state : State) : Prop :=
  state.stack = frame :: base ∧
    ((∃ reply, state.control = .reply reply) ∨ ∃ payload, state.control = .unwind payload)

/-- Where a frame is left above what waits, what waits is not all. -/
theorem State.stack_ne (placed : state.stack = above ++ frame :: base) : state.stack ≠ base := by
  intro back
  have lengths := congrArg List.length (placed.symm.trans back)
  simp only [List.length_append, List.length_cons] at lengths
  omega

namespace Passes

/-- A frame that is given neither a reply nor a panic stays, and drops nothing. -/
theorem stays_beneath (passes : Passes past state) (placed : state.stack = above ++ frame :: base)
    (waits : ¬ state.Delivers frame base) :
    (∃ more, state.next.stack = more ++ frame :: base) ∧ state.droppedAt base.length = [] := by
  rcases State.beneath_or_delivers passes.reaches.inOrder placed with ⟨stays, -, -⟩ | delivers
  · refine ⟨stays, ?_⟩
    unfold State.droppedAt
    split
    · next reply _ replies _ =>
        refine if_neg fun height => waits ⟨?_, .inl ⟨reply, replies⟩⟩
        rw [placed] at height ⊢
        have innermost : above = [] := by simpa using height
        rw [innermost, List.nil_append]
    · rfl
  · exact absurd delivers waits

/-- While the frame that drops a loop waits for a reply, nothing else drops the loop. -/
theorem closes_eq_false {discarded : Nat} (passes : Passes past state)
    (placed : state.stack = above ++ .closing loop discarded :: base)
    (waits : ¬ state.Delivers (.closing loop discarded) base) : state.closes loop = false := by
  refine Bool.eq_false_iff.mpr fun closes => ?_
  have innermost (head : Frame) (rest : Stack) (top : state.stack = head :: rest)
      (closing : head.closes loop = true) : state.stack = .closing loop discarded :: base := by
    cases above with
    | nil => exact placed
    | cons other above =>
        cases placed.symm.trans top
        have once := passes.closings_le_one loop
        simp [placed, closing] at once
  unfold State.closes at closes
  split at closes
  · next reply head rest replies top =>
      exact waits ⟨innermost head rest top closes, .inl ⟨reply, replies⟩⟩
  · next payload head rest panics top =>
      exact waits ⟨innermost head rest top closes, .inr ⟨payload, panics⟩⟩
  · cases closes

/-- A loop was dropped when a frame is in the middle of it. -/
theorem dropped_of_closing {discarded : Nat} (passes : Passes past state)
    (placed : state.stack = above ++ .closing loop discarded :: base) : Dropped past loop := by
  refine dropped_iff.mpr (Nat.lt_of_lt_of_le ?_ (passes.closings_le loop))
  rw [placed, Stack.closings_append, Stack.closings_cons, Frame.closes_closing, if_pos rfl]
  omega

end Passes

namespace Emptying

variable {payload : Payload} {reply : Reply} {world : World} {discarded : Nat}

theorem of_closingNext (there : (world.loops.get? loop).isSome = true) :
    ∃ later, Emptying loop base later (State.closingNext world base loop discarded) ∧
      world.loopQueue loop =
        State.droppedAt base.length ⟨world, .closing loop discarded :: base, .reply reply⟩ ++
          later := by
  obtain ⟨found, lookup⟩ := Option.isSome_iff_exists.mp there
  simp only [State.droppedAt, State.next, State.returning, State.closingNext]
  split
  · next empty =>
      refine ⟨[], .ended rfl ?_ fun _ => by simp [State.replying], by simp [State.replying, empty]⟩
      have nothing : found.queue = [] := by simpa [World.loopQueue, lookup] using empty
      split <;> simp [State.replying, World.Gone, World.modifyLoop, World.record, lookup, nothing]
  · next continuation rest queued =>
      refine ⟨_, @Emptying.closing _ _ _ [] _ rfl ?_, ?_⟩
      · simp [World.modifyLoop, there]
      · simp [World.modifyLoop, World.loopQueue, lookup] at queued ⊢
        exact queued

theorem of_closingUnwound (discarded : Nat) (there : (world.loops.get? loop).isSome = true) :
    Emptying loop base (world.loopQueue loop)
      (State.unwindingThrough world base payload (.closing loop discarded)) := by
  obtain ⟨found, lookup⟩ := Option.isSome_iff_exists.mp there
  have gone : World.Gone (world.modifyLoop loop ({ · with queue := [], alive := false })) loop := by
    simp [World.Gone, World.modifyLoop, lookup]
  simp only [State.unwindingThrough]
  cases world.loopQueue loop with
  | nil => exact .ended rfl gone fun _ => by simp [State.dropping]
  | cons first rest => exact @Emptying.unwinding _ _ _ [] _ _ rfl gone

/-- What calls in the drop of a loop do to the loop. -/
theorem closing_next (passes : Passes past state)
    (placed : state.stack = above ++ .closing loop discarded :: base)
    (there : (state.world.loops.get? loop).isSome = true)
    (waits : ¬ state.Delivers (.closing loop discarded) base) :
    ∃ later, Emptying loop base later state.next ∧
      state.world.loopQueue loop ++ state.queuedOn loop =
        state.droppedAt base.length ++ later := by
  obtain ⟨⟨more, still⟩, nothing⟩ := passes.stays_beneath placed waits
  have dropped : Dropped (past ++ [state]) loop := (passes.dropped_of_closing placed).snoc
  have law := State.loopQueue_next (passes.closes_eq_false placed waits)
  rw [passes.startedOn_of_dropped dropped, List.nil_append] at law
  exact ⟨_, .closing still (State.isSome_next there), by rw [nothing, law, List.nil_append]⟩

/-- What a panic has left of a loop is dropped one after the other. -/
theorem unwinding_next (passes : Passes past state)
    (placed : state.stack = above ++ .unwinding (left.map .continuation) payload :: base)
    (gone : state.world.Gone loop) (running : ∀ reason, state.next.control ≠ .halted reason) :
    ∃ later, Emptying loop base later state.next ∧ left = state.droppedAt base.length ++ later := by
  by_cases delivers : state.Delivers (.unwinding (left.map .continuation) payload) base
  · obtain ⟨world, stack, control⟩ := state
    obtain ⟨rfl, ⟨reply, rfl⟩ | ⟨second, rfl⟩⟩ := delivers
    · cases left with
      | nil => exact ⟨[], .ended rfl gone nofun, rfl⟩
      | cons first rest =>
          exact ⟨rest, @unwinding _ _ _ [] _ _ rfl gone, by
            simp [State.droppedAt, State.next, State.returning, State.unwindingNext]⟩
    · exact absurd rfl (running .doublePanic)
  · obtain ⟨⟨more, still⟩, nothing⟩ := passes.stays_beneath placed delivers
    exact ⟨left, .unwinding still (State.gone_next gone), by rw [nothing, List.nil_append]⟩

/-- A small step drops the first of what is left, or none. -/
theorem next (passes : Passes past state) (emptying : Emptying loop base left state)
    (inside : base.length < state.stack.length)
    (running : ∀ reason, state.next.control ≠ .halted reason) :
    ∃ later, Emptying loop base later state.next ∧
      left ++ state.queuedOn loop = state.droppedAt base.length ++ later := by
  cases emptying with
  | @closing _ above discarded placed there =>
      by_cases delivers : state.Delivers (.closing loop discarded) base
      · obtain ⟨world, stack, control⟩ := state
        obtain ⟨rfl, ⟨reply, rfl⟩ | ⟨payload, rfl⟩⟩ := delivers
        · obtain ⟨later, goesOn, split⟩ := @of_closingNext base loop reply world discarded there
          exact ⟨later, goesOn, (List.append_nil _).trans split⟩
        · exact ⟨_, of_closingUnwound discarded there, by simp [State.queuedOn, State.droppedAt]⟩
      · exact closing_next passes placed there delivers
  | unwinding placed gone =>
      rw [gone.queuedOn, List.append_nil]
      exact unwinding_next passes placed gone running
  | ended placed _ _ => simp [placed] at inside

/-- Small steps drop what is left, in order, with what is queued meanwhile behind it. -/
theorem walk (passes : Passes past state) (emptying : Emptying loop base left state)
    (inside : ∀ visited ∈ state.visits count, base.length < visited.stack.length)
    (running : ∀ reason, (state.walk count).2.control ≠ .halted reason) :
    ∃ later, Emptying loop base later (state.walk count).2 ∧
      left ++ (state.visits count).flatMap (State.queuedOn loop) =
        (state.visits count).flatMap (State.droppedAt base.length) ++ later := by
  induction count with
  | zero => exact ⟨left, emptying, by simp [State.visits]⟩
  | succ count ih =>
      rw [State.visits_succ] at inside ⊢
      obtain ⟨middle, reached, split⟩ := ih
        (fun visited member => inside visited (List.mem_append_left _ member))
        (State.running_walk running (Nat.le_succ count))
      rw [State.walk_succ] at running ⊢
      obtain ⟨later, goesOn, law⟩ := reached.next (passes.walk count)
        (inside _ (List.mem_append_right _ (List.mem_singleton_self _))) running
      refine ⟨later, goesOn, ?_⟩
      simp only [List.flatMap_append, List.flatMap_singleton]
      rw [← List.append_assoc, split, List.append_assoc, law, List.append_assoc]

/-- When those who dropped the loop go on, nothing is left. -/
theorem over_of_back (emptying : Emptying loop base left state) (back : state.stack = base) :
    left = [] ∧ state.world.Gone loop ∧ ∀ task, state.control ≠ .task task := by
  cases emptying with
  | closing placed _ | unwinding placed _ => exact absurd back (State.stack_ne placed)
  | ended _ gone idle => exact ⟨rfl, gone, idle⟩

/-- As long as something is left, those who dropped the loop wait. -/
theorem inside (emptying : Emptying loop base left state) (member : continuation ∈ left) :
    base.length < state.stack.length := by
  cases emptying with
  | closing placed _ | unwinding placed _ =>
      rw [placed]
      simp only [List.length_append, List.length_cons]
      omega
  | ended _ _ _ => cases member

/-- The resumptions among what is left rest. -/
theorem resumption_pos (emptying : Emptying loop base left state)
    (member : .resumption machine ∈ left) :
    0 < state.world.ledger.total [] state.stack (.resumption machine) := by
  cases emptying with
  | closing _ there =>
      obtain ⟨found, lookup⟩ := Option.isSome_iff_exists.mp there
      have queued : .resumption machine ∈ found.queue := by
        simpa [World.loopQueue, lookup] using member
      have holds : state.world.ledger.Holds (.queued (.loop loop)) (.resumption machine) :=
        ⟨found, lookup, queued⟩
      exact Ledger.total_pos_of_holds holds (List.mem_singleton_self _)
  | unwinding placed _ =>
      have drops : state.Drops (.resumption machine) :=
        ⟨_, .inr ⟨_, by rw [placed]; exact List.mem_append_right _ (List.mem_cons_self ..)⟩,
          List.mem_map_of_mem member⟩
      exact Ledger.total_pos_of_mem drops.mem_holdings (List.mem_singleton_self _)
  | ended _ _ _ => cases member

end Emptying

/-- A machine is told a shutdown because a loop is dropped: its resumption is left to be dropped,
or is dropped now, or the machine has been told.  A panic in a drop may halt the run. -/
inductive Condemned (loop : Nat) (base : Stack) (machine : Nat) (since : List State)
    (state : State) : Prop where
  | left {left : List Continuation} : Emptying loop base left state →
      .resumption machine ∈ left → Condemned loop base machine since state
  | dropped : state.control = .task (.discard (.continuation (.resumption machine))) →
      Condemned loop base machine since state
  | telling : .told machine (.error .shutdown) ∈ state.occurrences →
      Condemned loop base machine since state
  | told : .told machine (.error .shutdown) ∈ since.flatMap State.occurrences →
      Condemned loop base machine since state
  | halted (reason : Halt) : state.control = .halted reason →
      Condemned loop base machine since state

namespace Condemned

theorem next (passes : Passes past state) (condemned : Condemned loop base machine since state) :
    Condemned loop base machine (since ++ [state]) state.next := by
  cases condemned with
  | left emptying member =>
      by_cases halts : ∃ reason, state.next.control = .halted reason
      · obtain ⟨reason, halts⟩ := halts
        exact .halted reason halts
      · obtain ⟨later, goesOn, law⟩ := emptying.next passes (emptying.inside member)
          fun reason halted => halts ⟨reason, halted⟩
        have still : .resumption machine ∈ state.droppedAt base.length ++ later :=
          law ▸ List.mem_append_left _ member
        rcases List.mem_append.mp still with now | later
        · refine .dropped ?_
          unfold State.droppedAt at now
          split at now
          · next continuation _ drops =>
              rw [drops]
              split at now
              · rw [List.mem_singleton.mp now]
              · cases now
          · cases now
        · exact .left goesOn later
  | dropped drops =>
      have abandons : state.Abandons machine := ⟨_, drops, rfl⟩
      refine .telling ?_
      rw [(State.tells_of_abandons passes.reaches.inOrder abandons).2.occurrences]
      exact List.mem_singleton_self _
  | telling tells =>
      refine .told ?_
      rw [List.flatMap_append, List.flatMap_singleton]
      exact List.mem_append_right _ tells
  | told told =>
      refine .told ?_
      rw [List.flatMap_append]
      exact List.mem_append_left _ told
  | halted reason halts => exact .halted reason (by simp [State.next, halts])

/-- When those who dropped the loop go on, the machine has been told. -/
theorem told_of_idle (condemned : Condemned loop base machine since state)
    (shallow : state.stack.length ≤ base.length) (idle : ∀ task, state.control ≠ .task task)
    (running : ∀ reason, state.control ≠ .halted reason) :
    .told machine (.error .shutdown) ∈ since.flatMap State.occurrences := by
  cases condemned with
  | left emptying member => exact absurd (emptying.inside member) (Nat.not_lt.mpr shallow)
  | dropped drops => exact absurd drops (idle _)
  | telling tells => exact absurd (State.drives_of_occurrences tells rfl) (idle _)
  | told told => exact told
  | halted reason halts => exact absurd halts (running reason)

theorem goesOn (passes : Passes past state) (condemned : Condemned loop base machine [] state)
    (goesOn : state.GoesOn more later) : Condemned loop base machine more later := by
  induction goesOn with
  | here => exact condemned
  | next goesOn ih => exact ih.next (passes.goesOn goesOn)
  | again program _ ended ih =>
      obtain ⟨empty, ⟨reply, same⟩ | ⟨payload, same⟩⟩ := ended
      · exact .told (ih.told_of_idle (by simp [empty]) (by simp [same]) (by simp [same]))
      · exact .told (ih.told_of_idle (by simp [empty]) (by simp [same]) (by simp [same]))

/-- No step of such a machine is called. -/
theorem uncalled (passes : Passes (past ++ since) state)
    (condemned : Condemned loop base machine since state) (position : Position) :
    .called machine position ∉ state.occurrences := by
  intro called
  have calls : state.Calls machine position := State.drives_of_occurrences called rfl
  have order := passes.reaches.inOrder
  cases condemned with
  | left emptying member =>
      have custody := order.custody (by simp [calls.1])
      rw [calls.1] at custody
      obtain ⟨found, claimed⟩ := Custody.claimed custody machine rfl
      have rests := emptying.resumption_pos member
      rw [claimed.resumptions] at rests
      exact Nat.lt_irrefl _ rests
  | dropped drops => cases calls.1.symm.trans drops
  | telling tells =>
      have finishes : state.control = .task (.finish machine (.error .shutdown)) :=
        State.drives_of_occurrences tells rfl
      cases calls.1.symm.trans finishes
  | told told =>
      obtain ⟨older, newer, split⟩ := List.append_of_mem told
      have permitted := passes.next.reaches.permitsAll
      simp only [List.flatMap_append, List.flatMap_singleton, split, List.append_assoc,
        List.cons_append] at permitted
      rw [← List.append_assoc] at permitted
      exact ((Chronicle.explains_of_told permitted).2 _ (List.mem_append_right _ called)).2.1
        position rfl
  | halted reason halts => cases calls.1.symm.trans halts

end Condemned

/-! ## Drives until a loop is idle -/

section

variable {world : World} {name : Name} {ran other : Nat} {reply : Reply} {payload : Payload}
  {owned : List Owned}

/-- A loop that one frame drives, none beneath it drives. -/
theorem State.undriven (once : state.owners loop ≤ 1) (placed : state.stack = frame :: base)
    (drives : frame.drives? = some loop) {other : Frame} (member : other ∈ base) :
    other.drives? ≠ some loop := by
  intro again
  have beneath := List.count_pos_iff.mpr (Stack.mem_loops member again)
  rw [State.owners, placed, Stack.loops_driving drives] at once
  simp only [List.count_append, List.count_cons_self] at once
  omega

/-- A frame that is given neither a reply nor a panic is left alone. -/
theorem State.base_of_waits (placed : state.stack = above ++ frame :: base)
    (waits : ¬ state.Delivers frame base) : frame ∈ state.base := by
  obtain ⟨world, stack, control⟩ := state
  subst placed
  cases control with
  | reply _ | unwind _ =>
      cases above with
      | nil => exact absurd ⟨rfl, by simp⟩ waits
      | cons top above => simp [State.base]
  | _ => simp [State.base]

/-- While a drive waits for what it has started, nothing else starts from its loop. -/
theorem State.unstarted_beneath (once : state.owners loop ≤ 1)
    (placed : state.stack = above ++ frame :: base) (drives : frame.drives? = some loop)
    (waits : ¬ state.Delivers frame base) : state.startedOn loop = [] := by
  rcases State.started_cases loop state with idle | ⟨_, _, _, callers, _, _, _, stacked, again⟩
  · exact idle
  · have member : frame ∈ callers ++ state.base :=
      List.mem_append_right _ (State.base_of_waits placed waits)
    have fewer := state.owners_next loop
    exact absurd drives (State.undriven (by omega) stacked again member)

/-- A loop has one owner at most. -/
theorem Passes.owned_once (passes : Passes past state) (loop : Nat) : state.owners loop ≤ 1 :=
  Nat.le_trans (Nat.le_add_right ..) (passes.owners_le_one loop)

theorem State.startedOn_of_parking (parks : state.next = .parking world base name loop reply) :
    state.startedOn other = [] := by
  have replies : ∃ given, state.next.control = .reply given := by
    rw [parks]
    unfold State.parking World.restoreLoop
    dsimp only
    split <;> exact ⟨_, rfl⟩
  obtain ⟨given, replies⟩ := replies
  simp [State.startedOn, replies]

/-- A drive until a loop is idle counts what it starts, until the queue is empty or a panic
leaves the drive. -/
theorem Passes.looping_next (passes : Passes past state)
    (placed : state.stack = above ++ .looping name loop ran :: base) :
    (∃ more, state.next.stack =
        more ++ .looping name loop (ran + (state.startedOn loop).length) :: base) ∨
      state.startedOn loop = [] ∧
        (state.world.loopQueue loop = [] ∧
            state.next = .parking state.world base name loop (.count ran) ∨
          ∃ payload, state.next = .parkingUnwound state.world base name loop payload) := by
  by_cases delivers : state.Delivers (.looping name loop ran) base
  · obtain ⟨world, stack, control⟩ := state
    obtain ⟨rfl, ⟨reply, rfl⟩ | ⟨payload, rfl⟩⟩ := delivers
    · cases queued : world.loopQueue loop with
      | nil =>
          have parks : State.next ⟨world, .looping name loop ran :: base, .reply reply⟩ =
              .parking world base name loop (.count ran) := by
            simp [State.next, State.returning, State.runningNext, queued]
          exact .inr ⟨State.startedOn_of_parking parks, .inl ⟨rfl, parks⟩⟩
      | cons first rest =>
          refine .inl ⟨[], ?_⟩
          simp [State.startedOn, State.drivesOn, Frame.drives?, State.next, State.returning,
            State.runningNext, queued]
    · exact .inr ⟨rfl, .inr ⟨payload, rfl⟩⟩
  · have unstarted := State.unstarted_beneath (passes.owned_once loop) placed rfl delivers
    rw [unstarted]
    exact .inl (passes.stays_beneath placed delivers).1

namespace State.Leaves

theorem tail (leaves : state.Leaves base (count + 1)) : state.next.Leaves base count :=
  ⟨fun visited member => leaves.inside visited (List.mem_cons_of_mem _ member), leaves.back⟩

theorem eq_zero (leaves : state.Leaves base count) (placed : state.stack = base) : count = 0 := by
  cases count with
  | zero => rfl
  | succ count =>
      have higher := leaves.inside state (List.mem_cons_self ..)
      simp [placed] at higher

theorem pos (leaves : state.Leaves base count) (placed : state.stack = above ++ frame :: base) :
    ∃ fewer, count = fewer + 1 := by
  cases count with
  | zero => exact absurd leaves.back (State.stack_ne placed)
  | succ count => exact ⟨count, rfl⟩

/-- What a panic drops on its way up, it leaves as a panic, unless the run halts. -/
theorem unwinds (leaves : state.Leaves base count) (passes : Passes past state)
    (placed : state.stack = above ++ .unwinding owned payload :: base) (reply : Reply) :
    (state.walk count).2.control ≠ .reply reply := by
  induction count generalizing past state above owned with
  | zero => simpa using leaves.pos placed
  | succ count ih =>
      by_cases delivers : state.Delivers (.unwinding owned payload) base
      · obtain ⟨world, stack, control⟩ := state
        obtain ⟨rfl, ⟨given, rfl⟩ | ⟨second, rfl⟩⟩ := delivers
        · cases owned with
          | nil =>
              cases leaves.tail.eq_zero rfl
              nofun
          | cons first rest => exact @ih _ _ [] rest leaves.tail passes.next rfl
        · cases leaves.tail.eq_zero rfl
          nofun
      · obtain ⟨more, still⟩ := (passes.stays_beneath placed delivers).1
        exact ih leaves.tail passes.next still

/-- A call whose reply is settled returns with it, if it returns. -/
theorem answers (leaves : state.Leaves base count) (passes : Passes past state)
    (placed : state.stack = above ++ .answering reply :: base) {given : Reply}
    (replies : (state.walk count).2.control = .reply given) : given = reply := by
  induction count generalizing past state above with
  | zero => simpa using leaves.pos placed
  | succ count ih =>
      by_cases delivers : state.Delivers (.answering reply) base
      · obtain ⟨world, stack, control⟩ := state
        obtain ⟨rfl, ⟨other, rfl⟩ | ⟨payload, rfl⟩⟩ := delivers
        · cases leaves.tail.eq_zero rfl
          cases replies
          rfl
        · cases leaves.tail.eq_zero rfl
          cases replies
      · obtain ⟨more, still⟩ := (passes.stays_beneath placed delivers).1
        exact ih leaves.tail passes.next still replies

end State.Leaves

/-- After so many small steps of a drive until its loop is idle, the queue is found empty, and the
reply is how many continuations were started until then.  That ends the drive, unless another loop
has got the name meanwhile: then that one is dropped first. -/
structure Idled (name : Name) (loop ran count fewer : Nat) (reply : Reply) (state : State) :
    Prop where
  empty : (state.walk fewer).2.world.loopQueue loop = []
  counts : reply = .count (ran + ((state.visits fewer).flatMap (State.startedOn loop)).length)
  last : fewer + 1 = count ∧ (state.walk count).2.world.loopQueue loop = [] ∨
    ∃ other, (state.walk fewer).2.world.ownedLoops.find? name = some other

/-- Where nothing is started, the count does not change. -/
theorem Idled.before {fewer : Nat}
    (idled : Idled name loop (ran + (state.startedOn loop).length) count fewer reply state.next) :
    Idled name loop ran (count + 1) (fewer + 1) reply state where
  empty := idled.empty
  counts := by
    rw [idled.counts, State.visits, List.flatMap_cons, List.length_append, Nat.add_assoc]
  last := by
    rcases idled.last with ⟨same, empty⟩ | ended
    · exact .inl ⟨by omega, empty⟩
    · exact .inr ended

/-- A loop that is parked is the end of its drive, unless another loop has got its name. -/
theorem Passes.parked {given : Reply} (passes : Passes past state)
    (parks : state.next = .parking world base name loop given)
    (leaves : state.next.Leaves base count)
    (replies : (state.next.walk count).2.control = .reply reply) :
    reply = given ∧ (count = 0 ∧ state.next.world.loops = world.loops ∨
      ∃ other, world.ownedLoops.find? name = some other) := by
  cases named : world.ownedLoops.find? name with
  | none =>
      have ends : state.next =
          .replying { world with ownedLoops := world.ownedLoops.insert name loop } base given := by
        simp only [parks, State.parking, World.restoreLoop, named]
        rfl
      cases leaves.eq_zero (by rw [ends]; rfl)
      rw [State.walk, ends] at replies
      cases replies
      exact ⟨rfl, .inl ⟨rfl, by rw [ends]; rfl⟩⟩
  | some other =>
      have placed : state.next.stack = [.disposing [.loop other]] ++ .answering given :: base := by
        simp only [parks, State.parking, World.restoreLoop, named]
        rfl
      exact ⟨leaves.answers passes.next placed replies, .inr ⟨other, rfl⟩⟩

/-- A panic that leaves a drive is what the drive ends with, unless the run halts. -/
theorem Passes.broken (passes : Passes past state)
    (breaks : state.next = .parkingUnwound world base name loop payload)
    (leaves : state.next.Leaves base count) (reply : Reply) :
    (state.next.walk count).2.control ≠ .reply reply := by
  cases named : world.ownedLoops.find? name with
  | none =>
      have ends : state.next = ⟨{ world with ownedLoops := world.ownedLoops.insert name loop }, base,
          .unwind payload⟩ := by
        simp only [breaks, State.parkingUnwound, World.restoreLoop, named]
        rfl
      cases leaves.eq_zero (by rw [ends])
      rw [State.walk, ends]
      simp
  | some other =>
      have placed : state.next.stack = [] ++ .unwinding [.loop other] payload :: base := by
        simp only [breaks, State.parkingUnwound, World.restoreLoop, named]
        rfl
      exact leaves.unwinds passes.next placed reply

/-- A drive until a loop is idle that returns has found the queue empty. -/
theorem Passes.idled_of_looping (passes : Passes past state)
    (placed : state.stack = above ++ .looping name loop ran :: base)
    (leaves : state.Leaves base count) (replies : (state.walk count).2.control = .reply reply) :
    ∃ fewer < count, Idled name loop ran count fewer reply state := by
  induction count generalizing past state above ran with
  | zero => simpa using leaves.pos placed
  | succ count ih =>
      rcases passes.looping_next placed with
        ⟨more, still⟩ | ⟨-, ⟨empty, parks⟩ | ⟨payload, parks⟩⟩
      · obtain ⟨fewer, bound, idled⟩ := ih passes.next still leaves.tail replies
        exact ⟨fewer + 1, Nat.succ_lt_succ bound, idled.before⟩
      · obtain ⟨rfl, ends | displaces⟩ := passes.parked parks leaves.tail replies
        · obtain ⟨rfl, loops⟩ := ends
          refine ⟨0, Nat.succ_pos _, empty, rfl, .inl ⟨rfl, ?_⟩⟩
          simpa [State.walk, World.loopQueue, loops] using empty
        · exact ⟨0, Nat.succ_pos _, empty, rfl, .inr displaces⟩
      · exact absurd replies (passes.broken parks leaves.tail reply)

/-- The world while the loop under a name is driven. -/
def World.handOut (world : World) (name : Name) : World :=
  { world with ownedLoops := world.ownedLoops.erase name }

@[simp] theorem World.loopQueue_handOut (world : World) (name : Name) (loop : Nat) :
    (world.handOut name).loopQueue loop = world.loopQueue loop := rfl

/-- A drive that is asked for begins with the oldest continuation, if one is queued. -/
theorem State.next_of_call {request : Request} {rest : Reply → Program}
    (asks : request = .turnLoop name ∨ request = .runLoop name)
    (calls : state.control = .program (.call request rest))
    (named : state.world.ownedLoops.find? name = some loop) :
    state.world.loopQueue loop = [] ∧
        (∃ reply, state.next = .parking (state.world.handOut name) (.program rest :: state.stack)
          name loop reply ∧ (request = .runLoop name → reply = .count 0)) ∨
      ∃ first queue frame, state.world.loopQueue loop = first :: queue ∧
        state.startedOn loop = [first] ∧
        state.next.stack = frame :: .program rest :: state.stack ∧
        (request = .runLoop name → frame = .looping name loop 1) := by
  obtain ⟨world, stack, control⟩ := state
  subst calls
  have out : ({ world with ownedLoops := world.ownedLoops.erase name } : World) =
      world.handOut name := rfl
  rcases asks with rfl | rfl
  all_goals
    cases queued : world.loopQueue loop with
    | nil =>
        left
        simp [State.next, State.requesting, State.driving, State.withNamed, named, out,
          State.turning, State.runningNext, queued]
    | cons first queue =>
        right
        simp [State.startedOn, State.drivesOn, Request.drivesLoop, Frame.drives?, State.next,
          State.requesting, State.driving, State.withNamed, named, out, State.turning,
          State.runningNext, queued]

/-- What a drive until a loop is idle returns. -/
theorem Passes.idled_of_call {rest : Reply → Program} (passes : Passes past state)
    (calls : state.control = .program (.call (.runLoop name) rest))
    (named : state.world.ownedLoops.find? name = some loop)
    (leaves : state.next.Leaves (.program rest :: state.stack) count)
    (replies : (state.next.walk count).2.control = .reply reply) :
    ∃ fewer ≤ count, Idled name loop 0 (count + 1) fewer reply state := by
  rcases State.next_of_call (.inr rfl) calls named with
    ⟨queued, given, parks, zero⟩ | ⟨first, queue, frame, queued, started, placed, drives⟩
  · cases zero rfl
    obtain ⟨rfl, ⟨rfl, loops⟩ | ⟨other, taken⟩⟩ := passes.parked parks leaves replies
    · refine ⟨0, Nat.le_refl _, queued, rfl, .inl ⟨rfl, ?_⟩⟩
      rw [← World.loopQueue_handOut _ name] at queued
      simpa [State.walk, World.loopQueue, loops] using queued
    · simp [World.handOut] at taken
  · cases drives rfl
    obtain ⟨fewer, bound, idled⟩ := @Passes.idled_of_looping _ _ [] _ _ _ _ _ _ passes.next placed
      leaves replies
    refine ⟨fewer + 1, bound, Idled.before ?_⟩
    rw [started]
    exact idled

end

/-! ## Panics and drops -/

namespace Passes

/-- A loop that has an owner is there. -/
theorem exists_of_owned (passes : Passes past state)
    (owned : loop ∈ state.control.loops ++ state.stack.loops) :
    (state.world.loops.get? loop).isSome = true := by
  have owners := passes.owners_le_one loop
  have held := List.count_pos_iff.mpr owned
  have there : loop < state.world.loops.size := by
    refine Classical.byContradiction fun absent => ?_
    simp only [State.owners, World.owners, if_neg absent] at owners
    omega
  simpa [Store.get?, Store.size] using there

/-- A loop that is being driven is alive. -/
theorem isLoopAlive_of_drives (passes : Passes past state) (member : frame ∈ state.stack)
    (drives : frame.drives? = some loop) : state.world.isLoopAlive loop = true := by
  obtain ⟨found, lookup⟩ := Option.isSome_iff_exists.mp
    (passes.exists_of_owned (List.mem_append_right _ (Stack.mem_loops member drives)))
  have undropped : ¬ Dropped past loop := by
    rintro ⟨visited, among, drops⟩
    exact passes.undropped member drives visited among drops
  simp [World.isLoopAlive, lookup, (passes.inTurn loop).alive undropped found lookup]

end Passes

/-- A panic that leaves a drive takes nothing out of a queue, and gives the loop back. -/
theorem State.next_of_panic {payload : Payload} (panics : state.control = .unwind payload)
    (placed : state.stack = frame :: base) (drives : frame.drives? = some loop) :
    state.next.world.loops = state.world.loops ∧
      ∃ name, state.next.world.ownedLoops.find? name = some loop := by
  obtain ⟨world, stack, control⟩ := state
  subst panics placed
  obtain ⟨name, goes⟩ := State.unwindingThrough_of_drives drives
  refine ⟨by simp only [State.next, goes, State.loops_parkingUnwound], name, ?_⟩
  simp only [State.next, goes, State.parkingUnwound, World.restoreLoop, State.dropping]
  split <;> simp

/-- The drop of a loop begins with what is queued. -/
theorem Passes.emptying_of_drop (passes : Passes past state)
    (drops : state.control = .task (.discard (.loop loop))) :
    Emptying loop state.stack (state.world.loopQueue loop) state.next := by
  have owned : loop ∈ state.control.loops ++ state.stack.loops := by
    simp [drops, Control.loops, Owned.loop?]
  have there := passes.exists_of_owned owned
  obtain ⟨world, stack, control⟩ := state
  subst drops
  have goes : State.next ⟨world, stack, .task (.discard (.loop loop))⟩ =
      ⟨world, .closing loop 0 :: stack, .reply .done⟩ := rfl
  rw [goes]
  exact @Emptying.closing _ _ ⟨world, .closing loop 0 :: stack, .reply .done⟩ [] 0 rfl there

/-- What is queued while a loop is dropped is left to be dropped. -/
theorem Emptying.left_of_queued (emptying : Emptying loop base left state)
    (queued : continuation ∈ state.world.loopQueue loop) : continuation ∈ left := by
  cases emptying with
  | closing _ _ => exact queued
  | unwinding _ gone | ended _ gone _ =>
      rw [World.Gone] at gone
      simp [World.loopQueue, gone] at queued

theorem State.walk_walk (state : State) (count more : Nat) :
    ((state.walk count).2.walk more).2 = (state.walk (count + more)).2 := by
  induction more with
  | zero => rfl
  | succ more ih => rw [State.walk_succ, ih, ← Nat.add_assoc, State.walk_succ]

theorem State.gone_goesOn (gone : state.world.Gone loop) (goesOn : state.GoesOn more later) :
    later.world.Gone loop := by
  induction goesOn with
  | here => exact gone
  | next _ ih => exact State.gone_next ih
  | again program _ _ ih => exact ih

/-- What becomes of a loop that is dropped, and of what is queued on it. -/
structure Emptied (loop count : Nat) (state : State) : Prop where
  /-- What is queued is dropped, in order, with what the drops still queue behind it. -/
  inOrder : (state.next.visits count).flatMap (State.droppedAt state.stack.length) =
    state.world.loopQueue loop ++ (state.next.visits count).flatMap (State.queuedOn loop)
  /-- Nothing starts from the loop any more. -/
  unstarted : ∀ more later, state.next.GoesOn more later → later.startedOn loop = []
  /-- A machine whose resumption is queued meanwhile is told a shutdown before the drop ends. -/
  told : ∀ fewer ≤ count, ∀ machine,
    .resumption machine ∈ (state.next.walk fewer).2.world.loopQueue loop →
      .told machine (.error .shutdown) ∈
        ((state.next.walk fewer).2.visits (count - fewer)).flatMap State.occurrences
  /-- And it is not stepped any more. -/
  uncalled : ∀ fewer ≤ count, ∀ machine,
    .resumption machine ∈ (state.next.walk fewer).2.world.loopQueue loop →
      ∀ more later, (state.next.walk fewer).2.GoesOn more later →
        ∀ position, .called machine position ∉ later.occurrences
  /-- What is scheduled afterwards is dropped by whoever schedules it. -/
  refuses : ∀ more later, (state.next.walk count).2.GoesOn more later →
    ∀ continuation, later.control = .task (.schedule (.loop loop) continuation) →
      later.next.control = .task (.discard (.continuation continuation)) ∧
        later.next.stack = .recording .loopGone :: later.stack

/-- When the drop of a loop is over, nothing of the loop is left. -/
theorem Passes.emptied (passes : Passes past state)
    (drops : state.control = .task (.discard (.loop loop)))
    (leaves : state.next.Leaves state.stack count)
    (running : ∀ reason, (state.next.walk count).2.control ≠ .halted reason) :
    Emptied loop count state := by
  have begins := passes.emptying_of_drop drops
  have during {fewer : Nat} (bound : fewer ≤ count) := begins.walk passes.next
    (fun visited member => leaves.inside visited (State.mem_visits_of_le bound member))
    (State.running_walk running bound)
  obtain ⟨left, ends, law⟩ := during (Nat.le_refl count)
  obtain ⟨rfl, gone, idle⟩ := ends.over_of_back leaves.back
  have condemned {fewer machine : Nat} (bound : fewer ≤ count)
      (queued : .resumption machine ∈ (state.next.walk fewer).2.world.loopQueue loop) :
      Condemned loop state.stack machine [] (state.next.walk fewer).2 := by
    obtain ⟨left, emptying, -⟩ := during bound
    exact .left emptying (emptying.left_of_queued queued)
  refine ⟨by rw [law, List.append_nil], ?_, ?_, ?_, ?_⟩
  · intro more later goesOn
    have passed := passes.next.goesOn goesOn
    refine passed.startedOn_of_dropped ⟨state, ?_, drops⟩
    simp
  · intro fewer bound machine queued
    have after := (condemned bound queued).goesOn (passes.next.walk fewer)
      (State.goesOn_walk _ (count - fewer))
    rw [State.walk_walk, Nat.add_sub_cancel' bound] at after
    exact after.told_of_idle (Nat.le_of_eq (congrArg List.length leaves.back)) idle running
  · intro fewer bound machine queued more later goesOn position
    have passed := passes.next.walk fewer
    exact ((condemned bound queued).goesOn passed goesOn).uncalled (passed.goesOn goesOn) position
  · intro more later goesOn continuation schedules
    have dead := (State.gone_goesOn gone goesOn).isLoopAlive
    obtain ⟨world, stack, control⟩ := later
    subst schedules
    simp [State.next, State.carryingOut, State.scheduling, dead]

/-- The queue of an event loop.  What was started is at all times a beginning of what was
scheduled, and until the loop is dropped, what was started and what is queued are together what
was scheduled, in that order.  A drive begins with the oldest.  A drive until the loop is idle that
returns has found the queue empty, and its reply counts what it has started.  A panic that leaves a
drive leaves what is queued to the next one.  When the loop is dropped, what is queued is dropped,
in order, and so is whatever is scheduled then or later; the machines to be resumed are told a
shutdown, and are not stepped any more. -/
theorem loop_queue_loses_nothing (passes : Passes past state) (loop : Nat) :
    past.flatMap (State.startedOn loop) <+: past.flatMap (State.queuedOn loop) ∧
    (¬ Dropped past loop → state.world.Open loop ∧
      past.flatMap (State.startedOn loop) ++ state.world.loopQueue loop =
        past.flatMap (State.queuedOn loop)) ∧
    (∀ name rest, state.world.ownedLoops.find? name = some loop →
      (∀ request, request = .turnLoop name ∨ request = .runLoop name →
        state.control = .program (.call request rest) →
          state.startedOn loop = (state.world.loopQueue loop).take 1) ∧
      ∀ count reply, state.control = .program (.call (.runLoop name) rest) →
        state.next.Leaves (.program rest :: state.stack) count →
          (state.next.walk count).2.control = .reply reply →
            ∃ fewer ≤ count, Idled name loop 0 (count + 1) fewer reply state) ∧
    (∀ frame callers payload, state.stack = frame :: callers → frame.drives? = some loop →
      state.control = .unwind payload →
        state.world.isLoopAlive loop = true ∧ state.next.world.loops = state.world.loops ∧
          ∃ name, state.next.world.ownedLoops.find? name = some loop) ∧
    (state.control = .task (.discard (.loop loop)) →
      ∀ count, state.next.Leaves state.stack count →
        (∀ reason, (state.next.walk count).2.control ≠ .halted reason) →
          Emptied loop count state) := by
  have inTurn := passes.inTurn loop
  refine ⟨inTurn.inOrder, fun opens => ⟨inTurn.alive opens, inTurn.lossless opens⟩, ?_, ?_, ?_⟩
  · intro name rest named
    refine ⟨fun request asks calls => ?_, fun count reply calls leaves replies =>
      passes.idled_of_call calls named leaves replies⟩
    rcases State.next_of_call asks calls named with
      ⟨queued, reply, parks, -⟩ | ⟨first, queue, frame, queued, started, -⟩
    · rw [queued, State.startedOn_of_parking parks]
      rfl
    · rw [queued, started]
      rfl
  · intro frame callers payload placed drives panics
    exact ⟨passes.isLoopAlive_of_drives (placed ▸ List.mem_cons_self ..) drives,
      State.next_of_panic panics placed drives⟩
  · intro drops count leaves running
    exact passes.emptied drops leaves running

/-- Have a loop run a continuation that schedules another one on it, and turned for one that panics;
and drop it when it is to resume a machine, whose observer schedules on it. -/
def Program.retiring : Program :=
  .call (.newLoop (.shared "loop")) fun _ =>
    .call (.schedule (.loop 0) (.call (.schedule (.loop 0) (.ret .done)) .ret)) fun _ =>
      .call (.runLoop (.shared "loop")) fun _ =>
        .call (.schedule (.loop 0) (.panic (.text "boom"))) fun _ =>
          .call (.pending (.shared "result") false (.shared "writer")) fun _ =>
            .call (.start (.shared "machine")
              (.custom fun _ => .call (.suspend (.shared "result") 0) .ret) (.loop 0)
              fun _ => .call (.schedule (.loop 0) (.ret .done)) .ret) fun _ =>
                .call (.complete (.shared "writer") (.ok .null)) fun _ =>
                  .call (.attempt (.call (.turnLoop (.shared "loop")) .ret)) fun _ =>
                    .call (.dropLoop (.shared "loop")) .ret

/-- That run after so many small steps. -/
def State.retiring (count : Nat) : State := ((State.ofProgram .initial .retiring).walk count).2

/-- Until the loop is idle two continuations are started.  The panic leaves the resumption in the
queue, which is dropped with the loop, and then what the observer has scheduled. -/
theorem loop_queue_loses_nothing_retiring :
    (∃ fewer ≤ 10, Idled (.shared "loop") 0 0 11 fewer (.count 2) (.retiring 6)) ∧
    (State.retiring 47).world.loops = (State.retiring 46).world.loops ∧
    ((State.ofProgram .initial .retiring).visits 51).flatMap (State.startedOn 0) ++
        [.resumption 0] =
      ((State.ofProgram .initial .retiring).visits 51).flatMap (State.queuedOn 0) ∧
    ((State.retiring 52).visits 13).flatMap (State.droppedAt 2) =
      [.resumption 0, .callback (.ret .done)] ∧
    Emptied 0 13 (.retiring 51) := by
  have passes (count : Nat) : Passes ([] ++ (State.ofProgram .initial .retiring).visits count)
      (.retiring count) := (Passes.begin .retiring).walk count
  obtain ⟨-, -, drives, -⟩ := loop_queue_loses_nothing (passes 6) 0
  obtain ⟨-, -, -, panics, -⟩ := loop_queue_loses_nothing (passes 46) 0
  obtain ⟨-, lossless, -, -, drops⟩ := loop_queue_loses_nothing (passes 51) 0
  have undropped : ¬ Dropped ([] ++ (State.ofProgram .initial .retiring).visits 51) 0 :=
    dropped_iff.not.mpr (by decide +kernel)
  refine ⟨?_, ?_, ?_, rfl, ?_⟩
  · exact (drives _ _ rfl).2 10 _ rfl (.of_all (by decide +kernel) rfl) rfl
  · exact (panics _ _ _ rfl rfl rfl).2.1
  · exact (lossless undropped).2
  · exact drops rfl 13 (.of_all (by decide +kernel) rfl) nofun

end Stepwise
