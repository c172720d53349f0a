import Stepwise.Proofs.Handovers

/-!
# Where machines are resumed

A machine is resumed in its start for the first time, and then where its scheduler puts what it
is handed.  A step runs above what its resumption runs above, until the machine is suspended
again.  So steps run in no other place, and not above a loop that has been dropped.
-/

namespace Stepwise

variable {state : State} {past : List State} {machine loop : Nat} {below : Stack}

/-! ## Steps under way -/

/-- One frame at most steps a machine. -/
theorem Custody.stepping_once {ledger : Ledger} {chronicle : Chronicle} {inHand : List Holding}
    {above : Stack}
    (custody : Custody ledger chronicle inHand (above ++ .stepping machine :: below)) :
    Frame.stepping machine ∉ above ∧ Frame.stepping machine ∉ below := by
  have once := custody.claims_le_one machine
  have claims (frames : Stack) (member : Frame.stepping machine ∈ frames) :
      0 < Holding.amount (.claim machine) (Stack.holdings frames) := by
    refine Nat.pos_of_ne_zero fun zero => ?_
    have held : Holding.stepping machine ∈ Stack.holdings frames :=
      List.mem_flatMap.mpr ⟨_, member, List.mem_singleton.mpr rfl⟩
    exact List.count_eq_zero.mp zero
      (List.mem_flatMap.mpr ⟨_, held, List.mem_singleton.mpr rfl⟩)
  have parts : Holding.amount (.claim machine)
      (Stack.holdings (above ++ .stepping machine :: below)) =
        Holding.amount (.claim machine) (Stack.holdings above) + 1 +
          Holding.amount (.claim machine) (Stack.holdings below) := by
    simp [Stack.holdings, Frame.holdings, Holding.amount_append, Holding.assets]
    omega
  simp only [Ledger.total, Holding.amount_append, parts] at once
  refine ⟨fun member => ?_, fun member => ?_⟩
  · have more := claims above member
    omega
  · have more := claims below member
    omega

namespace Passes

/-- A step that is under way after a small step is called by it, or goes on in it. -/
theorem calls_or_goesOn (passes : Passes past state)
    (running : ∀ reason, state.next.control ≠ .halted reason)
    (member : Frame.stepping machine ∈ state.next.stack) :
    (∃ position, state.Calls machine position) ∨
      Frame.stepping machine ∈ state.base ∧
        ∀ ending, .ended machine ending ∉ state.occurrences := by
  obtain ⟨found, -, under⟩ :=
    (passes.next.reaches.inOrder.custody running).step_of_stepping member
  rw [List.flatMap_append, Chronicle.of_append, List.flatMap_singleton] at under
  by_cases called : ∃ position, .called machine position ∈ state.occurrences
  · obtain ⟨position, called⟩ := called
    exact .inl ⟨position, State.drives_of_occurrences called rfl⟩
  · simp only [not_exists] at called
    have before := Chronicle.step_before
      (fun occurrence member position same => called position (same ▸ member)) under
    have goesOn (ending : StepEnd) : .ended machine ending ∉ state.occurrences := by
      intro ended
      rw [State.occurrences_of_ended ended] at under
      simp [Chronicle.after, before] at under
    exact .inr ⟨State.stepping_mem_base (passes.reaches.stepping_mem before) goesOn, goesOn⟩

/-- What waits for a step was there before a small step and the machine is not suspended by it, or
the step is called just now. -/
theorem stepping_before {above : Stack} (passes : Passes past state)
    (running : ∀ reason, state.next.control ≠ .halted reason)
    (placed : state.next.stack = above ++ .stepping machine :: below) :
    (state.control = .task (.advance machine) ∧ state.stack = below) ∨
      (∃ more, state.stack = more ++ .stepping machine :: below) ∧
        state.suspended? machine = none := by
  -- The frame that waits for the step is there once only.
  have only {front rest : Stack} (other : state.next.stack = front ++ .stepping machine :: rest) :
      below = rest := by
    have custody := passes.next.reaches.inOrder.custody running
    rw [placed] at custody
    obtain ⟨higher, lower⟩ := custody.stepping_once
    exact ((List.append_cons_inj_of_notMem higher lower).mp (placed.symm.trans other)).2.2
  have waiting : Frame.stepping machine ∈ state.next.stack := by simp [placed]
  rcases passes.calls_or_goesOn running waiting with ⟨position, calls⟩ | ⟨member, goesOn⟩
  · exact .inl ⟨calls.1, (@only [] _ (State.next_of_calls calls).2).symm⟩
  · have order := passes.reaches.inOrder
    obtain ⟨front, rest, split⟩ := List.append_of_mem member
    obtain ⟨new, stacked⟩ := State.stack_next order
    obtain ⟨popped, above_base, -⟩ := State.exists_above_base state
    cases @only (new ++ front) rest (by rw [stacked, split, List.append_assoc])
    refine .inr ⟨⟨popped ++ front, by rw [above_base, split, List.append_assoc]⟩, ?_⟩
    refine Option.eq_none_iff_forall_ne_some.mpr fun deferred suspended => ?_
    obtain ⟨resumeAt, callers, ends, -⟩ := State.ends_of_suspended suspended
    refine goesOn (.returned (.await resumeAt deferred)) ?_
    simp [(State.called_of_ends order ends).1]

end Passes

/-- A machine was resumed above some frames, and has not been suspended since. -/
def Resumed (past : List State) (machine : Nat) (below : Stack) : Prop :=
  ∃ older resumption newer, past = older ++ resumption :: newer ∧
    resumption.control = .task (.resume machine) ∧ resumption.stack = below ∧
      ∀ visited ∈ newer, visited.suspended? machine = none

theorem Resumed.next (resumed : Resumed past machine below)
    (quiet : state.suspended? machine = none) : Resumed (past ++ [state]) machine below := by
  obtain ⟨older, resumption, newer, rfl, resumes, placed, since⟩ := resumed
  refine ⟨older, resumption, newer ++ [state], by simp, resumes, placed, ?_⟩
  intro visited member
  rcases List.mem_append.mp member with before | now
  · exact since visited before
  · rw [List.mem_singleton.mp now]
    exact quiet

/-- The step of a machine is about to be called, or is under way, above some frames. -/
def State.Steps (state : State) (machine : Nat) (below : Stack) : Prop :=
  (state.control = .task (.advance machine) ∧ state.stack = below) ∨
    (∃ above, state.stack = above ++ .stepping machine :: below) ∧
      ∀ reason, state.control ≠ .halted reason

/-- To resume a machine leaves what waits for it alone. -/
theorem State.stack_of_resumed (resumes : state.control = .task (.resume machine))
    (advances : state.next.control = .task (.advance machine)) :
    state.next.stack = state.stack := by
  obtain ⟨world, stack, control⟩ := state
  subst resumes
  revert advances
  simp only [next, carryingOut, resuming]
  split
  · simp [replying]
  · split
    · simp
    · simp [violating, dropping]
    · split
      · exact fun _ => rfl
      · split
        · exact fun _ => rfl
        · simp [violating, dropping]

/-- A step that awaits something complete is followed by the next one in its place. -/
theorem State.goesOn_of_complete {resumeAt deferred : Nat} {callers : Stack}
    (ends : state.Ends machine (.returned (.await resumeAt deferred)) callers)
    (complete : state.world.isComplete deferred = true) :
    state.suspended? machine = none ∧ state.next.stack = callers := by
  obtain ⟨world, stack, control⟩ := state
  obtain ⟨rfl, reply, rfl, judged⟩ := ends
  have result : world.judge machine reply = .await resumeAt deferred := judged
  have whole : world.isComplete deferred = true := complete
  constructor
  · simp [suspended?, result, whole]
  · simp [next, returning, stepped, result, whole]

/-- A step runs above what its machine was resumed above. -/
theorem Passes.resumed (passes : Passes past state) (steps : state.Steps machine below) :
    Resumed past machine below := by
  induction passes generalizing below with
  | begin _ | again _ _ _ _ =>
      rcases steps with ⟨advances, -⟩ | ⟨⟨above, placed⟩, -⟩
      · cases advances
      · have lengths := congrArg List.length placed
        simp [State.ofProgram] at lengths
  | @next past state passes ih =>
      rcases steps with ⟨advances, rfl⟩ | ⟨⟨above, placed⟩, running⟩
      · cases state.takesEffect.urges _ advances rfl with
        | resumes resumes =>
            have same := State.stack_of_resumed resumes advances
            exact ⟨past, state, [], rfl, resumes, same.symm, by simp⟩
        | @goesOn _ resumeAt deferred callers ends complete =>
            have stepped : state.Steps machine callers := by
              obtain ⟨placed, reply, replies, -⟩ := ends
              exact .inr ⟨⟨[], placed⟩, by simp [replies]⟩
            obtain ⟨quiet, same⟩ := State.goesOn_of_complete ends complete
            rw [same]
            exact (ih stepped).next quiet
      · have before := State.running_before running
        rcases passes.stepping_before running placed with ⟨advances, same⟩ | ⟨⟨more, was⟩, quiet⟩
        · exact (ih (.inl ⟨advances, same⟩)).next (by simp [State.suspended?, advances])
        · exact (ih (.inr ⟨⟨more, was⟩, before⟩)).next quiet

/-! ## Loops that are driven -/

theorem Stack.mem_loops {stack : Stack} {frame : Frame} (member : frame ∈ stack)
    (drives : frame.drives? = some loop) : loop ∈ stack.loops := by
  induction stack with
  | nil => cases member
  | cons top rest ih =>
      rcases List.mem_cons.mp member with rfl | later
      · rw [Stack.loops_driving drives]
        exact List.mem_cons_self ..
      · exact List.mem_append_right _ (ih later)

namespace Passes

/-- A loop has one owner at most, and none when it has been dropped. -/
theorem owners_le_one (passes : Passes past state) (loop : Nat) :
    state.owners loop + (past.flatMap fun visited => visited.control.loops).count loop ≤ 1 := by
  induction passes with
  | begin _ => exact Nat.le_refl 1
  | again program _ _ ih =>
      refine Nat.le_trans (Nat.add_le_add_right ?_ _) ih
      exact Nat.add_le_add_left (Nat.zero_le _) _
  | @next past state _ ih =>
      have fewer := state.owners_next loop
      simp only [List.flatMap_append, List.flatMap_singleton, List.count_append]
      omega

/-- A loop that is being driven has not been dropped. -/
theorem undropped {frame : Frame} (passes : Passes past state) (member : frame ∈ state.stack)
    (drives : frame.drives? = some loop) :
    ∀ visited ∈ past, visited.control ≠ .task (.discard (.loop loop)) := by
  intro visited among drops
  have bound := passes.owners_le_one loop
  have owned : 0 < state.owners loop := by
    have held := List.count_pos_iff.mpr (Stack.mem_loops member drives)
    simp only [State.owners, List.count_append]
    omega
  have dropped : 0 < (past.flatMap fun visited => visited.control.loops).count loop :=
    List.count_pos_iff.mpr (List.mem_flatMap.mpr
      ⟨visited, among, by rw [drops]; exact List.mem_singleton_self _⟩)
  omega

end Passes

/-! ## Where schedulers put resumptions -/

/-- A machine is sent to its scheduler within the call that completes what it awaits. -/
structure Completing (past : List State) (origin : State) (machine : Nat) (scheduler : Scheduler)
    (below : Stack) : Prop where
  sends : origin.control = .task (.schedule scheduler (.resumption machine))
  stays : origin.stack = below
  within : ∃ deferred rest callers, below = .firing deferred rest :: callers ∧
    Within past deferred callers ∧ origin.world.ledger.Suspends machine scheduler deferred

/-- Where a scheduler puts the resumption of a machine, which the small step out of `origin`
runs. -/
def Placed (past : List State) (origin : State) (machine : Nat) (below : Stack) :
    Scheduler → Prop
  | .inline => Completing past origin machine .inline below
  | .pool pool =>
      (∃ name rest found jobs number,
        origin.control = .program (.call (.work name) rest) ∧
          origin.world.pools.get? pool = some found ∧ found.jobs = .resumption machine :: jobs ∧
            below = .worker pool number origin.world.thread :: .program rest :: origin.stack) ∨
        Completing past origin machine (.pool pool) below ∧
          origin.world.acceptsJobs pool = false
  | .loop loop =>
      (∃ left, origin.world.loopQueue loop = .resumption machine :: left) ∧
        (∃ frame callers, below = frame :: callers ∧ frame.drives? = some loop) ∧
          ∀ visited ∈ past, visited.control ≠ .task (.discard (.loop loop))
  | .queue queue =>
      ∃ name index rest, origin.control = .program (.call (.runQueued name index) rest) ∧
        origin.world.queueNames.find? name = some queue ∧
          ((origin.world.queues.get? queue).getD [])[index]? = some (some (.resumption machine)) ∧
            below = .answering .done :: .program rest :: origin.stack
  | .discard => False

namespace Passes

/-- The resumption of a machine is run where its scheduler puts it. -/
theorem placed {older : List State} {origin : State} {above : Stack} (before : Passes older origin)
    (runs : origin.next.control = .task (.run (.resumption machine))) (passes : Passes past state)
    (stays : state.stack = above ++ origin.next.stack) :
    ∃ found, origin.world.activations.get? machine = some found ∧
      Placed past origin machine origin.next.stack found.scheduler := by
  obtain ⟨callers, placed, begets⟩ := State.begets runs rfl
  rw [placed] at stays ⊢
  have running (reason : Halt) : origin.control ≠ .halted reason := by
    intro halts
    simp [State.next, halts] at runs
  have custody := before.reaches.inOrder.custody running
  have queued {keeper : Scheduler}
      (holds : origin.world.ledger.Holds (.queued keeper) (.resumption machine)) :
      ∃ found, origin.world.activations.get? machine = some found ∧
        found.scheduler = keeper := by
    obtain ⟨_, ⟨found, lookup, same, -⟩, -⟩ :=
      custody.kept (.queued keeper) (.resumption machine) holds
    exact ⟨found, lookup, same⟩
  cases begets with
  | registered registers _ =>
      have exerts := origin.exerts
      rw [registers] at exerts
      cases exerts
  | @fired deferred _ _ _ _ firing replies =>
      exact (custody.rightful (.continuation (.fired deferred) (.resumption machine))
        (by simp [firing, Frame.holdings])).elim
  | @scheduled scheduler _ sends atOnce =>
      obtain ⟨deferred, rest, below, fires, suspends, -⟩ := before.suspends_of_schedules sends
      have completing : Completing past origin machine scheduler origin.stack :=
        ⟨sends, rfl, deferred, rest, below, fires, passes.within (by rw [stays, fires]), suspends⟩
      obtain ⟨found, lookup, rfl, -⟩ := suspends
      refine ⟨found, lookup, ?_⟩
      generalize found.scheduler = scheduler at completing atOnce
      rcases atOnce with rfl | ⟨pool, rfl, refused⟩
      · exact completing
      · exact .inr ⟨completing, refused⟩
  | @worked name rest pool number found _ jobs calls lookup oldest =>
      obtain ⟨activation, present, same⟩ := @queued (.pool pool) ⟨found, lookup, by simp [oldest]⟩
      refine ⟨activation, present, ?_⟩
      rw [same]
      exact .inl ⟨name, rest, found, jobs, number, calls, lookup, oldest, rfl⟩
  | @unqueued name index queue rest _ calls named there =>
      obtain ⟨activation, present, same⟩ := queued (World.holds_of_queued there)
      refine ⟨activation, present, ?_⟩
      rw [same]
      exact ⟨name, index, rest, calls, named, there, rfl⟩
  | @driven loop _ left frame callers first drives =>
      obtain ⟨activation, present, same⟩ := queued (World.holds_of_loopQueue first)
      refine ⟨activation, present, ?_⟩
      rw [same]
      exact ⟨⟨left, first⟩, ⟨frame, callers, rfl, drives⟩,
        passes.undropped (by simp [stays]) drives⟩

/-- Machines keep their schedulers while a run goes on. -/
theorem schedules_of_mem {visited : State} (passes : Passes past state) (member : visited ∈ past) :
    visited.world.Schedules state.world := by
  induction passes with
  | begin _ => cases member
  | again _ _ _ ih => exact ih member
  | @next past state _ ih =>
      rcases List.mem_append.mp member with before | now
      · exact (ih before).trans state.schedules_next
      · rw [List.mem_singleton.mp now]
        exact state.schedules_next

end Passes

/-- A machine was resumed above some frames, and has not been suspended since.  The small step out
of `origin` ran its resumption there. -/
def ResumedBy (past : List State) (origin : State) (machine : Nat) (below : Stack) : Prop :=
  ∃ older newer, past = older ++ origin :: origin.next :: origin.next.next :: newer ∧
    origin.next.control = .task (.run (.resumption machine)) ∧ origin.next.stack = below ∧
      ∀ visited ∈ newer, visited.suspended? machine = none

/-- A machine is resumed by its start, or because its resumption is run. -/
theorem Passes.starts_or_resumed (passes : Passes past state)
    (resumed : Resumed past machine below) :
    (∃ frame callers, below = frame :: callers ∧ frame.starts? = some machine) ∨
      ∃ origin, ResumedBy past origin machine below := by
  obtain ⟨older, resumption, newer, split, resumes, rfl, since⟩ := resumed
  cases passes.of_split split with
  | begin _ | again _ _ _ => cases resumes
  | @next older running before =>
      obtain ⟨callers, placed, begets⟩ := State.begets resumes rfl
      rw [placed]
      cases begets with
      | @started frame callers _ _ _ starts => exact .inl ⟨frame, callers, rfl, starts⟩
      | resumed runs =>
          right
          cases before with
          | begin _ | again _ _ _ => cases runs
          | @next older origin before =>
              exact ⟨origin, older, newer, by simp [split], runs, rfl, since⟩

/-- A machine whose step is called or under way is there. -/
theorem Passes.exists_of_steps (passes : Passes past state) (steps : state.Steps machine below) :
    ∃ found, state.world.activations.get? machine = some found := by
  have order := passes.reaches.inOrder
  rcases steps with ⟨advances, -⟩ | ⟨⟨above, placed⟩, running⟩
  · have custody := order.custody (by simp [advances])
    rw [advances] at custody
    obtain ⟨found, lookup, -⟩ := custody.rightful (.advancing machine) (List.mem_cons_self ..)
    exact ⟨found, lookup⟩
  · have member : Frame.stepping machine ∈ state.stack := by simp [placed]
    obtain ⟨found, lookup, -⟩ := (order.custody running).step_of_stepping member
    exact ⟨found, lookup⟩

/-- Steps run only where the scheduler of their machine puts them.  While a step is called or is
under way, it is in the start of its machine, or in one place that its scheduler has chosen: in the
call that completes what the machine awaited, on a worker of the pool, in the drive of a loop that
has not been dropped, or in the running of what a custom scheduler was handed. -/
theorem steps_in_place (passes : Passes past state) (steps : state.Steps machine below) :
    ∃ found, state.world.activations.get? machine = some found ∧
      ((∃ frame callers, below = frame :: callers ∧ frame.starts? = some machine) ∨
        ∃ origin, ResumedBy past origin machine below ∧
          Placed past origin machine below found.scheduler) := by
  obtain ⟨found, lookup⟩ := passes.exists_of_steps steps
  refine ⟨found, lookup, ?_⟩
  rcases passes.starts_or_resumed (passes.resumed steps) with starts | ⟨origin, resumed⟩
  · exact .inl starts
  · refine .inr ⟨origin, resumed, ?_⟩
    obtain ⟨older, newer, split, runs, rfl, -⟩ := resumed
    obtain ⟨above, stays⟩ : ∃ above, state.stack = above ++ origin.next.stack := by
      rcases steps with ⟨-, same⟩ | ⟨⟨above, placed⟩, -⟩
      · exact ⟨[], same⟩
      · exact ⟨above ++ [.stepping machine], by simp [placed]⟩
    obtain ⟨former, was, placed⟩ := (passes.of_split split).placed runs passes stays
    -- Its scheduler is the one that it had when it was resumed.
    obtain ⟨same, again, kept⟩ :=
      passes.schedules_of_mem (by simp [split]) machine former was
    cases lookup.symm.trans again
    rw [kept]
    exact placed

/-- Start a machine with a loop that resumes it, complete what it awaits, and turn the loop. -/
def Program.driving : Program :=
  .call (.pending (.shared "result") false (.shared "writer")) fun _ =>
    .call (.newLoop (.shared "loop")) fun _ =>
      .call (.start (.shared "machine") (.custom fun
        | .notStarted => .call (.suspend (.shared "result") 0) .ret
        | _ => .ret .done) (.loop 0) fun _ => .ret .done) fun _ =>
          .call (.complete (.shared "writer") (.ok .null)) fun _ =>
            .call (.turnLoop (.shared "loop")) .ret

/-- The second step of the machine is under way while the loop is turned, and the loop has not been
dropped. -/
theorem steps_in_place_driving :
    (∃ frame callers, ((State.ofProgram .initial .driving).walk 27).2.stack.tail =
        frame :: callers ∧ frame.drives? = some 0) ∧
      ∀ visited ∈ (State.ofProgram .initial .driving).visits 27,
        visited.control ≠ .task (.discard (.loop 0)) := by
  have steps : ((State.ofProgram .initial .driving).walk 27).2.Steps 0
      ((State.ofProgram .initial .driving).walk 27).2.stack.tail :=
    .inr ⟨⟨[], rfl⟩, nofun⟩
  obtain ⟨found, lookup, starts | ⟨origin, -, placed⟩⟩ :=
    steps_in_place ((Passes.begin .driving).walk 27) steps
  · obtain ⟨frame, callers, same, starts⟩ := starts
    cases same
    cases starts
  · have own : (((State.ofProgram .initial .driving).walk 27).2.world.activations.get? 0).map
        (·.scheduler) = some (.loop 0) := rfl
    rw [lookup, Option.map_some, Option.some.injEq] at own
    rw [own] at placed
    exact placed.2

/-- Have a runtime dropped by the completion of what a machine awaits that the runtime resumes. -/
def Program.outliving : Program :=
  .call (.newRuntime (.shared "runtime") 1 "worker") fun _ =>
    .call (.pending (.shared "result") false (.shared "writer")) fun _ =>
      .call (.onComplete (.shared "result")
          (.call (.dropRuntime (.shared "runtime")) .ret)) fun _ =>
        .call (.start (.shared "machine") (.custom fun
          | .notStarted => .call (.suspend (.shared "result") 0) .ret
          | _ => .ret .done) (.pool 0) fun _ => .ret .done) fun _ =>
            .call (.complete (.shared "writer") (.ok .null)) .ret

/-- Whether the step of the first machine is about to be called in a batch, and a pool resumes the
machine. -/
def State.overtakes (state : State) : Bool :=
  match state.control, state.stack, state.world.activations.get? 0 with
  | .task (.advance 0), .firing _ _ :: _, some ⟨_, _, _, _, _, _, .pool 0, _⟩ => true
  | _, _, _ => false

/-- Whether the first pool accepts jobs, if an outcome is published. -/
def State.publishesOpen (state : State) : Bool :=
  match state.control with
  | .task (.publish _ _) => state.world.acceptsJobs 0
  | _ => true

/-- A pool whose machine is resumed in the completing call need not be gone when the outcome is
published: what the call runs first may have shut the pool down. -/
theorem pool_gone_after_publication :
    ¬ ∀ (past : List State) (state : State) (machine pool : Nat) (below : Stack)
        (found : Activation), Passes past state → state.Steps machine below →
      state.world.activations.get? machine = some found → found.scheduler = .pool pool →
        (∃ frame callers, below = frame :: callers ∧ frame.starts? = some machine) ∨
        (∃ number thread callers, below = .worker pool number thread :: callers) ∨
        ∃ deferred rest callers publisher outcome, below = .firing deferred rest :: callers ∧
          publisher ∈ past ∧ publisher.control = .task (.publish deferred outcome) ∧
            publisher.world.acceptsJobs pool = false := by
  intro claimed
  have stands : ((State.ofProgram .initial .outliving).walk 33).2.overtakes = true := by
    decide +kernel
  unfold State.overtakes at stands
  split at stands
  · next advances placed lookup =>
      rcases claimed _ _ 0 0 _ _ ((Passes.begin .outliving).walk 33) (.inl ⟨advances, placed⟩)
          lookup rfl with
        ⟨frame, callers, same, starts⟩ | ⟨number, thread, callers, same⟩ |
        ⟨deferred, rest, callers, publisher, outcome, -, member, publishes, refused⟩
      · cases same
        cases starts
      · cases same
      · have whole : ((State.ofProgram .initial .outliving).visits 33).all
            State.publishesOpen = true := by
          decide +kernel
        have accepts := List.all_eq_true.mp whole publisher member
        simp [State.publishesOpen, publishes, refused] at accepts
  · cases stands

end Stepwise
