import Stepwise.Proofs.Loops.Interleaved
import Stepwise.Proofs.Loops.Moves

/-!
# Drives until a condition holds

What a drive until a condition holds does is read off a run as a list of moves, small step by
small step.  However long the run goes on, and whatever other threads schedule while a turn
waits, the moves follow the pattern of a drive, and the drive waits in the frame that the pattern
says, until it ends with the last answer of its condition or a panic takes it away.
-/

namespace Stepwise

/-! ## What small steps do in a drive -/

namespace State

/-- The turn that a drive has just made instead of a last evaluation. -/
def turned (state : State) : List Drive.Move :=
  match state.control, state.stack with
  | .task (.run continuation), .pumping _ :: _ => [.turns (some continuation)]
  | .program _, .deciding _ false :: _ => [.turns none]
  | _, _ => []

/-- The evaluation that a drive has just begun. -/
def asked (state : State) : List Drive.Move :=
  match state.control, state.stack with
  | .program program, .deciding _ _ :: _ => [.asks program]
  | _, _ => []

/-- What the small step does in the drive that waits on top of so many frames. -/
def movesAt (height : Nat) (state : State) : List Drive.Move :=
  match state.control, state.stack with
  | .program (.call (.runLoopUntil _ _ _ _) _), stack =>
      if stack.length + 1 = height then state.next.asked else []
  | .reply reply, .deciding _ _ :: base =>
      if base.length = height then
        .hears reply.asFlag :: (state.next.turned ++ state.next.asked)
      else []
  | .reply _, .pumping _ :: base =>
      if base.length = height then state.next.asked else []
  | _, _ => []

/-- What the drive that is called has done after some more small steps. -/
def movesIn (state : State) (more : List State) : List Drive.Move :=
  (state :: more).flatMap (movesAt (state.stack.length + 1))

end State

variable {past more : List State} {state later : State} {above base : Stack} {frame : Frame}
  {world : World} {name : Name} {reply : Reply} {payload : Payload} {drive : Drive}
  {moves : List Drive.Move} {stage : Drive.Stage} {last : Bool}

/-- A drive does nothing while it waits. -/
theorem State.movesAt_of_waits (placed : state.stack = above ++ frame :: base)
    (waits : ¬ state.Delivers frame base) : state.movesAt base.length = [] := by
  have innermost {top : Frame} {rest : Stack} (stacked : state.stack = top :: rest)
      (height : rest.length = base.length) : state.stack = frame :: base := by
    cases above with
    | nil => exact placed
    | cons other above =>
        have lengths := congrArg List.length (stacked.symm.trans placed)
        simp only [List.length_append, List.length_cons] at lengths
        omega
  unfold State.movesAt
  split
  · refine if_neg fun height => ?_
    simp only [placed, List.length_append, List.length_cons] at height
    omega
  · next reply _ _ rest replies stacked =>
      exact if_neg fun height => waits ⟨innermost stacked height, .inl ⟨reply, replies⟩⟩
  · next reply _ rest replies stacked =>
      exact if_neg fun height => waits ⟨innermost stacked height, .inl ⟨reply, replies⟩⟩
  · rfl

theorem State.startedOn_of_deciding {loop : Nat}
    (goes : state.next = .deciding world base drive last) : state.startedOn loop = [] := by
  simp [State.startedOn, goes, State.deciding]

/-- What follows the answer of a condition. -/
inductive Drive.Answered (drive : Drive) (base : Stack) (last : Bool) (state : State) : Prop where
  | settled (holds : Bool) : (holds || last) = true →
      state.movesAt base.length = [.hears holds] →
        state.next = .parking state.world base drive.name drive.loop
          (.condition holds drive.calls) → Answered drive base last state
  | expired : last = false → drive.deadline ≤ drive.clock drive.turns drive.idle →
      state.movesAt base.length = [.hears false, .asks drive.condition] →
        state.next = .deciding state.world base drive true → Answered drive base last state
  | idled : last = false → drive.clock drive.turns drive.idle < drive.deadline →
      state.movesAt base.length = [.hears false, .turns none, .asks drive.condition] →
        state.next = .deciding state.world base
          { drive with turns := drive.turns + 1, idle := drive.idle + 1 } false →
          Answered drive base last state
  | started (continuation : Continuation) : last = false →
      drive.clock drive.turns drive.idle < drive.deadline →
        state.movesAt base.length = [.hears false, .turns (some continuation)] →
          state.startedOn drive.loop = [continuation] →
            state.next.stack = .pumping { drive with turns := drive.turns + 1 } :: base →
              Answered drive base last state

theorem State.parking_replies (world : World) (base : Stack) (name : Name) (loop : Nat)
    (reply : Reply) :
    ∃ given, (State.parking world base name loop reply).control = .reply given := by
  unfold State.parking World.restoreLoop
  dsimp only
  split <;> exact ⟨_, rfl⟩

theorem Drive.answered (placed : state.stack = .deciding drive last :: base)
    (replies : state.control = .reply reply) : drive.Answered base last state := by
  obtain ⟨world, stack, control⟩ := state
  subst placed replies
  by_cases ends : (reply.asFlag || last) = true
  · have goes : State.next ⟨world, .deciding drive last :: base, .reply reply⟩ =
        .parking world base drive.name drive.loop (.condition reply.asFlag drive.calls) := by
      simp [State.next, State.returning, State.decided, ends]
    obtain ⟨given, replies⟩ := State.parking_replies world base drive.name drive.loop
      (.condition reply.asFlag drive.calls)
    refine .settled reply.asFlag ends ?_ goes
    simp [State.movesAt, goes, State.turned, State.asked, replies]
  · obtain ⟨fails, rfl⟩ : reply.asFlag = false ∧ last = false := by simpa using ends
    by_cases late : drive.deadline ≤ drive.clock drive.turns drive.idle
    · refine .expired rfl late ?_ ?_ <;>
        simp [State.movesAt, State.next, State.returning, State.decided, fails, late,
          State.deciding, State.turned, State.asked]
    · cases queued : world.loopQueue drive.loop with
      | nil =>
          refine .idled rfl (Nat.lt_of_not_le late) ?_ ?_ <;>
            simp [State.movesAt, State.next, State.returning, State.decided, fails, late,
              State.pumping, queued, State.deciding, State.turned, State.asked]
      | cons continuation rest =>
          refine .started continuation rfl (Nat.lt_of_not_le late) ?_ ?_ ?_ <;>
            simp [State.movesAt, State.next, State.returning, State.decided, fails, late,
              State.pumping, queued, State.turned, State.asked, State.startedOn, State.drivesOn,
              Frame.drives?]

/-! ## How a drive ends -/

/-- A call above some frames is about to end: with one of the replies that it may end with, or
with a panic. -/
inductive State.Departs (may : Reply → Prop) (base : Stack) (state : State) : Prop where
  | answering {above : Stack} {reply : Reply} : may reply →
      state.stack = above ++ .answering reply :: base → Departs may base state
  | replied {reply : Reply} : may reply → state.stack = base → state.control = .reply reply →
      Departs may base state
  | unwinding {above : Stack} {owned : List Owned} {payload : Payload} :
      state.stack = above ++ .unwinding owned payload :: base → Departs may base state
  | broken : state.stack = base → (∀ reply, state.control ≠ .reply reply) →
      Departs may base state

namespace State.Departs

variable {may : Reply → Prop}

theorem of_parking {loop : Nat} :
    (State.parking world base name loop reply).Departs (· = reply) base := by
  unfold State.parking World.restoreLoop
  dsimp only
  split
  · exact @answering _ _ _ [.disposing _] _ rfl rfl
  · exact .replied rfl rfl rfl

theorem of_parkingUnwound {loop : Nat} :
    (State.parkingUnwound world base name loop payload).Departs may base := by
  unfold State.parkingUnwound World.restoreLoop
  dsimp only
  split
  · exact @unwinding _ _ _ [] _ _ rfl
  · exact .broken rfl fun _ => by simp [State.dropping]

/-- A call that is about to end goes on so until it has ended, and its drive does nothing more. -/
theorem next {loop : Nat} (sound : state.Sound loop) (departs : state.Departs may base)
    (inside : base.length < state.stack.length) :
    state.next.Departs may base ∧ state.movesAt base.length = [] := by
  cases departs with
  | @answering above reply permitted placed =>
      by_cases delivers : state.Delivers (.answering reply) base
      · obtain ⟨world, stack, control⟩ := state
        obtain ⟨rfl, ⟨given, rfl⟩ | ⟨payload, rfl⟩⟩ := delivers
        · exact ⟨.replied permitted rfl rfl, rfl⟩
        · exact ⟨.broken rfl nofun, rfl⟩
      · obtain ⟨more, still⟩ := sound.beneath placed delivers
        exact ⟨.answering permitted still, movesAt_of_waits placed delivers⟩
  | @unwinding above owned payload placed =>
      by_cases delivers : state.Delivers (.unwinding owned payload) base
      · obtain ⟨world, stack, control⟩ := state
        obtain ⟨rfl, ⟨given, rfl⟩ | ⟨second, rfl⟩⟩ := delivers
        · cases owned with
          | nil => exact ⟨.broken rfl nofun, rfl⟩
          | cons first rest => exact ⟨@unwinding _ _ _ [] rest payload rfl, rfl⟩
        · exact ⟨.broken rfl nofun, rfl⟩
      · obtain ⟨more, still⟩ := sound.beneath placed delivers
        exact ⟨.unwinding still, movesAt_of_waits placed delivers⟩
  | replied _ back _ | broken back _ => simp [back] at inside

/-- A thread that comes in changes nothing about how a call ends. -/
theorem joined (departs : state.Departs may base) (thread : String) (body : Program) :
    (state.joined thread body).Departs may base := by
  cases departs with
  | answering permitted placed =>
      obtain ⟨more, still⟩ := State.beneath_joined placed thread body
      exact .answering permitted still
  | unwinding placed =>
      obtain ⟨more, still⟩ := State.beneath_joined placed thread body
      exact .unwinding still
  | @replied reply permitted back replies =>
      have still : (state.joined thread body).stack = [] ++ .answering reply :: base := by
        simp [State.joined, replies, back]
      exact .answering permitted still
  | broken back unanswered =>
      have same : state.joined thread body = state := by
        unfold State.joined
        split
        · next reply replies => exact absurd replies (unanswered reply)
        · rfl
      rw [same]
      exact .broken back unanswered

/-- A call that has ended with a reply has ended with one that it may end with. -/
theorem of_back (departs : state.Departs may base) (back : state.stack = base)
    (replies : state.control = .reply reply) : may reply := by
  cases departs with
  | answering _ placed | unwinding placed => exact absurd back (State.stack_ne placed)
  | replied permitted _ given =>
      cases given.symm.trans replies
      exact permitted
  | broken _ unanswered => exact absurd replies (unanswered reply)

/-- A call that is about to end drives no loop. -/
theorem undriven (departs : state.Departs may base)
    (placed : state.stack = above ++ frame :: base) : frame.drives? = none := by
  cases departs with
  | answering _ stacked | unwinding stacked =>
      have same := List.append_inj_right' (stacked.symm.trans placed) rfl
      rw [← (List.cons.inj same).1]
      rfl
  | replied _ back _ | broken back _ => exact absurd back (State.stack_ne placed)

end State.Departs

/-! ## How far a drive has come -/

namespace Drive

variable {started queued : List Continuation} {driven : Drive}

/-- What was started from the loop of a drive and what is queued on it are together what was
queued. -/
def Accounts (drive : Drive) (started queued : List Continuation) (state : State) : Prop :=
  started ++ state.world.loopQueue drive.loop = queued

namespace Accounts

theorem inOrder (accounts : drive.Accounts started queued state) : started <+: queued :=
  ⟨_, accounts⟩

/-- As long as the drive waits, nothing is lost. -/
theorem next (accounts : drive.Accounts started queued state) (sound : state.Sound drive.loop)
    (member : frame ∈ state.stack) (drives : frame.drives? = some drive.loop) :
    drive.Accounts (started ++ state.startedOn drive.loop) (queued ++ state.queuedOn drive.loop)
      state.next := by
  rw [Accounts, List.append_assoc, State.loopQueue_next (sound.not_closes member drives),
    ← List.append_assoc, accounts]

theorem joined (accounts : drive.Accounts started queued state) (thread : String)
    (body : Program) : drive.Accounts started queued (state.joined thread body) := by
  obtain ⟨world, stack, control⟩ := state
  cases control with
  | reply _ | program _ | task _ | unwind _ | halted _ => exact accounts

end Accounts

/-- How far a drive has come that was called above some frames: it lasts, it has heard the last
answer, or a panic has left it. -/
inductive Comes (drive : Drive) (base : Stack) (started queued : List Continuation)
    (moves : List Move) (state : State) : Prop where
  | lasting {stage : Stage} {above : Stack} {frame : Frame} :
      drive.Leads moves stage → stage.frame? (drive.after moves) = some frame →
        state.stack = above ++ frame :: base → drive.Accounts started queued state →
          moves.filterMap Move.started? = started → Comes drive base started queued moves state
  | settled {last holds : Bool} : drive.Leads moves (.heard last holds) → (holds || last) = true →
      moves.filterMap Move.started? <+: queued →
        state.Departs (· = .condition holds (moves.countP Move.isCall)) base →
          Comes drive base started queued moves state
  | broken {stage : Stage} {frame : Frame} :
      drive.Leads moves stage → stage.frame? (drive.after moves) = some frame →
        moves.filterMap Move.started? <+: queued → state.Departs (fun _ => False) base →
          Comes drive base started queued moves state

namespace Comes

/-- A drive that goes on to evaluate its condition waits for the answer. -/
theorem of_deciding (leads : drive.Leads moves (.asking last))
    (goes : state = .deciding world base (drive.after moves) last)
    (accounts : drive.Accounts started queued state)
    (same : moves.filterMap Move.started? = started) :
    drive.Comes base started queued (moves ++ [.asks drive.condition]) state := by
  have waits : state.stack =
      [] ++ .deciding (drive.after (moves ++ [.asks drive.condition])) last :: base := by
    rw [goes, after_asks]
    rfl
  exact .lasting leads.asks rfl waits accounts (by simp [same, Move.started?])

/-- When a drive has heard an answer, it ends, evaluates for the last time, or makes a turn. -/
theorem of_answer (leads : drive.Leads moves (.evaluating last))
    (accounts : drive.Accounts started queued state) (sound : state.Sound drive.loop)
    (same : moves.filterMap Move.started? = started)
    (placed : state.stack = .deciding (drive.after moves) last :: base)
    (replies : state.control = .reply reply) :
    drive.Comes base (started ++ state.startedOn drive.loop)
      (queued ++ state.queuedOn drive.loop) (moves ++ state.movesAt base.length) state.next := by
  have member : .deciding (drive.after moves) last ∈ state.stack := placed ▸ List.mem_cons_self ..
  have later := accounts.next sound member rfl
  rcases Drive.answered placed replies with
    ⟨holds, ends, done, goes⟩ | ⟨rfl, late, done, goes⟩ | ⟨rfl, early, done, goes⟩ |
      ⟨continuation, rfl, early, done, runs, stacked⟩
  · have counted :
        (moves ++ [Move.hears holds]).countP Move.isCall = (drive.after moves).calls := by
      simp [after, Move.isCall]
    have begun : (moves ++ [Move.hears holds]).filterMap Move.started? = started := by
      simp [same, Move.started?]
    rw [done]
    refine .settled (leads.hears holds) ends ?_ ?_
    · rw [begun]
      exact accounts.inOrder.trans (List.prefix_append ..)
    · rw [goes, counted]
      exact .of_parking
  · have expires : drive.Leads (moves ++ [.hears false]) (.asking true) :=
      (leads.hears false).expires (by rw [time_hears]; exact late)
    rw [← after_hears drive moves false] at goes
    rw [done, List.append_cons]
    refine of_deciding expires goes later ?_
    simp [same, State.startedOn_of_deciding goes, Move.started?]
  · have returns : drive.Leads (moves ++ [.hears false] ++ [.turns none]) (.asking false) :=
      ((leads.hears false).turns none (by rw [time_hears]; exact early)).returns
    rw [← after_hears drive moves false, ← after_idle] at goes
    rw [done, List.append_cons, List.append_cons]
    refine of_deciding returns goes later ?_
    simp [same, State.startedOn_of_deciding goes, Move.started?]
  · have turns : drive.Leads (moves ++ [.hears false] ++ [.turns (some continuation)]) .turning :=
      (leads.hears false).turns _ (by rw [time_hears]; exact early)
    have waits : state.next.stack =
        [] ++ .pumping (drive.after (moves ++ [.hears false] ++ [.turns (some continuation)])) ::
          base := by
      rw [stacked, after_turns, after_hears]
      rfl
    have begins : state.startedOn drive.loop = [continuation] := runs
    rw [done, List.append_cons]
    refine .lasting turns rfl waits later ?_
    rw [begins, List.append_assoc, List.filterMap_append, same]
    rfl

/-- When the continuation that a turn has started has returned, the drive evaluates again. -/
theorem of_return (leads : drive.Leads moves .turning)
    (accounts : drive.Accounts started queued state) (sound : state.Sound drive.loop)
    (same : moves.filterMap Move.started? = started)
    (placed : state.stack = .pumping (drive.after moves) :: base)
    (replies : state.control = .reply reply) :
    drive.Comes base (started ++ state.startedOn drive.loop)
      (queued ++ state.queuedOn drive.loop) (moves ++ state.movesAt base.length) state.next := by
  have member : .pumping (drive.after moves) ∈ state.stack := placed ▸ List.mem_cons_self ..
  have later := accounts.next sound member rfl
  have goes : state.next = .deciding state.world base (drive.after moves) false := by
    obtain ⟨world, stack, control⟩ := state
    subst placed replies
    rfl
  have done : state.movesAt base.length = [.asks drive.condition] := by
    simp [State.movesAt, replies, placed, goes, State.deciding, State.asked, after]
  rw [done]
  refine of_deciding leads.returns goes later ?_
  rw [same, State.startedOn_of_deciding goes, List.append_nil]

/-- A small step of the run takes a drive on, or leaves it where it waits. -/
theorem next (comes : drive.Comes base started queued moves state)
    (sound : state.Sound drive.loop) (inside : base.length < state.stack.length) :
    drive.Comes base (started ++ state.startedOn drive.loop)
      (queued ++ state.queuedOn drive.loop) (moves ++ state.movesAt base.length) state.next := by
  cases comes with
  | @lasting stage above frame leads waits placed accounts same =>
      have drives : frame.drives? = some drive.loop := Stage.drives_of_frame waits
      by_cases delivers : state.Delivers frame base
      · obtain ⟨innermost, ⟨reply, replies⟩ | ⟨payload, panics⟩⟩ := delivers
        · cases stage with
          | evaluating last =>
              cases waits
              exact of_answer leads accounts sound same innermost replies
          | turning =>
              cases waits
              exact of_return leads accounts sound same innermost replies
          | asking _ | heard _ _ => cases waits
        · obtain ⟨name, goes⟩ := State.unwindingThrough_of_drives drives
          obtain ⟨world, stack, control⟩ := state
          subst innermost panics
          have done : State.movesAt base.length ⟨world, frame :: base, .unwind payload⟩ = [] := rfl
          have unwinds : State.next ⟨world, frame :: base, .unwind payload⟩ =
              .parkingUnwound world base name drive.loop payload := goes ..
          rw [done, List.append_nil, unwinds]
          refine .broken leads waits ?_ .of_parkingUnwound
          rw [same]
          exact accounts.inOrder.trans (List.prefix_append ..)
      · obtain ⟨more, still⟩ := sound.beneath placed delivers
        have member : frame ∈ state.stack :=
          placed ▸ List.mem_append_right _ (List.mem_cons_self ..)
        have later := accounts.next sound member drives
        have unstarted := State.unstarted_beneath sound.owned_once placed drives delivers
        rw [unstarted, List.append_nil] at later ⊢
        rw [State.movesAt_of_waits placed delivers, List.append_nil]
        exact .lasting leads waits still later same
  | settled leads ends begins departs =>
      obtain ⟨goesOn, done⟩ := departs.next sound inside
      rw [done, List.append_nil]
      exact .settled leads ends (begins.trans (List.prefix_append ..)) goesOn
  | broken leads waits begins departs =>
      obtain ⟨goesOn, done⟩ := departs.next sound inside
      rw [done, List.append_nil]
      exact .broken leads waits (begins.trans (List.prefix_append ..)) goesOn

theorem joined (comes : drive.Comes base started queued moves state) (thread : String)
    (body : Program) : drive.Comes base started queued moves (state.joined thread body) := by
  cases comes with
  | lasting leads waits placed accounts same =>
      obtain ⟨more, still⟩ := State.beneath_joined placed thread body
      exact .lasting leads waits still (accounts.joined thread body) same
  | settled leads ends begins departs =>
      exact .settled leads ends begins (departs.joined thread body)
  | broken leads waits begins departs =>
      exact .broken leads waits begins (departs.joined thread body)

/-- However long a run goes on in a drive, and whoever comes in. -/
theorem interleaves (comes : drive.Comes base started queued moves state)
    (sound : state.Sound drive.loop) (goesOn : state.Interleaves more later)
    (inside : ∀ visited ∈ more, base.length < visited.stack.length) :
    drive.Comes base (started ++ more.flatMap (State.startedOn drive.loop))
      (queued ++ more.flatMap (State.queuedOn drive.loop))
      (moves ++ more.flatMap (State.movesAt base.length)) later := by
  induction goesOn with
  | here => simpa using comes
  | @next more later goesOn ih =>
      have before := ih fun visited member => inside visited (List.mem_append_left _ member)
      have still : later.Sound drive.loop := sound.interleaves goesOn
      have inner := inside later (List.mem_append_right _ (List.mem_singleton_self _))
      simp only [List.flatMap_append, List.flatMap_singleton, ← List.append_assoc]
      exact before.next still inner
  | joins thread body _ ih => exact (ih inside).joined thread body

/-- The moves of a drive are as they are to be. -/
theorem heeds (comes : drive.Comes base started queued moves state) :
    drive.Heeds queued moves := by
  cases comes with
  | lasting leads waits _ accounts same =>
      exact leads.heeds_of_waits waits (same ▸ accounts.inOrder)
  | broken leads waits inOrder _ => exact leads.heeds_of_waits waits inOrder
  | settled leads ends inOrder _ => exact leads.heeds_of_ends ends inOrder

/-- As long as the loop is being driven, the turns have started what was started from it. -/
theorem accounts (comes : drive.Comes base started queued moves state)
    (placed : state.stack = above ++ frame :: base) (drives : frame.drives? = some drive.loop) :
    moves.filterMap Move.started? = started ∧
      started ++ state.world.loopQueue drive.loop = queued := by
  cases comes with
  | lasting _ _ _ accounts same => exact ⟨same, accounts⟩
  | settled _ _ _ departs | broken _ _ _ departs =>
      rw [departs.undriven placed] at drives
      cases drives

/-- A last answer is what the drive goes on to return. -/
theorem returns (comes : drive.Comes base started queued moves state)
    (placed : state.stack = .deciding driven last :: base) (replies : state.control = .reply reply)
    (ends : (reply.asFlag || last) = true) :
    state.next = .parking state.world base drive.name drive.loop
      (.condition reply.asFlag (moves.countP Move.isCall)) := by
  have innermost : state.stack = [] ++ .deciding driven last :: base := placed
  cases comes with
  | @lasting stage above frame leads waits stacked _ _ =>
      have same : Frame.deciding driven last = frame :=
        (List.cons.inj (List.append_inj_right' (innermost.symm.trans stacked) rfl)).1
      subst same
      cases stage with
      | evaluating _ =>
          cases waits
          obtain ⟨world, stack, control⟩ := state
          subst placed replies
          simp [State.next, State.returning, State.decided, ends, after]
      | asking _ | heard _ _ | turning => cases waits
  | settled _ _ _ departs | broken _ _ _ departs => cases departs.undriven innermost

/-- A drive that has returned has returned what it heard last. -/
theorem returned (comes : drive.Comes base started queued moves state)
    (back : state.stack = base) (replies : state.control = .reply reply) :
    ∃ holds, moves.getLast? = some (.hears holds) ∧
      reply = .condition holds (moves.countP Move.isCall) := by
  cases comes with
  | lasting _ _ placed _ _ => exact absurd back (State.stack_ne placed)
  | @settled _ holds leads _ _ departs =>
      obtain ⟨earlier, same⟩ := leads.suffix_of_heard
      exact ⟨holds, by simp [← same], departs.of_back back replies⟩
  | broken _ _ _ departs => exact (departs.of_back back replies).elim

end Comes

end Drive

/-! ## The whole drive -/

section

variable {earlier : List State} {begun : State} {loop deadline : Nat} {clock : Nat → Nat → Nat}
  {condition : Program} {rest : Reply → Program}

/-- A drive begins with an evaluation of its condition. -/
theorem Drive.comes_of_call
    (calls : state.control = .program (.call (.runLoopUntil name deadline clock condition) rest))
    (named : state.world.ownedLoops.find? name = some loop) :
    Drive.Comes ⟨name, loop, deadline, clock, condition, 0, 0, 0⟩ (.program rest :: state.stack) []
      (state.world.loopQueue loop) (state.movesAt (state.stack.length + 1)) state.next := by
  obtain ⟨world, stack, control⟩ := state
  subst calls
  have goes : State.next ⟨world, stack,
      .program (.call (.runLoopUntil name deadline clock condition) rest)⟩ =
        .deciding (world.handOut name) (.program rest :: stack)
          ⟨name, loop, deadline, clock, condition, 0, 0, 0⟩ false := by
    simp [State.next, State.requesting, State.driving, State.withNamed, named, World.handOut]
  have done : State.movesAt (stack.length + 1) ⟨world, stack,
      .program (.call (.runLoopUntil name deadline clock condition) rest)⟩ =
        [.asks condition] := by
    simp [State.movesAt, goes, State.deciding, State.asked]
  rw [done, goes]
  exact Comes.of_deciding .begins rfl rfl rfl

/-- A drive until a condition holds stops exactly at its condition, whatever the condition is,
whatever its clock shows before each turn, and whatever other threads do before and meanwhile.  It
evaluates the condition before each turn, and starts nothing any more when that holds; its turns
start, in order, what is queued on the loop, and nothing is lost.  What its condition has
answered last is what it returns, and that is false only when the deadline had passed before. -/
theorem drive_stops_at_condition (passes : Passes past begun)
    (reached : begun.Interleaves earlier state)
    (calls : state.control = .program (.call (.runLoopUntil name deadline clock condition) rest))
    (named : state.world.ownedLoops.find? name = some loop)
    (goesOn : state.next.Interleaves more later)
    (inside : ∀ visited ∈ more, state.stack.length + 1 < visited.stack.length) :
    Drive.Heeds ⟨name, loop, deadline, clock, condition, 0, 0, 0⟩
        (state.world.loopQueue loop ++ more.flatMap (State.queuedOn loop)) (state.movesIn more) ∧
      (∀ above frame, later.stack = above ++ frame :: .program rest :: state.stack →
        frame.drives? = some loop →
          (state.movesIn more).filterMap Drive.Move.started? =
              more.flatMap (State.startedOn loop) ∧
            more.flatMap (State.startedOn loop) ++ later.world.loopQueue loop =
              state.world.loopQueue loop ++ more.flatMap (State.queuedOn loop)) ∧
      (∀ driven last reply, later.stack = .deciding driven last :: .program rest :: state.stack →
        later.control = .reply reply → (reply.asFlag || last) = true →
          later.next = .parking later.world (.program rest :: state.stack) name loop
            (.condition reply.asFlag ((state.movesIn more).countP Drive.Move.isCall))) ∧
      ∀ reply, later.stack = .program rest :: state.stack → later.control = .reply reply →
        ∃ holds, (state.movesIn more).getLast? = some (.hears holds) ∧
          reply = .condition holds ((state.movesIn more).countP Drive.Move.isCall) := by
  have sound : state.next.Sound loop := ((passes.sound loop).interleaves reached).next
  have comes := (Drive.comes_of_call calls named).interleaves sound goesOn inside
  rw [List.nil_append] at comes
  have same : state.movesAt (state.stack.length + 1) ++
      more.flatMap (State.movesAt (state.stack.length + 1)) = state.movesIn more :=
    List.flatMap_cons.symm
  rw [List.length_cons, same] at comes
  exact ⟨comes.heeds, fun _ _ placed drives => comes.accounts placed drives,
    fun _ _ _ placed replies ends => comes.returns placed replies ends,
    fun _ back replies => comes.returned back replies⟩

end

/-- A condition that a cell tells. -/
def Program.told : Program :=
  .call (.load (.shared "cell")) fun reply =>
    match reply with
    | .outcome (.ok value) => .ret (.flag value.asFlag)
    | _ => .ret (.flag false)

/-- A continuation after which that condition holds. -/
def Program.tells : Program :=
  .call (.store (.shared "cell") (.ok (.bool true))) .ret

/-- A drive until a condition holds, on whose loop one continuation is queued. -/
def Program.heeding : Program :=
  .call (.newLoop (.shared "loop")) fun _ =>
    .call (.schedule (.loop 0) (.ret .done)) fun _ =>
      .call (.runLoopUntil (.shared "loop") 50 (fun turns _ => 10 * turns) .told) .ret

/-- That drive when it is called. -/
def State.heeding : State := ((State.ofProgram .initial .heeding).walk 6).2

/-- Its second turn waits for what another thread schedules: two more continuations. -/
def State.helped : State :=
  (State.heeding.next.walk 10).2.joined "helper"
    (.call (.schedule (.loop 0) .tells) fun _ => .call (.schedule (.loop 0) (.ret .done)) .ret)

/-- What the drive goes through until it returns. -/
def State.heeded : List State := State.heeding.next.visits 10 ++ State.helped.visits 24

/-- The second turn starts what makes the condition hold, and the third continuation is left. -/
theorem drive_stops_at_condition_heeding :
    State.heeding.movesIn State.heeded =
      [.asks .told, .hears false, .turns (some (.callback (.ret .done))), .asks .told,
        .hears false, .turns (some (.callback .tells)), .asks .told, .hears true] ∧
    Drive.Heeds ⟨.shared "loop", 0, 50, fun turns _ => 10 * turns, .told, 0, 0, 0⟩
      ([.callback (.ret .done)] ++ [.callback .tells, .callback (.ret .done)])
      (State.heeding.movesIn State.heeded) ∧
    (State.helped.walk 24).2.control = .reply (.condition true 3) ∧
    (State.helped.walk 24).2.world.loopQueue 0 = [.callback (.ret .done)] ∧
    ∃ holds, (State.heeding.movesIn State.heeded).getLast? = some (.hears holds) ∧
      Reply.condition true 3 =
        .condition holds ((State.heeding.movesIn State.heeded).countP Drive.Move.isCall) := by
  have reached : (State.ofProgram .initial .heeding).Interleaves
      ([] ++ (State.ofProgram .initial .heeding).visits 6) .heeding :=
    State.Interleaves.here.walk 6
  have goesOn : State.heeding.next.Interleaves State.heeded (State.helped.walk 24).2 :=
    ((State.Interleaves.here.walk 10).joins "helper" _).walk 24
  obtain ⟨heeds, -, -, returns⟩ :=
    drive_stops_at_condition (.begin .heeding) reached rfl rfl goesOn (by decide +kernel)
  exact ⟨rfl, heeds, rfl, rfl, returns _ rfl rfl⟩

end Stepwise
