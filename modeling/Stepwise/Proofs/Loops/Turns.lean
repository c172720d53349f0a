import Stepwise.Proofs.Loops.Basic
import Stepwise.Proofs.Places

/-!
# What small steps do to an event loop

A loop changes in few ways: it is made, a continuation is queued on it, a drive starts the
oldest, or a drop takes what is left.  From that follow the law of its queue, that what leaves
it and what stays in it are together what was in it and what enters; and that a loop goes away
once only, and for good.
-/

namespace Stepwise

/-- Whether a frame is in the middle of dropping a loop. -/
def Frame.closes (loop : Nat) : Frame → Bool
  | .closing other _ => decide (other = loop)
  | _ => false

/-- How many frames are in the middle of dropping a loop. -/
def Stack.closings (loop : Nat) (stack : Stack) : Nat := stack.countP (Frame.closes loop)

theorem Frame.closes_of_drives {frame : Frame} {loop : Nat} (drives : frame.drives? = some loop)
    (other : Nat) : frame.closes other = false := by
  cases frame <;> first | rfl | cases drives

theorem Frame.tends_of_closes {frame : Frame} {loop : Nat} (closes : frame.closes loop = true) :
    frame.tends = true := by
  cases frame <;> first | rfl | cases closes

@[simp] theorem Stack.closings_cons (loop : Nat) (frame : Frame) (stack : Stack) :
    Stack.closings loop (frame :: stack) =
      stack.closings loop + if frame.closes loop then 1 else 0 :=
  List.countP_cons

@[simp] theorem Frame.closes_closing (loop discarded : Nat) :
    (Frame.closing loop discarded).closes loop = true :=
  decide_eq_true rfl

@[simp] theorem Stack.closings_append (loop : Nat) (stack more : Stack) :
    Stack.closings loop (stack ++ more) = stack.closings loop + more.closings loop :=
  List.countP_append

/-- The frames that drop a loop are among those that tend to one. -/
theorem Stack.closings_tending (loop : Nat) (stack : Stack) :
    Stack.closings loop stack.tending = stack.closings loop := by
  simp only [Stack.closings, Stack.tending, List.countP_filter]
  congr 1
  funext frame
  by_cases closes : frame.closes loop = true
  · simp [closes, Frame.tends_of_closes closes]
  · simp [closes]

/-- What a small step does to a loop, and which continuations enter it and start from it.  Only a
drop takes away more. -/
inductive EventLoop.Turns (closing : Bool) :
    List Continuation → List Continuation → Option EventLoop → Option EventLoop → Prop where
  | kept (loop : Option EventLoop) : Turns closing [] [] loop loop
  | made : Turns closing [] [] none (some .fresh)
  | queued (loop : EventLoop) (continuation : Continuation) : loop.alive = true →
      Turns closing [continuation] [] (some loop) (some (loop.push continuation))
  | started (continuation : Continuation) (rest : List Continuation) (alive : Bool) :
      Turns closing [] [continuation] (some ⟨continuation :: rest, alive⟩) (some ⟨rest, alive⟩)
  | dropped (continuation : Continuation) (rest : List Continuation) (alive : Bool) :
      closing = true →
        Turns closing [] [] (some ⟨continuation :: rest, alive⟩) (some ⟨rest, alive⟩)
  | closed (queue : List Continuation) (alive : Bool) : closing = true →
      Turns closing [] [] (some ⟨queue, alive⟩) (some ⟨[], false⟩)

namespace EventLoop.Turns

variable {closing : Bool} {queued started : List Continuation} {before after : Option EventLoop}

/-- Where nothing is dropped, what starts, followed by what stays queued, is what was queued,
followed by what enters. -/
theorem law (turns : Turns false queued started before after) :
    started ++ (after.map (·.queue)).getD [] = (before.map (·.queue)).getD [] ++ queued := by
  cases turns with
  | kept _ => simp
  | made => rfl
  | queued _ _ _ => simp [push]
  | started _ _ _ => simp
  | dropped _ _ _ closing | closed _ _ closing => cases closing

/-- Where nothing is dropped, a loop that is alive stays so. -/
theorem alive (turns : Turns false queued started before after)
    (living : ∀ found, before = some found → found.alive = true) :
    ∀ found, after = some found → found.alive = true := by
  rintro found rfl
  cases turns with
  | kept _ => exact living found rfl
  | made => rfl
  | queued former _ _ => exact living former rfl
  | started continuation rest alive => exact living ⟨continuation :: rest, alive⟩ rfl
  | dropped _ _ _ closing | closed _ _ closing => cases closing

/-- A loop that is gone stays so. -/
theorem gone (turns : Turns closing queued started (some ⟨[], false⟩) after) :
    after = some ⟨[], false⟩ := by
  cases turns with
  | kept _ => rfl
  | queued _ _ alive => cases alive
  | closed _ _ _ => rfl

theorem isSome (turns : Turns closing queued started before after)
    (there : before.isSome = true) : after.isSome = true := by
  cases turns <;> first | rfl | exact there

end EventLoop.Turns

/-- A loop is alive, if there is one. -/
def World.Open (world : World) (loop : Nat) : Prop :=
  ∀ found, world.loops.get? loop = some found → found.alive = true

/-- A loop is gone. -/
def World.Gone (world : World) (loop : Nat) : Prop := world.loops.get? loop = some ⟨[], false⟩

namespace State

/-- The continuation that the small step queues on a loop, which accepts it. -/
def queuedOn (loop : Nat) (state : State) : List Continuation :=
  match state.control with
  | .task (.schedule (.loop other) continuation) =>
      if other = loop ∧ state.world.isLoopAlive loop = true then [continuation] else []
  | _ => []

/-- Whether the small step begins the drive of a loop or goes on with one. -/
def drivesOn (state : State) : Bool :=
  match state.control, state.stack with
  | .program (.call request _), _ => request.drivesLoop
  | .reply _, frame :: _ => frame.drives?.isSome
  | _, _ => false

/-- The continuation that the small step starts in the drive of a loop. -/
def startedOn (loop : Nat) (state : State) : List Continuation :=
  match state.drivesOn, state.next.control, state.next.stack with
  | true, .task (.run continuation), frame :: _ =>
      if frame.drives? = some loop then [continuation] else []
  | _, _, _ => []

/-- Whether the small step goes on with the drop of a loop. -/
def closes (loop : Nat) (state : State) : Bool :=
  match state.control, state.stack with
  | .reply _, frame :: _ => frame.closes loop
  | .unwind _, frame :: _ => frame.closes loop
  | _, _ => false

/-- A drive takes the oldest continuation of a loop and runs it on top of some frames, or takes
none. -/
inductive Pulls (world : World) (base : Stack) (after : State) : Prop where
  | nothing : after.world.loops = world.loops →
      (∀ loop, after.stack.closings loop ≤ base.closings loop) →
        (∀ continuation, after.control ≠ .task (.run continuation)) → Pulls world base after
  | oldest {loop : Nat} {continuation : Continuation} {rest : List Continuation} {frame : Frame} :
      world.loopQueue loop = continuation :: rest →
        after.world.loops = world.loops.modify loop (fun found => { found with queue := rest }) →
          after.control = .task (.run continuation) → after.stack = frame :: base →
            frame.drives? = some loop → Pulls world base after

/-- What a small step has to do with loops. -/
inductive Tending : State → Prop where
  | aside {state : State} : state.tendsLoop = false → Tending state
  | drives {state : State} : state.drivesOn = true → Tending state
  | makes {world : World} {stack : Stack} {name : Name} {rest : Reply → Program} :
      Tending ⟨world, stack, .program (.call (.newLoop name) rest)⟩
  | schedules {world : World} {stack : Stack} {loop : Nat} {continuation : Continuation} :
      Tending ⟨world, stack, .task (.schedule (.loop loop) continuation)⟩
  | drops {world : World} {stack : Stack} {loop : Nat} :
      Tending ⟨world, stack, .task (.discard (.loop loop))⟩
  | closes {world : World} {stack : Stack} {loop discarded : Nat} {reply : Reply} :
      Tending ⟨world, .closing loop discarded :: stack, .reply reply⟩
  | breaksOff {world : World} {stack : Stack} {loop discarded : Nat} {payload : Payload} :
      Tending ⟨world, .closing loop discarded :: stack, .unwind payload⟩
  | leaves {world : World} {stack : Stack} {frame : Frame} {loop : Nat} {payload : Payload} :
      frame.drives? = some loop → Tending ⟨world, frame :: stack, .unwind payload⟩

variable {state : State} {world later : World} {stack base : Stack} {after : State} {loop : Nat}
  {name : Name} {reply : Reply} {continuation : Continuation} {payload : Payload} {frame : Frame}

theorem tending (state : State) : state.Tending := by
  by_cases tends : state.tendsLoop = true
  swap
  · exact .aside (Bool.eq_false_iff.mpr tends)
  obtain ⟨world, stack, control⟩ := state
  cases control with
  | program program =>
      cases program with
      | ret _ | panic _ => cases tends
      | call request rest =>
          cases request with
          | newLoop _ => exact .makes
          | turnLoop _ | runLoop _ | runLoopUntil _ _ _ _ => exact .drives rfl
          | _ => cases tends
  | task task =>
      cases task with
      | schedule scheduler _ =>
          cases scheduler with
          | loop _ => exact .schedules
          | _ => cases tends
      | discard owned =>
          cases owned with
          | loop _ => exact .drops
          | _ => cases tends
      | _ => cases tends
  | reply reply =>
      cases stack with
      | nil => cases tends
      | cons frame stack =>
          cases frame with
          | turning _ _ | looping _ _ _ | deciding _ _ | pumping _ => exact .drives rfl
          | closing _ _ => exact .closes
          | _ => cases tends
  | unwind payload =>
      cases stack with
      | nil => cases tends
      | cons frame stack =>
          cases frame with
          | turning _ _ | looping _ _ _ | deciding _ _ | pumping _ => exact .leaves rfl
          | closing _ _ => exact .breaksOff
          | _ => cases tends
  | halted _ => cases tends

/-- A drive has to do with a loop. -/
theorem drivesOn_eq_false (elsewhere : state.tendsLoop = false) : state.drivesOn = false := by
  obtain ⟨world, stack, control⟩ := state
  cases control with
  | program program =>
      cases program with
      | ret _ | panic _ => rfl
      | call request rest => cases request <;> first | rfl | cases elsewhere
  | reply reply =>
      cases stack with
      | nil => rfl
      | cons frame stack => cases frame <;> first | rfl | cases elsewhere
  | task _ | unwind _ | halted _ => rfl

/-- A panic that leaves a drive gives the loop back under a name. -/
theorem unwindingThrough_of_drives (drives : frame.drives? = some loop) :
    ∃ name, ∀ world stack payload, unwindingThrough world stack payload frame =
      parkingUnwound world stack name loop payload := by
  cases frame with
  | turning _ _ | looping _ _ _ | deciding _ _ | pumping _ =>
      cases drives
      exact ⟨_, fun _ _ _ => rfl⟩
  | _ => cases drives

/-! ## Drives -/

theorem refusing_pulls {refusal : Refusal} : Pulls world stack (.refusing world stack refusal) :=
  .nothing rfl (fun _ => Nat.le_refl _) nofun

theorem parking_pulls : Pulls world stack (parking world stack name loop reply) := by
  unfold parking World.restoreLoop
  dsimp only
  split
  · exact .nothing rfl (fun _ => by simp [disposing, Frame.closes]) fun _ => by simp [disposing]
  · exact .nothing rfl (fun _ => Nat.le_refl _) fun _ => by simp [disposing, replying]

theorem deciding_pulls {drive : Drive} {last : Bool} :
    Pulls world stack (deciding world stack drive last) :=
  .nothing rfl (fun _ => by simp [deciding, Frame.closes]) nofun

theorem turning_pulls : Pulls world stack (turning world stack name loop) := by
  unfold turning
  split
  · exact parking_pulls
  · next continuation rest queued => exact .oldest queued rfl rfl rfl rfl

theorem runningNext_pulls {ran : Nat} :
    Pulls world stack (runningNext world stack name loop ran) := by
  unfold runningNext
  split
  · exact parking_pulls
  · next continuation rest queued => exact .oldest queued rfl rfl rfl rfl

theorem pumping_pulls {drive : Drive} : Pulls world stack (pumping world stack drive) := by
  unfold pumping
  split
  · exact deciding_pulls
  · next continuation rest queued => exact .oldest queued rfl rfl rfl rfl

theorem decided_pulls {drive : Drive} {last holds : Bool} :
    Pulls world stack (decided world stack drive last holds) := by
  unfold decided
  split
  · exact parking_pulls
  · split
    · exact deciding_pulls
    · exact pumping_pulls

theorem driving_pulls {drive : World → Nat → State}
    (drives : ∀ later found, Pulls later stack (drive later found)) :
    Pulls world stack (driving world stack name drive) := by
  unfold driving withNamed
  split
  · exact refusing_pulls
  · next found _ =>
      cases drives _ found with
      | nothing loops closings stays => exact .nothing loops closings stays
      | oldest queued loops runs placed drives => exact .oldest queued loops runs placed drives

theorem requesting_pulls {request : Request} (drives : request.drivesLoop = true) :
    Pulls world stack (requesting world stack request) := by
  cases request with
  | turnLoop _ =>
      simp only [requesting]
      exact driving_pulls fun _ _ => turning_pulls
  | runLoop _ =>
      simp only [requesting]
      exact driving_pulls fun _ _ => runningNext_pulls
  | runLoopUntil _ _ _ _ =>
      simp only [requesting]
      exact driving_pulls fun _ _ => deciding_pulls
  | _ => cases drives

/-- Each small step of a drive starts the oldest continuation of a loop, or none. -/
theorem pulls_next (drives : state.drivesOn = true) :
    ∃ new, (∀ loop, Stack.closings loop new = 0) ∧
      Pulls state.world (new ++ state.base) state.next := by
  obtain ⟨world, stack, control⟩ := state
  cases control with
  | program program =>
      cases program with
      | ret _ | panic _ => cases drives
      | call request rest =>
          exact ⟨[.program rest], fun _ => rfl, requesting_pulls drives⟩
  | reply reply =>
      cases stack with
      | nil => cases drives
      | cons frame stack =>
          refine ⟨[], fun _ => rfl, ?_⟩
          cases frame with
          | turning _ _ => exact parking_pulls
          | looping _ _ _ => exact runningNext_pulls
          | deciding _ _ => exact decided_pulls
          | pumping _ => exact deciding_pulls
          | _ => cases drives
  | task _ | unwind _ | halted _ => cases drives

/-- What a small step starts is the oldest continuation of the loop, on top of what waits. -/
theorem started_cases (loop : Nat) (state : State) :
    state.startedOn loop = [] ∨ ∃ continuation rest frame callers,
      state.startedOn loop = [continuation] ∧
      state.world.loopQueue loop = continuation :: rest ∧
      state.next.world.loops =
        state.world.loops.modify loop (fun found => { found with queue := rest }) ∧
      state.next.stack = frame :: (callers ++ state.base) ∧ frame.drives? = some loop := by
  unfold startedOn
  split
  · next continuation top above drives runs placed =>
      split
      · next same =>
          obtain ⟨new, -, pulls⟩ := pulls_next drives
          cases pulls with
          | nothing _ _ stays => exact absurd runs (stays continuation)
          | @oldest other _ rest frame queued loops begins stacked drives =>
              cases runs.symm.trans begins
              obtain ⟨rfl, -⟩ := List.cons.inj (placed.symm.trans stacked)
              cases same.symm.trans drives
              refine .inr ⟨continuation, rest, top, new, rfl, queued, loops, ?_, drives⟩
              exact placed.symm ▸ stacked
      · exact .inl rfl
  · exact .inl rfl

theorem startedOn_eq_nil (idle : state.drivesOn = false) : state.startedOn loop = [] := by
  simp [startedOn, idle]

theorem queuedOn_eq_nil
    (elsewhere : ∀ continuation, state.control ≠ .task (.schedule (.loop loop) continuation)) :
    state.queuedOn loop = [] := by
  unfold queuedOn
  split
  · next other continuation schedules =>
      rw [if_neg]
      rintro ⟨rfl, -⟩
      exact elsewhere continuation schedules
  · rfl

/-! ## Every small step -/

/-- A loop with something queued is there. -/
theorem exists_of_loopQueue {rest : List Continuation}
    (queued : world.loopQueue loop = continuation :: rest) :
    ∃ alive, world.loops.get? loop = some ⟨continuation :: rest, alive⟩ := by
  unfold World.loopQueue at queued
  cases lookup : world.loops.get? loop with
  | none => simp [lookup] at queued
  | some found =>
      obtain ⟨queue, alive⟩ := found
      simp only [lookup, Option.map_some, Option.getD_some] at queued
      exact ⟨alive, by rw [queued]⟩

/-- What a small step of a drive does to a loop. -/
theorem turns_of_drivesOn {closing : Bool} (loop : Nat) (drives : state.drivesOn = true) :
    EventLoop.Turns closing [] (state.startedOn loop) (state.world.loops.get? loop)
      (state.next.world.loops.get? loop) := by
  obtain ⟨new, -, pulls⟩ := pulls_next drives
  cases pulls with
  | nothing loops _ stays =>
      have unstarted : state.startedOn loop = [] := by
        unfold startedOn
        split
        · next runs _ => exact absurd runs (stays _)
        · rfl
      rw [unstarted, loops]
      exact .kept _
  | @oldest other continuation rest frame queued loops runs placed drives' =>
      by_cases same : other = loop
      · subst same
        obtain ⟨alive, lookup⟩ := exists_of_loopQueue queued
        simp only [startedOn, drives, runs, placed, drives', loops, Store.get?_modify, lookup,
          if_true, Option.map_some]
        exact .started continuation rest alive
      · have elsewhere : some other ≠ some loop := fun equal => same (Option.some.inj equal)
        simp only [startedOn, drives, runs, placed, drives', loops, Store.get?_modify, same,
          elsewhere, if_false]
        exact .kept _

/-- What the drop of a loop does to it, when it goes on. -/
theorem turns_of_closingNext {discarded : Nat} :
    EventLoop.Turns true [] [] (world.loops.get? loop)
      ((closingNext world stack loop discarded).world.loops.get? loop) := by
  unfold closingNext
  split
  · next empty =>
      have loops : (if discarded = 0 then world.modifyLoop loop ({ · with alive := false })
          else (world.modifyLoop loop ({ · with alive := false })).record
            (.loopDiscarded discarded)).loops =
          world.loops.modify loop ({ · with alive := false }) := by
        split <;> rfl
      simp only [replying, loops, Store.get?_modify, if_true]
      cases lookup : world.loops.get? loop with
      | none => exact .kept _
      | some found =>
          have nothing : found.queue = [] := by simpa [World.loopQueue, lookup] using empty
          simp only [Option.map_some, nothing]
          exact .closed found.queue found.alive rfl
  · next continuation rest queued =>
      obtain ⟨alive, lookup⟩ := exists_of_loopQueue queued
      simp only [World.modifyLoop, Store.get?_modify, lookup, if_true, Option.map_some]
      exact .dropped continuation rest alive rfl

/-- What a panic that breaks off the drop of a loop does to it. -/
theorem turns_of_closingUnwound (discarded : Nat) :
    EventLoop.Turns true [] [] (world.loops.get? loop)
      ((unwindingThrough world stack payload (.closing loop discarded)).world.loops.get? loop) := by
  have loops : (unwindingThrough world stack payload (.closing loop discarded)).world.loops =
      world.loops.modify loop ({ · with queue := [], alive := false }) := by
    simp only [unwindingThrough, dropping]
    split <;> rfl
  rw [loops, Store.get?_modify, if_pos rfl]
  cases lookup : world.loops.get? loop with
  | none => exact .kept _
  | some found => exact .closed found.queue found.alive rfl

/-- To drop a loop leaves all others alone. -/
theorem closingNext_elsewhere {other discarded : Nat} (elsewhere : other ≠ loop) :
    (closingNext world stack other discarded).world.loops.get? loop = world.loops.get? loop := by
  unfold closingNext
  split
  · dsimp only
    split <;> simp [replying, World.modifyLoop, World.record, elsewhere]
  · simp [World.modifyLoop, elsewhere]

theorem closingUnwound_elsewhere {other discarded : Nat} (elsewhere : other ≠ loop) :
    (unwindingThrough world stack payload (.closing other discarded)).world.loops.get? loop =
      world.loops.get? loop := by
  simp only [unwindingThrough, dropping]
  split <;> simp [World.modifyLoop, elsewhere]

theorem loops_makingLoop : (makingLoop world stack name).world.loops = world.loops.push .fresh := by
  unfold makingLoop World.restoreLoop
  dsimp only
  split <;> rfl

theorem loops_parkingUnwound :
    (parkingUnwound world stack name loop payload).world.loops = world.loops := by
  unfold parkingUnwound World.restoreLoop
  dsimp only
  split <;> rfl

/-- To make a loop leaves all others alone. -/
theorem turns_of_makingLoop {closing : Bool} :
    EventLoop.Turns closing [] [] (world.loops.get? loop)
      ((makingLoop world stack name).world.loops.get? loop) := by
  rw [loops_makingLoop, Store.get?_push]
  by_cases new : loop = world.loops.size
  · have absent : world.loops.get? loop = none := by simp [new, Store.get?, Store.size]
    rw [if_pos new, absent]
    exact .made
  · rw [if_neg new]
    exact .kept _

/-- What a schedule call does to a loop. -/
theorem turns_of_scheduling {closing : Bool} {other : Nat} :
    EventLoop.Turns closing
      (if other = loop ∧ world.isLoopAlive loop = true then [continuation] else []) []
      (world.loops.get? loop)
      ((scheduling world stack (.loop other) continuation).world.loops.get? loop) := by
  simp only [scheduling]
  by_cases same : other = loop
  · subst same
    cases lookup : world.loops.get? other with
    | none => simpa [World.isLoopAlive, lookup] using .kept none
    | some found =>
        by_cases alive : found.alive = true
        · simpa [World.isLoopAlive, lookup, alive, replying, World.modifyLoop] using
            .queued found continuation alive
        · simpa [World.isLoopAlive, lookup, alive] using .kept (some found)
  · rw [if_neg fun both => same both.1]
    split
    · simpa [replying, World.modifyLoop, same] using .kept _
    · exact .kept _

/-- What a small step does to a loop. -/
theorem turns_next (loop : Nat) (state : State) :
    EventLoop.Turns (state.closes loop) (state.queuedOn loop) (state.startedOn loop)
      (state.world.loops.get? loop) (state.next.world.loops.get? loop) := by
  cases state.tending with
  | aside elsewhere =>
      have undriven : state.drivesOn = false := drivesOn_eq_false elsewhere
      have unqueued : state.queuedOn loop = [] := queuedOn_eq_nil fun _ schedules => by
        simp [tendsLoop, schedules, Task.tendsLoop] at elsewhere
      rw [unqueued, startedOn_eq_nil undriven, (next_skirts elsewhere).loops]
      exact .kept _
  | drives drives =>
      have unqueued : state.queuedOn loop = [] :=
        queuedOn_eq_nil fun _ schedules => by simp [drivesOn, schedules] at drives
      rw [unqueued]
      exact turns_of_drivesOn loop drives
  | makes => exact turns_of_makingLoop
  | schedules => exact turns_of_scheduling
  | drops => exact .kept _
  | @closes world stack other discarded reply =>
      by_cases same : other = loop
      · subst same
        simp only [closes, Frame.closes, decide_true]
        exact turns_of_closingNext
      · simp only [next, returning, closingNext_elsewhere same]
        exact .kept _
  | @breaksOff world stack other discarded payload =>
      by_cases same : other = loop
      · subst same
        simp only [closes, Frame.closes, decide_true]
        exact turns_of_closingUnwound discarded
      · simp only [next, closingUnwound_elsewhere same]
        exact .kept _
  | leaves drives =>
      obtain ⟨name, goes⟩ := unwindingThrough_of_drives drives
      simp only [next, goes, loops_parkingUnwound]
      exact .kept _

/-! ## The law of the small step -/

/-- What starts from a loop, followed by what stays queued, is what was queued, followed by what
enters. -/
theorem loopQueue_next (stays : state.closes loop = false) :
    state.startedOn loop ++ state.next.world.loopQueue loop =
      state.world.loopQueue loop ++ state.queuedOn loop :=
  (stays ▸ turns_next loop state).law

/-- A loop stays alive until it is dropped. -/
theorem open_next (stays : state.closes loop = false) (alive : state.world.Open loop) :
    state.next.world.Open loop :=
  (stays ▸ turns_next loop state).alive alive

theorem isSome_next (there : (state.world.loops.get? loop).isSome = true) :
    (state.next.world.loops.get? loop).isSome = true :=
  (turns_next loop state).isSome there

/-- A loop that is gone stays so. -/
theorem gone_next (gone : state.world.Gone loop) : state.next.world.Gone loop :=
  (gone ▸ turns_next loop state).gone

/-! ## Frames that drop loops -/

theorem dropping_closings {owned : List Owned} :
    (dropping world stack owned payload).stack.closings loop = stack.closings loop := by
  cases owned <;> simp [dropping, Frame.closes]

theorem scheduling_closings {scheduler : Scheduler} :
    (scheduling world stack scheduler continuation).stack.closings loop = stack.closings loop := by
  cases scheduler with
  | inline | discard => rfl
  | pool _ | queue _ | loop _ =>
      simp only [scheduling]
      split <;> simp [replying, Frame.closes]

/-- To drop a loop takes no more than the one frame. -/
theorem closingNext_closings {other discarded : Nat} :
    (closingNext world stack other discarded).stack.closings loop ≤
      Stack.closings loop (.closing other discarded :: stack) := by
  unfold closingNext
  split <;> simp [replying, Frame.closes]

theorem makingLoop_closings :
    (makingLoop world stack name).stack.closings loop = stack.closings loop := by
  unfold makingLoop World.restoreLoop
  dsimp only
  split <;> simp [disposing, replying, Frame.closes]

theorem closings_of_drivesOn (loop : Nat) (drives : state.drivesOn = true) :
    state.next.stack.closings loop ≤ state.stack.closings loop := by
  obtain ⟨new, light, pulls⟩ := pulls_next drives
  have beneath : Stack.closings loop (new ++ state.base) ≤ state.stack.closings loop := by
    rw [Stack.closings_append, light, Nat.zero_add]
    rcases base_cases state with same | ⟨frame, placed, -⟩
    · exact Nat.le_of_eq (by rw [same])
    · rw [placed, Stack.closings_cons]
      exact Nat.le_add_right ..
  cases pulls with
  | nothing _ closings _ => exact Nat.le_trans (closings loop) beneath
  | oldest _ _ _ placed drives =>
      rw [placed, Stack.closings_cons, Frame.closes_of_drives drives]
      exact beneath

/-- Only a drop puts one more frame on the stack that drops a loop. -/
theorem closings_next (loop : Nat) (state : State) :
    state.next.stack.closings loop ≤
      state.stack.closings loop + state.control.loops.count loop := by
  cases state.tending with
  | aside elsewhere =>
      rw [← Stack.closings_tending, (next_skirts elsewhere).tending, Stack.closings_tending]
      exact Nat.le_add_right ..
  | drives drives => exact Nat.le_trans (closings_of_drivesOn loop drives) (Nat.le_add_right ..)
  | makes => exact Nat.le_of_eq makingLoop_closings
  | schedules => exact Nat.le_of_eq scheduling_closings
  | drops =>
      rename_i other
      by_cases same : other = loop <;>
        simp [next, carryingOut, discarding, Frame.closes, Control.loops, Owned.loop?, same]
  | closes => exact closingNext_closings
  | breaksOff =>
      refine Nat.le_trans (Nat.le_of_eq dropping_closings) ?_
      simp only [Stack.closings_cons]
      omega
  | leaves drives =>
      obtain ⟨name, goes⟩ := unwindingThrough_of_drives drives
      simp only [next, goes]
      refine Nat.le_trans (Nat.le_of_eq dropping_closings) ?_
      simp only [Stack.closings_cons]
      omega

end State
end Stepwise
