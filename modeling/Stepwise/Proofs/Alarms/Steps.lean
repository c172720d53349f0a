import Stepwise.Proofs.Concerns.Steps

/-!
# How small steps treat alarms

A small step makes a waker, sets an alarm, rings one, or lets go of the lock that the ringing
holds; or it leaves alarms and wakers alone.  Which it is can be read off what control and the
innermost frame are, and is said here once for all small steps.
-/

namespace Stepwise

/-- The alarm when a poll has stored a waker. -/
def Alarm.set (alarm : Alarm) (waker : Waker) : Alarm :=
  match alarm.waker with
  | some current =>
      if current.identity = waker.identity then alarm else { alarm with waker := some waker }
  | none => { alarm with waker := some waker }

theorem Deferred.alarm_keepWaker (found : Deferred) (waker : Waker) :
    (found.keepWaker waker).alarm = found.alarm.set waker := by
  unfold keepWaker Alarm.set
  cases kept : found.waker with
  | none => simp [alarm, kept]
  | some current =>
      simp only [alarm, kept]
      split <;> simp [kept]

/-- No task is about alarms. -/
theorem Task.concern?_ne_alarms (task : Task) : task.concern? ≠ some .alarms := by
  intro about
  cases task with
  | run continuation => cases continuation <;> cases about
  | discard owned =>
      cases owned with
      | continuation dropped => cases dropped <;> cases about
      | _ => cases about
  | schedule scheduler _ => cases scheduler <;> cases about
  | _ => cases about

namespace State

variable {world : World} {stack base : Stack} {after : State} {state : State}

/-! ## What is not about alarms -/

/-- What ignores alarms disturbs nobody. -/
theorem Ignores.undisturbed (ignores : Ignores .alarms world base after) :
    Undisturbed world base after := by
  injection ignores.sight with alarms wakers fresh
  obtain ⟨new, placed, others⟩ := ignores.exists_above
  refine .plain alarms wakers fresh fun deferred => ?_
  rw [placed, Stack.ringing_append_of_silent]
  intro frame member deferred poisons waking
  exact others frame member (by rw [waking]; rfl)

/-- A frame that is passed wakes nobody, if the small step is not about alarms. -/
theorem ringing_base (elsewhere : state.concern? ≠ some .alarms) (deferred : Nat) :
    state.base.ringing deferred = state.stack.ringing deferred := by
  obtain ⟨world, stack, control⟩ := state
  have silent {frame : Frame} {below : Stack} (other : frame.concern? ≠ some .alarms) :
      Stack.ringing deferred below = Stack.ringing deferred (frame :: below) :=
    (Stack.ringing_of_silent fun _ _ waking => other (by rw [waking]; rfl)).symm
  cases control with
  | program _ | task _ | halted _ => rfl
  | reply reply =>
      cases stack with
      | nil => rfl
      | cons frame below =>
          exact silent fun about => elsewhere (Frame.concernOfReply?_of_concern? about)
  | unwind payload =>
      cases stack with
      | nil => rfl
      | cons frame below => exact silent elsewhere

/-! ## Polls and batches that are through -/

/-- A poll of a deferred that is there disturbs nobody, unless it is answered pending; then the
deferred is pending, its lock is free, and the waker is stored. -/
theorem polling_cases {deferred : Nat} {found : Deferred} (waker : Waker)
    (lookup : world.deferreds.get? deferred = some found) :
    (Undisturbed world stack (polling world stack deferred waker) ∧
      (polling world stack deferred waker).control ≠ .reply .notYet) ∨
    found.lock = .free ∧ found.isComplete = false ∧
      polling world stack deferred waker =
        .replying (world.modifyDeferred deferred (·.keepWaker waker)) stack .notYet := by
  simp only [polling, lookup]
  cases free : found.lock with
  | held => exact .inl ⟨.plain rfl rfl rfl fun _ => rfl, fun same => by cases same⟩
  | poisoned => exact .inl ⟨.plain rfl rfl rfl fun _ => rfl, fun same => by cases same⟩
  | free =>
      cases complete : found.isComplete with
      | true =>
          refine .inl ⟨Ignores.undisturbed ?_, fun same => by cases same⟩
          exact replying_ignores.beyond World.sight_retrieve
      | false => exact .inr ⟨rfl, rfl, rfl⟩

/-- When a batch is through, nobody is disturbed, unless the lock is free and a waker is kept. -/
theorem awakening_cases (world : World) (stack : Stack) (deferred : Nat) :
    (Undisturbed world stack (awakening world stack deferred) ∧
      ((world.alarm deferred).lock = .free → (world.alarm deferred).waker = none)) ∨
    ∃ waker, world.alarm deferred = ⟨some waker, .free⟩ ∧
      awakening world stack deferred =
        ⟨world.modifyDeferred deferred fun found => { found with waker := none, lock := .held },
          .waking deferred (!stack.isPanicking) :: stack, .program waker.body⟩ := by
  unfold awakening
  cases lookup : world.deferreds.get? deferred with
  | none =>
      exact .inl ⟨replying_ignores.undisturbed,
        fun _ => by simp [World.alarm, lookup, Alarm.unset]⟩
  | some found =>
      simp only [World.alarm_of_get? lookup, Deferred.alarm]
      cases lock : found.lock with
      | held => exact .inl ⟨.plain rfl rfl rfl fun _ => rfl, fun same => by cases same⟩
      | poisoned => exact .inl ⟨.plain rfl rfl rfl fun _ => rfl, fun same => by cases same⟩
      | free =>
          cases kept : found.waker with
          | none => exact .inl ⟨replying_ignores.undisturbed, fun _ => rfl⟩
          | some waker => exact .inr ⟨waker, rfl, rfl⟩

/-! ## All small steps -/

/-- The waker of a poll of a deferred that is answered pending. -/
def pended? (deferred : Nat) (state : State) : Option Waker :=
  match state.control, state.next.control with
  | .program (.call (.poll receipt name) _), .reply .notYet =>
      if state.world.awaiter? receipt = some deferred then state.world.wakers.find? name else none
  | _, _ => none

/-- The waker of a deferred that a small step begins to wake. -/
def woken? (deferred : Nat) (state : State) : Option Waker :=
  if state.stack.ringing deferred < state.next.stack.ringing deferred then
    (state.world.alarm deferred).waker
  else none

/-- How a small step treats alarms and wakers. -/
inductive Treats (state : State) : Prop where
  /-- It leaves them alone. -/
  | spares : Undisturbed state.world state.stack state.next →
      (∀ deferred, state.pended? deferred = none) → Treats state
  /-- A waker is made. -/
  | makes {name : Name} {body : Program} {rest : Reply → Program} :
      state.control = .program (.call (.newWaker name body) rest) → Treats state
  /-- A poll is answered pending, and its waker is stored. -/
  | sets {receipt name : Name} {rest : Reply → Program} {deferred : Nat} {waker : Waker} :
      state.control = .program (.call (.poll receipt name) rest) →
        state.world.awaiter? receipt = some deferred →
        state.world.wakers.find? name = some waker →
        (state.world.alarm deferred).lock = .free →
        state.world.isComplete deferred = false →
        state.next = .replying (state.world.modifyDeferred deferred (·.keepWaker waker))
          (.program rest :: state.stack) .notYet → Treats state
  /-- A batch is through, and the waker is woken under the lock. -/
  | rings {deferred : Nat} {below : Stack} {reply : Reply} {waker : Waker} :
      state.stack = .firing deferred [] :: below → state.control = .reply reply →
        state.world.alarm deferred = ⟨some waker, .free⟩ →
        state.next = ⟨state.world.modifyDeferred deferred fun found =>
            { found with waker := none, lock := .held },
          .waking deferred (!below.isPanicking) :: below, .program waker.body⟩ → Treats state
  /-- The waker has returned. -/
  | returns {deferred : Nat} {poisons : Bool} {below : Stack} {reply : Reply} :
      state.stack = .waking deferred poisons :: below → state.control = .reply reply →
        Treats state
  /-- The waker has panicked. -/
  | panics {deferred : Nat} {poisons : Bool} {below : Stack} {payload : Payload} :
      state.stack = .waking deferred poisons :: below → state.control = .unwind payload →
        Treats state

/-- Only a poll that is answered pending has its waker stored. -/
theorem pended?_of_answer {state : State} {deferred : Nat}
    (answered : state.next.control ≠ .reply .notYet) : state.pended? deferred = none := by
  unfold pended?
  split
  · next pends => exact absurd pends answered
  · rfl

theorem pended?_of_control {state : State} {deferred : Nat}
    (unpolled : ∀ receipt name rest, state.control ≠ .program (.call (.poll receipt name) rest)) :
    state.pended? deferred = none := by
  unfold pended?
  split
  · next polls _ => exact absurd polls (unpolled _ _ _)
  · rfl

/-- What disturbs nobody above a frame that wakes nobody. -/
theorem Treats.of_undisturbed {state : State} {base : Stack}
    (undisturbed : Undisturbed state.world base state.next)
    (silent : ∀ deferred, base.ringing deferred = state.stack.ringing deferred)
    (unpended : ∀ deferred, state.pended? deferred = none) : state.Treats :=
  .spares (undisturbed.above silent) unpended

end State

/-- A poll of a receipt that can be awaited is carried out, if there is the waker. -/
theorem State.next_of_poll {state : State} {receipt name : Name} {rest : Reply → Program}
    {deferred : Nat} (polls : state.control = .program (.call (.poll receipt name) rest))
    (may : state.world.awaiter? receipt = some deferred) :
    state.next = match state.world.wakers.find? name with
      | none => .refusing state.world (.program rest :: state.stack) (.noSuch name.text)
      | some waker => .polling state.world (.program rest :: state.stack) deferred waker := by
  obtain ⟨world, stack, control⟩ := state
  subst polls
  simp only [next, requesting, withNamed]
  cases world.wakers.find? name with
  | none => rfl
  | some waker => exact World.withAwaiter_of_awaiter may

variable {trace : List Occurrence} {state : State}

namespace Reaches

open State

/-- A poll treats alarms and wakers in one of these ways. -/
theorem treats_of_poll {receipt name : Name} {rest : Reply → Program}
    (reaches : Reaches trace state)
    (polls : state.control = .program (.call (.poll receipt name) rest)) : state.Treats := by
  have custody := reaches.inOrder.custody (by simp [polls])
  obtain ⟨world, stack, control⟩ := state
  subst polls
  have quiet {after : State}
      (goesOn : State.next ⟨world, stack, .program (.call (.poll receipt name) rest)⟩ = after)
      (undisturbed : Undisturbed world (.program rest :: stack) after)
      (answered : after.control ≠ .reply .notYet) :
      Treats ⟨world, stack, .program (.call (.poll receipt name) rest)⟩ := by
    subst goesOn
    exact .of_undisturbed undisturbed (fun _ => rfl) fun _ => pended?_of_answer answered
  cases may : world.awaiter? receipt with
  | none =>
      cases kept : world.wakers.find? name with
      | none =>
          refine quiet ?_ (@refusing_ignores .alarms _ _ (.noSuch name.text)).undisturbed
            (by simp [refusing])
          simp [State.next, requesting, withNamed, kept]
      | some waker =>
          obtain ⟨refusal, refused⟩ := @withAwaiter_of_none world (.program rest :: stack) receipt
            (fun deferred => .polling world (.program rest :: stack) deferred waker) may
          refine quiet ?_ (@refusing_ignores .alarms _ _ refusal).undisturbed (by simp [refusing])
          simpa [State.next, requesting, withNamed, kept] using refused
  | some deferred =>
      have goesOn := @next_of_poll ⟨world, stack, .program (.call (.poll receipt name) rest)⟩ _ _
        _ _ rfl may
      cases kept : world.wakers.find? name with
      | none =>
          rw [kept] at goesOn
          exact quiet goesOn refusing_ignores.undisturbed (by simp [refusing])
      | some waker =>
          rw [kept] at goesOn
          obtain ⟨given, held, rfl⟩ := World.exists_of_awaiter may
          obtain ⟨found, lookup⟩ :=
            Option.isSome_iff_exists.mp (custody.receipts receipt given held).1
          rcases polling_cases waker lookup with ⟨undisturbed, answered⟩ | ⟨free, pending, stored⟩
          · exact quiet goesOn undisturbed answered
          · exact .sets rfl may kept (by rw [World.alarm_of_get? lookup]; exact free)
              (by rw [World.isComplete_of_get? lookup]; exact pending) (goesOn.trans stored)

/-- Every small step treats alarms and wakers in one of these ways. -/
theorem treats (reaches : Reaches trace state) : state.Treats := by
  by_cases polls : ∃ receipt name rest, state.control = .program (.call (.poll receipt name) rest)
  · obtain ⟨receipt, name, rest, polls⟩ := polls
    exact reaches.treats_of_poll polls
  simp only [not_exists] at polls
  have quiet {base : Stack} (undisturbed : Undisturbed state.world base state.next)
      (silent : ∀ deferred, base.ringing deferred = state.stack.ringing deferred) : state.Treats :=
    .of_undisturbed undisturbed silent fun _ => pended?_of_control polls
  by_cases about : state.concern? = some .alarms
  case neg => exact quiet (next_ignores about).undisturbed (ringing_base about)
  obtain ⟨world, stack, control⟩ := state
  cases control with
  | task task => exact absurd about task.concern?_ne_alarms
  | halted reason => cases about
  | program program =>
      cases program with
      | ret _ | panic _ => cases about
      | call request rest =>
          cases request with
          | newWaker name body => exact .makes rfl
          | poll receipt name => exact absurd rfl (polls receipt name rest)
          | newRegion => exact quiet ⟨rfl, rfl, Nat.le_succ _, fun _ => rfl⟩ fun _ => rfl
          | _ => cases about
  | reply reply =>
      cases stack with
      | nil => cases about
      | cons frame below =>
          cases frame with
          | waking deferred poisons => exact .returns rfl rfl
          | firing deferred rest =>
              cases rest with
              | cons first rest => cases about
              | nil =>
                  rcases awakening_cases world below deferred with
                    ⟨undisturbed, -⟩ | ⟨waker, kept, rings⟩
                  · exact quiet undisturbed fun _ => rfl
                  · exact .rings rfl rfl kept rings
          | _ => cases about
  | unwind payload =>
      cases stack with
      | nil => cases about
      | cons frame below =>
          cases frame with
          | waking deferred poisons => exact .panics rfl rfl
          | _ => cases about

end Reaches

end Stepwise
