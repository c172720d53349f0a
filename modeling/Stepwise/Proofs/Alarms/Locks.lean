import Stepwise.Proofs.Alarms.Steps

/-!
# The lock on a waker

The lock on the waker of a deferred is held exactly while the waker is woken, and it is
poisoned exactly when a waker has panicked under it that was not woken by a panic already on
its way.
-/

namespace Stepwise

variable {trace : List Occurrence} {world : World} {stack : Stack} {state : State}
  {past : List State} {deferred other : Nat} {waker : Waker}

/-! ## Changes of an alarm -/

namespace World

/-- A change of a deferred that is there changes its alarm, and no other. -/
theorem alarm_modify_of_present {change : Deferred → Deferred} {adjust : Alarm → Alarm}
    (adjusts : ∀ found, (change found).alarm = adjust found.alarm)
    (present : (world.deferreds.get? deferred).isSome = true) :
    (world.modifyDeferred deferred change).alarm other =
      if deferred = other then adjust (world.alarm deferred) else world.alarm other := by
  obtain ⟨found, lookup⟩ := Option.isSome_iff_exists.mp present
  rw [alarm_modifyDeferred, lookup, Option.map_some, Option.getD_some, adjusts,
    alarm_of_get? lookup]

theorem present_of_alarm (set : world.alarm deferred ≠ .unset) :
    (world.deferreds.get? deferred).isSome = true := by
  cases lookup : world.deferreds.get? deferred with
  | some _ => rfl
  | none => exact absurd (by simp [alarm, lookup]) set

/-- A deferred that is not complete is there. -/
theorem present_of_incomplete (incomplete : world.isComplete deferred = false) :
    (world.deferreds.get? deferred).isSome = true := by
  cases lookup : world.deferreds.get? deferred with
  | some _ => rfl
  | none => simp [isComplete, lookup] at incomplete

theorem alarm_stored (incomplete : world.isComplete deferred = false) (waker : Waker) :
    (world.modifyDeferred deferred (·.keepWaker waker)).alarm other =
      if deferred = other then (world.alarm deferred).set waker else world.alarm other :=
  @alarm_modify_of_present _ _ _ _ (fun alarm => alarm.set waker)
    (fun found => found.alarm_keepWaker waker) (present_of_incomplete incomplete)

theorem alarm_taken (kept : world.alarm deferred = ⟨some waker, .free⟩) :
    (world.modifyDeferred deferred fun found =>
        { found with waker := none, lock := .held }).alarm other =
      if deferred = other then ⟨none, .held⟩ else world.alarm other :=
  @alarm_modify_of_present _ _ _ _ (fun _ => ⟨none, .held⟩) (fun _ => rfl)
    (present_of_alarm (by simp [kept, Alarm.unset]))

theorem alarm_relocked (held : (world.alarm deferred).lock = .held) (lock : WakerLock) :
    (world.modifyDeferred deferred fun found => { found with lock := lock }).alarm other =
      if deferred = other then ⟨(world.alarm deferred).waker, lock⟩ else world.alarm other :=
  @alarm_modify_of_present _ _ _ _ (fun alarm => ⟨alarm.waker, lock⟩) (fun _ => rfl)
    (present_of_alarm fun unset => by simp [unset, Alarm.unset] at held)

end World

@[simp] theorem Alarm.lock_set (alarm : Alarm) (waker : Waker) :
    (alarm.set waker).lock = alarm.lock := by
  unfold set
  split
  · split <;> rfl
  · rfl

/-! ## The alarm of one deferred -/

namespace State

/-- What a small step does to the alarm of one deferred. -/
inductive Tends (state : State) (deferred : Nat) : Prop where
  | spares : state.next.world.alarm deferred = state.world.alarm deferred →
      state.next.stack.ringing deferred = state.stack.ringing deferred →
      state.pended? deferred = none → Tends state deferred
  | sets {waker : Waker} : state.pended? deferred = some waker →
      (state.world.alarm deferred).lock = .free → state.world.isComplete deferred = false →
      state.next.world.alarm deferred = (state.world.alarm deferred).set waker →
      state.next.stack.ringing deferred = state.stack.ringing deferred → Tends state deferred
  | rings {waker : Waker} {below : Stack} {reply : Reply} :
      state.stack = .firing deferred [] :: below → state.control = .reply reply →
      state.world.alarm deferred = ⟨some waker, .free⟩ →
      state.next.world.alarm deferred = ⟨none, .held⟩ →
      state.next.stack = .waking deferred (!below.isPanicking) :: below →
      state.next.control = .program waker.body → Tends state deferred
  /-- The waker has returned or panicked, and the lock is let go. -/
  | ends {poisons : Bool} {below : Stack} {lock : WakerLock} :
      state.stack = .waking deferred poisons :: below →
      ((∃ reply, state.control = .reply reply) ∧ lock = .free ∨
        (∃ payload, state.control = .unwind payload) ∧
          lock = if poisons then .poisoned else .free) →
      state.next.world = state.world.modifyDeferred deferred (fun found =>
        { found with lock := lock }) → state.next.stack = below → Tends state deferred

/-- What happens to the alarm of another deferred is nothing to this one. -/
theorem Tends.of_other {change : Deferred → Deferred} (different : other ≠ deferred)
    (changed : state.next.world = state.world.modifyDeferred other change)
    (ringing : state.next.stack.ringing deferred = state.stack.ringing deferred)
    (unpended : state.pended? deferred = none) : state.Tends deferred :=
  .spares (by rw [changed, World.alarm_modifyDeferred, if_neg different]) ringing unpended

theorem Treats.tends (treats : state.Treats) (deferred : Nat) : state.Tends deferred := by
  have unpolled (quiet : ∀ program, state.control ≠ .program program) :
      state.pended? deferred = none := pended?_of_control fun _ _ _ => quiet _
  cases treats with
  | spares undisturbed unpended =>
      exact .spares (by rw [undisturbed.alarms]) (undisturbed.ringing deferred)
        (unpended deferred)
  | makes calls =>
      refine .spares ?_ ?_ (pended?_of_control (by simp [calls]))
      all_goals
        obtain ⟨world, stack, control⟩ := state
        subst calls
        rfl
  | @sets receipt name rest other waker polls may kept free incomplete stored =>
      have pends : state.pended? deferred = if other = deferred then some waker else none := by
        simp [pended?, polls, stored, replying, may, kept]
      by_cases same : other = deferred
      · subst same
        refine .sets (by simpa using pends) free incomplete ?_
          (by simp [stored, replying, Frame.rings])
        rw [stored, replying, World.alarm_stored incomplete, if_pos rfl]
      · exact .of_other same (by rw [stored, replying])
          (by simp [stored, replying, Frame.rings]) (by rw [pends, if_neg same])
  | @rings other below reply waker placed replies kept rings =>
      by_cases same : other = deferred
      · subst same
        refine .rings placed replies kept ?_ (by rw [rings]) (by rw [rings])
        rw [rings, World.alarm_taken kept, if_pos rfl]
      · exact .of_other same (by rw [rings]) (by simp [rings, placed, Frame.rings, same])
          (unpolled (by simp [replies]))
  | @returns other poisons below reply placed replies =>
      have goesOn : state.next = .replying (state.world.modifyDeferred other fun found =>
          { found with lock := .free }) below .done := by
        obtain ⟨world, stack, control⟩ := state
        subst placed replies
        rfl
      by_cases same : other = deferred
      · subst same
        exact .ends placed (.inl ⟨⟨reply, replies⟩, rfl⟩) (by rw [goesOn, replying])
          (by rw [goesOn, replying])
      · exact .of_other same (by rw [goesOn, replying])
          (by simp [goesOn, replying, placed, Frame.rings, same]) (unpolled (by simp [replies]))
  | @panics other poisons below payload placed unwinds =>
      have goesOn : state.next = ⟨state.world.modifyDeferred other fun found =>
          { found with lock := if poisons then .poisoned else .free }, below,
          .unwind payload⟩ := by
        obtain ⟨world, stack, control⟩ := state
        subst placed unwinds
        rfl
      by_cases same : other = deferred
      · subst same
        exact .ends placed (.inr ⟨⟨payload, unwinds⟩, rfl⟩) (by rw [goesOn]) (by rw [goesOn])
      · exact .of_other same (by rw [goesOn]) (by simp [goesOn, placed, Frame.rings, same])
          (unpolled (by simp [unwinds]))

/-- Nobody is woken where the stack wakes nobody new. -/
theorem woken?_of_le
    (fewer : state.next.stack.ringing deferred ≤ state.stack.ringing deferred) :
    state.woken? deferred = none :=
  if_neg (Nat.not_lt.mpr fewer)

end State

/-! ## Who holds the lock -/

/-- A panic passes a waker, and poisons the lock that it is woken under. -/
def State.Spoils (state : State) (deferred : Nat) : Prop :=
  ∃ below payload, state.stack = .waking deferred true :: below ∧
    state.control = .unwind payload

/-- The waker that a panic passes is no longer woken. -/
theorem State.Spoils.fewer (spoils : state.Spoils deferred) :
    state.next.stack.ringing deferred < state.stack.ringing deferred := by
  obtain ⟨below, payload, placed, unwinds⟩ := spoils
  obtain ⟨world, stack, control⟩ := state
  subst placed unwinds
  simp [State.next, State.unwindingThrough, Frame.rings]

/-- A panic poisons the lock of a waker only while the waker is woken. -/
theorem State.not_spoils_of_silent (silent : state.stack.ringing deferred = 0) :
    ¬ state.Spoils deferred := by
  intro spoils
  have fewer := spoils.fewer
  rw [silent] at fewer
  exact Nat.not_lt_zero _ fewer

/-- The lock is held while the waker is woken, once at a time, and it is poisoned by a panic
of a waker. -/
structure Latched (past : List State) (deferred : Nat) (state : State) : Prop where
  held : state.stack.ringing deferred =
    if (state.world.alarm deferred).lock = .held then 1 else 0
  poisoned : (state.world.alarm deferred).lock = .poisoned ↔
    ∃ visited ∈ past, visited.Spoils deferred

namespace Latched

/-- Nobody holds the lock of a waker that is not being woken. -/
theorem not_held (latched : Latched past deferred state)
    (silent : state.stack.ringing deferred = 0) :
    (state.world.alarm deferred).lock ≠ .held := by
  intro held
  have once := latched.held
  rw [silent, if_pos held] at once
  cases once

/-- What is neither held nor poisoned is free. -/
theorem free (latched : Latched past deferred state)
    (unspoiled : ∀ visited ∈ past, ¬ visited.Spoils deferred)
    (silent : state.stack.ringing deferred = 0) :
    (state.world.alarm deferred).lock = .free := by
  cases lock : (state.world.alarm deferred).lock with
  | free => rfl
  | held => exact absurd lock (latched.not_held silent)
  | poisoned =>
      obtain ⟨visited, member, spoils⟩ := latched.poisoned.mp lock
      exact absurd spoils (unspoiled visited member)

/-- The lock is held under a waker that is being woken. -/
theorem held_of_waking {poisons : Bool} {below : Stack} (latched : Latched past deferred state)
    (placed : state.stack = .waking deferred poisons :: below) :
    (state.world.alarm deferred).lock = .held ∧ below.ringing deferred = 0 := by
  have once := latched.held
  rw [placed, Stack.ringing_cons] at once
  simp only [Frame.rings, beq_self_eq_true, if_true] at once
  split at once
  · next held => exact ⟨held, by omega⟩
  · omega

/-- A small step that changes neither the lock nor who holds it. -/
theorem keep {after : State} (latched : Latched past deferred state)
    (lock : (after.world.alarm deferred).lock = (state.world.alarm deferred).lock)
    (ringing : after.stack.ringing deferred = state.stack.ringing deferred)
    (unspoiled : ¬ state.Spoils deferred) : Latched (past ++ [state]) deferred after where
  held := by rw [ringing, lock, latched.held]
  poisoned := by
    rw [lock, latched.poisoned]
    simp [or_and_right, exists_or, unspoiled]

/-- The lock is taken or let go. -/
theorem change {after : State} {lock : WakerLock} (latched : Latched past deferred state)
    (unpoisoned : (state.world.alarm deferred).lock ≠ .poisoned)
    (changed : (after.world.alarm deferred).lock = lock)
    (ringing : after.stack.ringing deferred = if lock = .held then 1 else 0)
    (poisons : lock = .poisoned ↔ state.Spoils deferred) :
    Latched (past ++ [state]) deferred after where
  held := by rw [changed, ringing]
  poisoned := by
    rw [Ne, latched.poisoned] at unpoisoned
    rw [changed, poisons]
    simp only [List.mem_append, List.mem_singleton, or_and_right, exists_or, exists_eq_left]
    exact ⟨.inr, fun either => either.resolve_left unpoisoned⟩

/-- The lock is held exactly while the waker is woken, after each small step. -/
theorem next (latched : Latched past deferred state) (tends : state.Tends deferred) :
    Latched (past ++ [state]) deferred state.next := by
  cases tends with
  | spares alarm ringing _ =>
      exact latched.keep (by rw [alarm]) ringing fun spoils => by
        have fewer := spoils.fewer
        omega
  | sets _ _ _ stored ringing =>
      exact latched.keep (by rw [stored, Alarm.lock_set]) ringing fun spoils => by
        have fewer := spoils.fewer
        omega
  | rings placed replies kept taken rings _ =>
      have unheld := latched.held
      simp only [placed, kept, Stack.ringing_cons, Frame.rings, reduceCtorEq, if_false] at unheld
      refine @change _ _ _ _ .held latched (by simp [kept]) (by rw [taken]) ?_ ?_
      · simp only [rings, Stack.ringing_cons, Frame.rings, beq_self_eq_true, if_true]
        omega
      · simp [State.Spoils, placed]
  | @ends poisons below lock placed how changed back =>
      obtain ⟨held, nobody⟩ := latched.held_of_waking placed
      refine @change _ _ _ _ lock latched (by simp [held]) ?_ ?_ ?_
      · rw [changed, World.alarm_relocked held, if_pos rfl]
      · rw [back, nobody, if_neg]
        rcases how with ⟨-, rfl⟩ | ⟨-, rfl⟩
        · simp
        · cases poisons <;> simp
      · rcases how with ⟨⟨reply, replies⟩, rfl⟩ | ⟨⟨payload, unwinds⟩, rfl⟩
        · simp [State.Spoils, replies]
        · cases poisons <;> simp [State.Spoils, placed, unwinds]

end Latched

/-- In every run the lock on a waker is held exactly while the waker is woken. -/
theorem Passes.latched (passes : Passes past state) (deferred : Nat) :
    Latched past deferred state := by
  induction passes with
  | begin program =>
      exact ⟨rfl, by simp [State.ofProgram, World.initial, World.alarm, Alarm.unset]⟩
  | next passes ih => exact ih.next (passes.reaches.treats.tends deferred)
  | again program _ ended ih =>
      refine ⟨?_, ih.poisoned⟩
      have held := ih.held
      rwa [ended.1] at held

end Stepwise
