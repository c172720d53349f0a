import Stepwise.Proofs.Effects.Steps

/-!
# Alarms

The alarm of a deferred is the waker that is kept there, and the lock on it.  Polls set it,
and when the batch of the deferred is through, the waker is woken under the lock.  Whatever
else the library does leaves every alarm as it is, and the wakers that user code has.
-/

namespace Stepwise

/-- The waker kept at a deferred, and the lock on it. -/
structure Alarm where
  waker : Option Waker
  lock : WakerLock

/-- The alarm of a deferred that was never polled. -/
def Alarm.unset : Alarm := ⟨none, .free⟩

def Deferred.alarm (deferred : Deferred) : Alarm := ⟨deferred.waker, deferred.lock⟩

/-- The alarm of a deferred; it is unset before the deferred is there. -/
def World.alarm (world : World) (deferred : Nat) : Alarm :=
  ((world.deferreds.get? deferred).map (·.alarm)).getD .unset

/-- Whether a frame wakes the waker of a deferred. -/
def Frame.rings (deferred : Nat) : Frame → Bool
  | .waking other _ => other == deferred
  | _ => false

/-- How often the waker of a deferred is being woken on a stack. -/
def Stack.ringing (deferred : Nat) (stack : Stack) : Nat := stack.countP (Frame.rings deferred)

@[simp] theorem Stack.ringing_cons (deferred : Nat) (frame : Frame) (stack : Stack) :
    Stack.ringing deferred (frame :: stack) =
      stack.ringing deferred + if frame.rings deferred then 1 else 0 := by
  simp [Stack.ringing, List.countP_cons]

theorem Stack.ringing_of_silent {frame : Frame} {stack : Stack} {deferred : Nat}
    (silent : ∀ deferred poisons, frame ≠ .waking deferred poisons) :
    Stack.ringing deferred (frame :: stack) = stack.ringing deferred := by
  cases frame with
  | waking other poisons => exact absurd rfl (silent other poisons)
  | _ => rfl

theorem Stack.ringing_append_of_silent {new base : Stack} {deferred : Nat}
    (silent : ∀ frame ∈ new, ∀ deferred poisons, frame ≠ .waking deferred poisons) :
    Stack.ringing deferred (new ++ base) = base.ringing deferred := by
  induction new with
  | nil => rfl
  | cons frame rest ih =>
      rw [List.cons_append, ringing_of_silent (silent frame (by simp))]
      exact ih fun other member => silent other (List.mem_cons_of_mem _ member)

namespace World

variable {world later : World} {deferred : Nat}

theorem alarm_of_get? {found : Deferred} (lookup : world.deferreds.get? deferred = some found) :
    world.alarm deferred = found.alarm := by
  simp [alarm, lookup]

/-- A change to one deferred changes its alarm as said, and no other. -/
theorem alarm_modifyDeferred (world : World) (deferred other : Nat)
    (change : Deferred → Deferred) :
    (world.modifyDeferred deferred change).alarm other =
      if deferred = other then
        ((world.deferreds.get? deferred).map fun found => (change found).alarm).getD .unset
      else world.alarm other := by
  by_cases same : deferred = other
  · subst same
    simp [alarm, modifyDeferred, Function.comp_def]
  · simp [alarm, modifyDeferred, same]

/-- A change that is none to the waker or the lock changes no alarm. -/
theorem alarm_modify_of_same (deferred : Nat) {change : Deferred → Deferred}
    (same : ∀ found, (change found).alarm = found.alarm) :
    (world.modifyDeferred deferred change).alarm = world.alarm := by
  funext other
  rw [alarm_modifyDeferred]
  split
  · next here => simp [alarm, same, ← here]
  · rfl

/-- A fresh deferred has no alarm set. -/
theorem alarm_of_push (added : later.deferreds = world.deferreds.push .fresh) :
    later.alarm = world.alarm := by
  funext deferred
  simp only [alarm, added, Store.get?_push]
  split
  · next new =>
      have absent : world.deferreds.get? deferred = none := by
        simp [new, Store.get?, Store.size]
      simp [absent, Deferred.fresh, Deferred.alarm, Alarm.unset]
  · rfl

end World

namespace State

/-- What happens above the frames that are left alone disturbs no alarm and no waker. -/
structure Undisturbed (world : World) (base : Stack) (after : State) : Prop where
  alarms : after.world.alarm = world.alarm
  wakers : after.world.wakers = world.wakers
  /-- No number of a waker is given out again. -/
  fresh : world.fresh ≤ after.world.fresh
  ringing : ∀ deferred, after.stack.ringing deferred = base.ringing deferred

variable {world later : World} {stack base : Stack} {after : State}

namespace Undisturbed

/-- The usual case: nothing is numbered. -/
theorem plain (alarms : after.world.alarm = world.alarm)
    (wakers : after.world.wakers = world.wakers) (fresh : after.world.fresh = world.fresh)
    (ringing : ∀ deferred, after.stack.ringing deferred = base.ringing deferred) :
    Undisturbed world base after :=
  ⟨alarms, wakers, Nat.le_of_eq fresh.symm, ringing⟩

/-- The frames put up before wake nobody. -/
theorem above (undisturbed : Undisturbed world stack after)
    (silent : ∀ deferred, stack.ringing deferred = base.ringing deferred) :
    Undisturbed world base after :=
  ⟨undisturbed.alarms, undisturbed.wakers, undisturbed.fresh,
    fun deferred => (undisturbed.ringing deferred).trans (silent deferred)⟩

end Undisturbed

end State

end Stepwise
