import Stepwise.Proofs.Moves
import Stepwise.Proofs.Total

/-!
# Effects of small steps

A small step registers a continuation on one deferred, publishes the outcome of one, takes
the result of one, settles the signal of a blocked thread, or does none of this to any.  Which
it is can be read off what control and the innermost frame are.  Beside that a small step may
put up a batch of continuations to be fired, pass on who may retrieve a result, and go on to
drive a machine.
-/

namespace Stepwise

/-- What a small step does to what deferreds and blocked threads hold. -/
inductive Effect where
  | nothing
  /-- A continuation is registered; on a complete deferred it runs at once instead. -/
  | registers (deferred : Nat) (continuation : Continuation)
  | publishes (deferred : Nat) (outcome : Outcome)
  | retrieves (deferred : Nat)
  /-- A blocked thread is woken, or what would have woken it is lost. -/
  | signals (waiter : Nat) (signal : Signal)

namespace Effect

/-- The continuations of a deferred afterwards. -/
def continuations (deferred : Nat) (found : Deferred) : Effect → List Continuation
  | .registers other continuation =>
      if other = deferred ∧ found.isComplete = false then
        found.continuations ++ [continuation]
      else found.continuations
  | .publishes other _ => if other = deferred then [] else found.continuations
  | _ => found.continuations

/-- How far a deferred has come afterwards. -/
def progress (deferred : Nat) (found : Deferred) : Effect → Progress
  | .publishes other outcome => if other = deferred then .complete outcome else found.progress
  | .retrieves other =>
      if other = deferred then found.afterRetrieval.progress else found.progress
  | _ => found.progress

/-- The signal of a blocked thread afterwards. -/
def signal (waiter : Nat) (found : Waiter) : Effect → Signal
  | .signals other settled => if other = waiter then settled else found.signal
  | _ => found.signal

/-- Deferreds before and after an effect; one may have been added. -/
structure Alters (effect : Effect) (before after : Store Deferred) : Prop where
  kept : ∀ deferred found, before.get? deferred = some found →
    ∃ changed, after.get? deferred = some changed ∧
      changed.continuations = effect.continuations deferred found ∧
      changed.progress = effect.progress deferred found
  fresh : ∀ deferred changed, before.get? deferred = none →
    after.get? deferred = some changed → changed = .fresh

namespace Alters

variable {effect : Effect} {store : Store Deferred} {deferred : Nat}

/-- An effect that leaves every deferred there is as it is. -/
theorem same (inert : ∀ deferred found, store.get? deferred = some found →
    effect.continuations deferred found = found.continuations ∧
      effect.progress deferred found = found.progress) : effect.Alters store store where
  kept := fun deferred found lookup =>
    ⟨found, lookup, (inert deferred found lookup).1.symm, (inert deferred found lookup).2.symm⟩
  fresh := by
    intro deferred changed absent present
    cases absent.symm.trans present

theorem nothing (store : Store Deferred) : Effect.nothing.Alters store store :=
  .same fun _ _ _ => ⟨rfl, rfl⟩

/-- An effect on one deferred, that changes it so. -/
theorem modify {change : Deferred → Deferred}
    (inert : ∀ other found, deferred ≠ other →
      effect.continuations other found = found.continuations ∧
        effect.progress other found = found.progress)
    (here : ∀ found, store.get? deferred = some found →
      (change found).continuations = effect.continuations deferred found ∧
        (change found).progress = effect.progress deferred found) :
    effect.Alters store (store.modify deferred change) where
  kept := by
    intro other found lookup
    by_cases same : deferred = other
    · subst same
      exact ⟨change found, by simp [lookup], here found lookup⟩
    · obtain ⟨continuations, progress⟩ := inert other found same
      exact ⟨found, by simp [same, lookup], continuations.symm, progress.symm⟩
  fresh := by
    intro other changed absent present
    simp [absent] at present

/-- The waker or its lock changes. -/
theorem retouched (deferred : Nat) {change : Deferred → Deferred}
    (continuations : ∀ found, (change found).continuations = found.continuations)
    (progress : ∀ found, (change found).progress = found.progress) :
    Effect.nothing.Alters store (store.modify deferred change) :=
  .modify (fun _ _ _ => ⟨rfl, rfl⟩) fun found _ => ⟨continuations found, progress found⟩

theorem push (store : Store Deferred) : Effect.nothing.Alters store (store.push .fresh) where
  kept := by
    intro deferred found lookup
    have older : deferred ≠ store.size := by
      rintro rfl
      simp [Store.get?, Store.size] at lookup
    exact ⟨found, by simp [older, lookup], rfl, rfl⟩
  fresh := by
    intro deferred changed absent present
    rw [Store.get?_push] at present
    split at present
    · exact (Option.some.inj present).symm
    · cases absent.symm.trans present

theorem published (outcome : Outcome) :
    (Effect.publishes deferred outcome).Alters store
      (store.modify deferred (·.publish outcome)) :=
  .modify (fun _ _ other => by simp [Effect.continuations, Effect.progress, other])
    fun _ _ => by simp [Effect.continuations, Effect.progress, Deferred.publish]

theorem registered {continuation : Continuation}
    (pending : ∀ found, store.get? deferred = some found → found.isComplete = false) :
    (Effect.registers deferred continuation).Alters store
      (store.modify deferred (·.register continuation)) :=
  .modify (fun _ _ other => by simp [Effect.continuations, Effect.progress, other])
    fun found lookup => by
      simp [Effect.continuations, Effect.progress, Deferred.register, pending found lookup]

/-- What is registered on a complete deferred is not kept. -/
theorem unregistered {continuation : Continuation}
    (complete : ∀ found, store.get? deferred = some found → found.isComplete = true) :
    (Effect.registers deferred continuation).Alters store store := by
  refine .same fun other found lookup => ⟨?_, rfl⟩
  simp only [Effect.continuations]
  rw [if_neg]
  rintro ⟨rfl, pending⟩
  rw [complete found lookup] at pending
  cases pending

theorem retrieved {world : World} (deferred : Nat) :
    (Effect.retrieves deferred).Alters world.deferreds (world.retrieve deferred).1.deferreds := by
  unfold World.retrieve
  split
  · next absent =>
      refine .same fun other found lookup => ⟨rfl, ?_⟩
      have different : deferred ≠ other := by
        rintro rfl
        cases absent.symm.trans lookup
      simp [Effect.progress, different]
  · refine .modify (fun _ _ other => by simp [Effect.continuations, Effect.progress, other]) ?_
    intro found _
    refine ⟨?_, by simp [Effect.progress]⟩
    simp only [Deferred.afterRetrieval, Effect.continuations]
    split <;> rfl

end Alters

/-- Blocked threads before and after an effect; one may have been added, or have dropped the
machine that it ran. -/
def Rouses (effect : Effect) (before after : Store Waiter) : Prop :=
  ∀ waiter found, before.get? waiter = some found →
    ∃ changed, after.get? waiter = some changed ∧ changed.deferred = found.deferred ∧
      changed.signal = effect.signal waiter found ∧
      (changed.run = found.run ∨ changed.run = none)

namespace Rouses

variable {effect : Effect} {store later : Store Waiter}

/-- An effect that is none on blocked threads. -/
theorem same (inert : ∀ waiter found, effect.signal waiter found = found.signal) :
    effect.Rouses store store :=
  fun waiter found lookup => ⟨found, lookup, rfl, (inert waiter found).symm, .inl rfl⟩

/-- What happens to blocked threads happens to those that were there before. -/
theorem of_push {added : Waiter} (rouses : effect.Rouses (store.push added) later) :
    effect.Rouses store later := by
  intro waiter found lookup
  have older : waiter ≠ store.size := by
    rintro rfl
    simp [Store.get?, Store.size] at lookup
  exact rouses waiter found (by simp [older, lookup])

/-- A blocked thread changes. -/
theorem modify {waiter : Nat} {change : Waiter → Waiter}
    (elsewhere : ∀ other found, other ≠ waiter → effect.signal other found = found.signal)
    (signal : ∀ found, (change found).signal = effect.signal waiter found)
    (awaited : ∀ found, (change found).deferred = found.deferred)
    (run : ∀ found, (change found).run = found.run ∨ (change found).run = none) :
    effect.Rouses store (store.modify waiter change) := by
  intro other found lookup
  by_cases same : waiter = other
  · subst same
    exact ⟨change found, by simp [lookup], awaited found, signal found, run found⟩
  · exact ⟨found, by simp [same, lookup], rfl, (elsewhere other found (Ne.symm same)).symm,
      .inl rfl⟩

end Rouses

end Effect

/-- The effect of running a continuation, or of dropping it: the signal that it settles so. -/
def Continuation.settles (signal : Signal) : Continuation → Effect
  | .signal waiter => .signals waiter signal
  | _ => .nothing

/-- The effect of dropping something. -/
def Owned.settles : Owned → Effect
  | .continuation dropped => dropped.settles .lost
  | _ => .nothing

/-! ## Who may retrieve a result -/

/-- How many receipts and blocked threads there are for a deferred. -/
def World.reads (world : World) (deferred : Nat) : Nat :=
  world.receipts.total (fun receipt => if receipt.deferred = deferred then 1 else 0) +
    world.waiters.total fun waiter => if waiter.deferred = deferred then 1 else 0

/-- The deferred that a frame is about to give out a receipt for, or to block a thread on. -/
def Frame.reads (deferred : Nat) : Frame → Bool
  | .placing _ _ other => other == deferred
  | .blocking _ _ other => other == deferred
  | _ => false

/-- How many frames are about to give out a receipt for a deferred, or to block on it. -/
def Stack.reads (stack : Stack) (deferred : Nat) : Nat := stack.countP (Frame.reads deferred)

/-- How many can retrieve the result of a deferred, now or later. -/
def State.reads (state : State) (deferred : Nat) : Nat :=
  state.world.reads deferred + state.stack.reads deferred

/-- One for a deferred that is in a later world only. -/
def World.adds (world later : World) (deferred : Nat) : Nat :=
  if (world.deferreds.get? deferred).isNone && (later.deferreds.get? deferred).isSome then 1
  else 0

/-! ## Batches on the stack -/

/-- The batch that a frame fires. -/
def Frame.batch? : Frame → Option (Nat × List Continuation)
  | .firing deferred rest => some (deferred, rest)
  | _ => none

/-- The batches that are being fired, innermost first. -/
def Stack.batches (stack : Stack) : List (Nat × List Continuation) :=
  stack.filterMap Frame.batch?

/-- Whether a frame is no batch, and gives nobody the means to retrieve a result. -/
def Frame.isInert : Frame → Bool
  | .firing _ _ => false
  | .placing _ _ _ => false
  | .blocking _ _ _ => false
  | _ => true

/-- Whether a task has a machine called or its observer told. -/
def Task.drives : Task → Bool
  | .advance _ => true
  | .finish _ _ => true
  | _ => false

/-- Whether the library has no machine to drive next. -/
def Control.isIdle : Control → Bool
  | .task underWay => !underWay.drives
  | _ => true

@[simp] theorem Stack.reads_cons (frame : Frame) (stack : Stack) (deferred : Nat) :
    Stack.reads (frame :: stack) deferred =
      stack.reads deferred + if frame.reads deferred then 1 else 0 := by
  simp [Stack.reads, List.countP_cons]

@[simp] theorem Stack.batches_append (stack more : Stack) :
    Stack.batches (stack ++ more) = stack.batches ++ more.batches :=
  List.filterMap_append

theorem Stack.reads_append (new stack : Stack) (deferred : Nat) :
    Stack.reads (new ++ stack) deferred = Stack.reads new deferred + stack.reads deferred :=
  List.countP_append

theorem Stack.reads_of_inert {new : Stack} (inert : new.all Frame.isInert = true)
    (deferred : Nat) : Stack.reads new deferred = 0 := by
  refine List.countP_eq_zero.mpr fun frame member => ?_
  have alone := List.all_eq_true.mp inert frame member
  cases frame with
  | placing _ _ _ | blocking _ _ _ => cases alone
  | _ => simp [Frame.reads]

theorem Stack.batches_of_inert {new : Stack} (inert : new.all Frame.isInert = true) :
    Stack.batches new = [] := by
  refine List.filterMap_eq_nil_iff.mpr fun frame member => ?_
  have alone := List.all_eq_true.mp inert frame member
  cases frame with
  | firing _ _ => cases alone
  | _ => rfl

namespace State

/-! ## Effects above what waits -/

/-- A small step has an effect, above the frames it leaves alone.  It may go on to drive a
machine only so. -/
structure Affects (effect : Effect) (may : Task → Prop) (world : World) (base : Stack)
    (after : State) : Prop where
  deferreds : effect.Alters world.deferreds after.world.deferreds
  rouses : effect.Rouses world.waiters after.world.waiters
  batches : after.stack.batches = base.batches
  reads : ∀ deferred, after.reads deferred ≤
    world.reads deferred + base.reads deferred + world.adds after.world deferred
  drives : ∀ task, after.control = .task task → task.drives = true → may task

variable {effect : Effect} {may : Task → Prop} {world later : World} {stack base : Stack}
  {after : State}

namespace Affects

/-- The usual case: receipts and blocked threads stay as they are, or do not matter, and no
machine is driven next. -/
theorem inert (deferreds : effect.Alters world.deferreds after.world.deferreds)
    (rouses : effect.Rouses world.waiters after.world.waiters)
    (reads : ∀ deferred, after.world.reads deferred ≤ world.reads deferred)
    (stack : ∃ new, after.stack = new ++ base ∧ new.all Frame.isInert = true)
    (idle : after.control.isIdle = true) : Affects effect may world base after where
  deferreds := deferreds
  rouses := rouses
  batches := by
    obtain ⟨new, placed, plain⟩ := stack
    rw [placed, Stack.batches_append, Stack.batches_of_inert plain, List.nil_append]
  reads := by
    obtain ⟨new, placed, plain⟩ := stack
    intro deferred
    have same := reads deferred
    rw [State.reads, placed, Stack.reads_append, Stack.reads_of_inert plain]
    omega
  drives := by
    intro task goesOn drives
    simp [goesOn, Control.isIdle, drives] at idle

/-- Nothing that matters here changes. -/
theorem plain (deferreds : after.world.deferreds = world.deferreds)
    (receipts : after.world.receipts = world.receipts)
    (waiters : after.world.waiters = world.waiters)
    (stack : ∃ new, after.stack = new ++ base ∧ new.all Frame.isInert = true)
    (idle : after.control.isIdle = true) : Affects .nothing may world base after := by
  refine .inert ?_ ?_ ?_ stack idle
  · rw [deferreds]
    exact .nothing _
  · rw [waiters]
    exact .same fun _ _ => rfl
  · intro deferred
    exact Nat.le_of_eq (by rw [World.reads, World.reads, receipts, waiters])

/-- A deferred is added, and one more may read it. -/
theorem added (deferreds : after.world.deferreds = world.deferreds.push .fresh)
    (waiters : after.world.waiters = world.waiters)
    (batches : after.stack.batches = base.batches)
    (reads : ∀ deferred, after.reads deferred ≤ world.reads deferred + base.reads deferred +
      if world.deferreds.size = deferred then 1 else 0)
    (idle : after.control.isIdle = true) : Affects .nothing may world base after where
  deferreds := by
    rw [deferreds]
    exact .push _
  rouses := by
    rw [waiters]
    exact .same fun _ _ => rfl
  batches := batches
  reads := by
    intro deferred
    refine Nat.le_trans (reads deferred) (Nat.add_le_add_left ?_ _)
    split
    · next here =>
        subst here
        have absent : world.deferreds.get? world.deferreds.size = none := by
          simp [Store.get?, Store.size]
        simp [World.adds, absent, deferreds]
    · exact Nat.zero_le _
  drives := by
    intro task goesOn drives
    simp [goesOn, Control.isIdle, drives] at idle

/-- What is so above inert frames is so beneath them. -/
theorem above (new : Stack) (plain : new.all Frame.isInert = true)
    (affects : Affects effect may world (new ++ base) after) :
    Affects effect may world base after where
  deferreds := affects.deferreds
  rouses := affects.rouses
  batches := by
    rw [affects.batches, Stack.batches_append, Stack.batches_of_inert plain, List.nil_append]
  reads := by
    intro deferred
    have bound := affects.reads deferred
    rwa [Stack.reads_append, Stack.reads_of_inert plain, Nat.zero_add] at bound
  drives := affects.drives

/-- What is so in another world is so in this one, when its deferreds are the same and no
more may read them. -/
theorem of_world (affects : Affects effect may later base after)
    (deferreds : later.deferreds = world.deferreds)
    (rouses : effect.Rouses world.waiters after.world.waiters)
    (reads : ∀ deferred, later.reads deferred ≤ world.reads deferred) :
    Affects effect may world base after where
  deferreds := by
    rw [← deferreds]
    exact affects.deferreds
  rouses := rouses
  batches := affects.batches
  reads := by
    intro deferred
    have bound := affects.reads deferred
    have fewer := reads deferred
    rw [World.adds, deferreds] at bound
    rw [World.adds]
    omega
  drives := affects.drives

/-- So it is when receipts and blocked threads are the same. -/
theorem beyond (affects : Affects effect may later base after)
    (deferreds : later.deferreds = world.deferreds) (receipts : later.receipts = world.receipts)
    (waiters : later.waiters = world.waiters) : Affects effect may world base after :=
  affects.of_world deferreds (waiters ▸ affects.rouses) fun _ =>
    Nat.le_of_eq (by rw [World.reads, World.reads, receipts, waiters])

end Affects

end State

end Stepwise
