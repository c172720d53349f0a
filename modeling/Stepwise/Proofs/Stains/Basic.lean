import Stepwise.Proofs.Occurrence

/-!
# Stains

A request to cancel a machine leaves a stain: the machine is marked as cancelled, and the
history holds a record more.  To give up a receipt or a handle leaves one too: a name is gone,
and perhaps the machine has an owner less.  To read or to change anything else of a world is the
same with the stain as without it.
-/

namespace Stepwise

/-- What sets a world apart from another: whether a machine is marked as cancelled, how many
owners fewer it has, which receipt and which handle are missing, and what the history holds
besides. -/
structure Stain where
  machine : Nat
  cancelled : Bool
  shares : Nat
  receipt : Option Name
  handle : Option Name
  older : List Event

namespace Stain

/-- The stain of a request to cancel a machine, with what the history held, or none but that. -/
def mark (machine : Nat) (cancelled : Bool) (older : List Event) : Stain :=
  ⟨machine, cancelled, 0, none, none, older⟩

section

variable (machine : Nat) (cancelled : Bool) (older : List Event)

@[simp] theorem mark_machine : (mark machine cancelled older).machine = machine := rfl

@[simp] theorem mark_receipt : (mark machine cancelled older).receipt = none := rfl

@[simp] theorem mark_handle : (mark machine cancelled older).handle = none := rfl

@[simp] theorem mark_older : (mark machine cancelled older).older = older := rfl

end

/-- The stain that is left when a receipt is dropped. -/
def ofReceipt (name : Name) : Stain := ⟨0, false, 0, some name, none, []⟩

/-- The stain that is left when the handle of a machine is dropped. -/
def ofHandle (name : Name) (machine : Nat) : Stain := ⟨machine, false, 1, none, some name, []⟩

/-- Whether there is anything to see of the stain on the machine. -/
def Shows (stain : Stain) : Prop := stain.cancelled = true ∨ stain.shares ≠ 0

/-- A machine with the stain, if the stain is on it. -/
def touch (stain : Stain) (machine : Nat) (activation : Activation) : Activation :=
  if stain.machine = machine then
    { activation with
      cancelled := activation.cancelled || stain.cancelled
      owners := activation.owners - stain.shares }
  else activation

variable (stain : Stain) (machine : Nat) (activation : Activation)

@[simp] theorem status_touch : (stain.touch machine activation).status = activation.status := by
  unfold touch
  split <;> rfl

@[simp] theorem position_touch :
    (stain.touch machine activation).position = activation.position := by
  unfold touch
  split <;> rfl

@[simp] theorem pending_touch : (stain.touch machine activation).pending = activation.pending := by
  unfold touch
  split <;> rfl

@[simp] theorem observer_touch :
    (stain.touch machine activation).observer = activation.observer := by
  unfold touch
  split <;> rfl

@[simp] theorem body_touch : (stain.touch machine activation).body = activation.body := by
  unfold touch
  split <;> rfl

@[simp] theorem scheduler_touch :
    (stain.touch machine activation).scheduler = activation.scheduler := by
  unfold touch
  split <;> rfl

/-- A machine that is not marked is as it was, for who asks whether it is cancelled. -/
theorem cancelled_touch (unmarked : stain.cancelled = true → stain.machine ≠ machine) :
    (stain.touch machine activation).cancelled = activation.cancelled := by
  unfold touch
  split
  · next same =>
      have blank : stain.cancelled = false := Bool.eq_false_iff.mpr fun marked =>
        unmarked marked same
      simp [blank]
  · rfl

/-- The stain of a machine that was marked. -/
theorem touch_true (older : List Event) :
    touch (mark machine true older) machine = ({ · with cancelled := true }) := by
  funext activation
  simp [touch, mark]

/-- The stain of a machine that was not marked is none. -/
theorem touch_false (older : List Event) : touch (mark machine false older) machine = id := by
  funext activation
  simp [touch, mark]

/-- A stain that does not show changes no machine. -/
theorem touch_of_not_shows (blank : ¬ stain.Shows) : stain.touch machine = id := by
  funext activation
  simp only [Shows, not_or, Bool.not_eq_true, ne_eq, Decidable.not_not] at blank
  simp [touch, blank]

/-- No machine gets an owner by a stain. -/
theorem owners_touch_le : (stain.touch machine activation).owners ≤ activation.owners := by
  unfold touch
  split
  · exact Nat.sub_le ..
  · exact Nat.le_refl _

/-- Another machine is as it is. -/
theorem touch_of_ne (other : stain.machine ≠ machine) :
    stain.touch machine activation = activation :=
  if_neg other

end Stain

/-- The second name, if there is one, is not the first. -/
def Apart (lost used : Option Name) : Prop := ∀ name, used = some name → lost ≠ some name

namespace Table

variable {α : Type} {table : Table α} {lost : Option Name} {name : Name} {value : α}

/-- A table with one name less, if there is one to be left out. -/
def without (table : Table α) : Option Name → Table α
  | none => table
  | some name => table.erase name

@[simp] theorem without_none (table : Table α) : table.without none = table := rfl

theorem erase_erase (table : Table α) (name other : Name) :
    (table.erase name).erase other = (table.erase other).erase name := by
  simp only [erase, mk.injEq]
  rw [List.filter_filter, List.filter_filter]
  simp only [Bool.and_comm]

theorem erase_insert {other : Name} (differs : other ≠ name) :
    (table.erase other).insert name value = (table.insert name value).erase other := by
  have kept : ((name, value).1 != other) = true := by
    simpa using fun same : name = other => differs same.symm
  have same : ((table.erase other).insert name value).entries =
      ((table.insert name value).erase other).entries := by
    simp only [insert]
    rw [erase_erase]
    exact (List.filter_cons_of_pos (p := fun entry : Name × α => entry.1 != other) kept).symm
  simpa only [insert, erase, mk.injEq] using same

theorem find?_without (apart : lost ≠ some name) :
    (table.without lost).find? name = table.find? name := by
  cases lost with
  | none => rfl
  | some other => simpa [without] using fun same : other = name => absurd (congrArg some same) apart

theorem without_erase : (table.without lost).erase name = (table.erase name).without lost := by
  cases lost with
  | none => rfl
  | some other => exact erase_erase ..

theorem without_insert (apart : lost ≠ some name) :
    (table.without lost).insert name value = (table.insert name value).without lost := by
  cases lost with
  | none => rfl
  | some other => exact erase_insert fun same => apart (congrArg some same)

end Table

namespace Store

variable {α : Type}

/-- Changes of two values can be made in either order, and so can those of one that do not
interfere. -/
theorem modify_comm (store : Store α) {number other : Nat} {first second : α → α}
    (commute : number = other → ∀ value, second (first value) = first (second value)) :
    (store.modify number first).modify other second =
      (store.modify other second).modify number first := by
  have unchanged : (store.values.modify number first).modify other second =
      (store.values.modify other second).modify number first := by
    apply Array.ext_getElem?
    intro index
    simp only [Array.getElem?_modify]
    split <;> split
    · next here there =>
        rw [Option.map_map, Option.map_map]
        exact congrFun (congrArg _ (funext fun value =>
          commute (there.trans here.symm) value)) _
    · rfl
    · rfl
    · rfl
  simp [modify, unchanged]

/-- What a change does is decided by the value that is there. -/
theorem modify_congr {store : Store α} {number : Nat} {first second : α → α} {value : α}
    (lookup : store.get? number = some value) (same : first value = second value) :
    store.modify number first = store.modify number second := by
  have unchanged : store.values.modify number first = store.values.modify number second := by
    have found : store.values[number]? = some value := lookup
    apply Array.ext_getElem?
    intro index
    simp only [Array.getElem?_modify]
    split
    · next here => simp [← here, found, same]
    · rfl
  simp [modify, unchanged]

/-- A value that is there can be changed before another is added, or afterwards. -/
theorem modify_push (store : Store α) {number : Nat} {change : α → α} {value : α}
    (present : number < store.size) :
    (store.modify number change).push value = (store.push value).modify number change := by
  have unchanged : (store.values.modify number change).push value =
      (store.values.push value).modify number change := by
    apply Array.ext_getElem?
    intro index
    have size : number ≠ store.values.size := Nat.ne_of_lt present
    simp only [Array.getElem?_modify, Array.getElem?_push, Array.size_modify]
    split <;> split <;> simp_all
  simp [modify, push, unchanged]

end Store

namespace World

/-- The world with a stain. -/
def stained (world : World) (stain : Stain) : World :=
  { world with
    activations := world.activations.modify stain.machine (stain.touch stain.machine)
    receipts := world.receipts.without stain.receipt
    handles := world.handles.without stain.handle
    history := world.history ++ stain.older }

variable (world : World) (stain : Stain)

/-! ## What is read -/

@[simp] theorem deferreds_stained : (world.stained stain).deferreds = world.deferreds := rfl

@[simp] theorem pools_stained : (world.stained stain).pools = world.pools := rfl

@[simp] theorem queues_stained : (world.stained stain).queues = world.queues := rfl

@[simp] theorem waiters_stained : (world.stained stain).waiters = world.waiters := rfl

@[simp] theorem thread_stained : (world.stained stain).thread = world.thread := rfl

@[simp] theorem receipts_stained :
    (world.stained stain).receipts = world.receipts.without stain.receipt := rfl

@[simp] theorem handles_stained :
    (world.stained stain).handles = world.handles.without stain.handle := rfl

@[simp] theorem given_stained : (world.stained stain).given = world.given := rfl

@[simp] theorem writers_stained : (world.stained stain).writers = world.writers := rfl

@[simp] theorem runtimes_stained : (world.stained stain).runtimes = world.runtimes := rfl

@[simp] theorem size_activations_stained :
    (world.stained stain).activations.size = world.activations.size :=
  Store.size_modify ..

@[simp] theorem get?_activations_stained (machine : Nat) :
    (world.stained stain).activations.get? machine =
      (world.activations.get? machine).map (stain.touch machine) := by
  simp only [stained, Store.get?_modify]
  split
  · next same => rw [same]
  · next other =>
      cases world.activations.get? machine with
      | none => rfl
      | some found => simp [Stain.touch_of_ne stain machine found other]

@[simp] theorem isComplete_stained (deferred : Nat) :
    (world.stained stain).isComplete deferred = world.isComplete deferred := rfl

@[simp] theorem loopQueue_stained (loop : Nat) :
    (world.stained stain).loopQueue loop = world.loopQueue loop := rfl

@[simp] theorem reaches_stained (target : Target) :
    (world.stained stain).reaches target = world.reaches target := by
  cases target <;> rfl

@[simp] theorem body?_stained (place : Place) :
    (world.stained stain).body? place = world.body? place := by
  cases place with
  | kept number => rfl
  | started machine =>
      simp only [body?, get?_activations_stained, Option.map_map]
      cases world.activations.get? machine with
      | none => rfl
      | some found => simp

@[simp] theorem isFinished_stained (machine : Nat) :
    (world.stained stain).isFinished machine = world.isFinished machine := by
  simp only [isFinished, get?_activations_stained, Option.map_map]
  cases world.activations.get? machine with
  | none => rfl
  | some found => simp [Activation.isFinished]

@[simp] theorem judge_stained (machine : Nat) (reply : Reply) :
    (world.stained stain).judge machine reply = world.judge machine reply := by
  have may (deferred : Nat) :
      (world.stained stain).mayAwait machine deferred = world.mayAwait machine deferred := by
    simp only [mayAwait, given_stained, body?_stained]
  simp only [judge, may]

/-! ## What is changed -/

@[simp] theorem record_stained (record : Record) :
    (world.stained stain).record record = (world.record record).stained stain := rfl

@[simp] theorem modifyWaiter_stained (waiter : Nat) (change : Waiter → Waiter) :
    (world.stained stain).modifyWaiter waiter change =
      (world.modifyWaiter waiter change).stained stain := rfl

theorem putReceipt_stained {name : Name} (deferred : Nat) (raw : Bool)
    (apart : stain.receipt ≠ some name) :
    (world.stained stain).putReceipt name deferred raw =
      (world.putReceipt name deferred raw).stained stain := by
  simp only [putReceipt, stained, Table.without_insert apart]

/-- A handle is given out in the same way with the stain, under a name that is not missing. -/
theorem handles_insert_stained {name : Name} (machine : Nat) (apart : stain.handle ≠ some name) :
    { world.stained stain with
        handles := (world.handles.without stain.handle).insert name machine } =
      ({ world with handles := world.handles.insert name machine } : World).stained stain := by
  simp only [stained, Table.without_insert apart]

/-- A receipt is given up in the same way with the stain. -/
theorem receipts_erase_stained (name : Name) :
    { world.stained stain with receipts := (world.stained stain).receipts.erase name } =
      ({ world with receipts := world.receipts.erase name } : World).stained stain := by
  simp only [stained, Table.without_erase]

/-- A handle is given up in the same way with the stain. -/
theorem handles_erase_stained (name : Name) :
    { world.stained stain with handles := (world.stained stain).handles.erase name } =
      ({ world with handles := world.handles.erase name } : World).stained stain := by
  simp only [stained, Table.without_erase]

@[simp] theorem newDeferred_stained :
    (world.stained stain).newDeferred =
      (world.newDeferred.1.stained stain, world.newDeferred.2) := rfl

@[simp] theorem retrieve_stained (deferred : Nat) :
    (world.stained stain).retrieve deferred =
      ((world.retrieve deferred).1.stained stain, (world.retrieve deferred).2) := by
  simp only [retrieve, deferreds_stained]
  cases world.deferreds.get? deferred <;> rfl

/-- A machine changes in the same way with the stain, if the change does not ask for it. -/
theorem modifyActivation_stained {change : Activation → Activation} (machine : Nat)
    (blind : ∀ activation, change (stain.touch machine activation) =
      stain.touch machine (change activation)) :
    (world.stained stain).modifyActivation machine change =
      (world.modifyActivation machine change).stained stain := by
  have same := @Store.modify_comm _ world.activations stain.machine machine
    (stain.touch stain.machine) change fun here activation => by
      rw [here]
      exact blind activation
  simp only [modifyActivation, stained, same]

/-- Who gives up the last share in a machine without an observer takes nothing along. -/
theorem emptied_of_unobserved {machine : Nat} {found : Activation}
    (lookup : world.activations.get? machine = some found) (unobserved : found.observer = none) :
    (world.modifyActivation machine fun activation =>
        { activation with owners := activation.owners - 1 }).modifyActivation machine
      (fun activation => { activation with observer := none }) =
      world.modifyActivation machine fun activation =>
        { activation with owners := activation.owners - 1 } := by
  simp only [modifyActivation, Store.modify_modify]
  rw [Store.modify_congr lookup]
  simp [unobserved]

@[simp] theorem modifyBody_stained (place : Place) (change : Body → Body) :
    (world.stained stain).modifyBody place change =
      (world.modifyBody place change).stained stain := by
  cases place with
  | kept number => rfl
  | started machine =>
      refine modifyActivation_stained world stain machine fun activation => ?_
      unfold Stain.touch
      split <;> rfl

/-- A machine is started in the same way with the stain. -/
theorem newActivation_stained {body : Body} {scheduler : Scheduler} {observer : Observer}
    (present : stain.Shows → stain.machine < world.activations.size) :
    (world.stained stain).newActivation body scheduler observer =
      ((world.newActivation body scheduler observer).1.stained stain,
        (world.newActivation body scheduler observer).2) := by
  have same : (world.activations.modify stain.machine (stain.touch stain.machine)).push
        (.fresh body scheduler observer) =
      (world.activations.push (.fresh body scheduler observer)).modify stain.machine
        (stain.touch stain.machine) := by
    by_cases shows : stain.Shows
    · exact Store.modify_push _ (present shows)
    · rw [Stain.touch_of_not_shows stain _ shows, Store.modify_id, Store.modify_id]
  simp only [newActivation, stained, same, Store.size_modify]
  rfl

end World

end Stepwise
