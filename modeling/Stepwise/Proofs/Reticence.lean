import Stepwise.Proofs.Concerns.Steps
import Stepwise.Proofs.Waits

/-!
# Who is told of a deferred

User code knows a deferred once it has been given a receipt for it.  A small step gives out
a receipt only for a deferred that it adds, that there is a receipt for, or that a call has
promised one for; and a thread begins to run a machine, or blocks while it does, only where
that is what the small step is about.
-/

namespace Stepwise

variable {state after : State} {world later : World} {stack base : Stack} {deferred : Nat}
  {grants : Nat → Prop}

/-- Whether a thread is about to block at a frame. -/
def Frame.isBlocking : Frame → Bool
  | .blocking _ _ _ => true
  | _ => false

/-- A thread that runs a machine is blocked on a deferred. -/
def World.IsRunOn (world : World) (deferred : Nat) : Prop :=
  ∃ waiter found, world.waiters.get? waiter = some found ∧ found.deferred = deferred ∧
    found.run.isSome = true

/-! ## Whom a small step tells of a deferred -/

/-- A small step has no thread block, and gives out receipts only where it may. -/
structure State.Reticent (grants : Nat → Prop) (world : World) (base : Stack) (after : State) :
    Prop where
  given : ∀ deferred ∈ after.world.given, deferred ∈ world.given ∨ grants deferred
  runs : ∀ deferred, after.world.IsRunOn deferred → world.IsRunOn deferred
  stack : ∃ new, after.stack = new ++ base ∧ new.any Frame.isBlocking = false

/-- A small step may give out a receipt for a deferred: a fresh one, one that there is a receipt
for, or one that a call has promised a receipt for. -/
inductive State.Grants (state : State) (deferred : Nat) : Prop where
  | fresh : deferred = state.world.deferreds.size → Grants state deferred
  | again {name : Name} {found : Receipt} :
      state.world.receipts.find? name = some found → found.deferred = deferred →
        Grants state deferred
  | placed {name : Name} {raw : Bool} {callers : Stack} :
      state.stack = .placing name raw deferred :: callers → Grants state deferred

namespace State

namespace Reticent

/-- Neither receipts nor blocked threads are touched. -/
theorem plain (given : after.world.given = world.given)
    (waiters : after.world.waiters = world.waiters)
    (stack : ∃ new, after.stack = new ++ base ∧ new.any Frame.isBlocking = false) :
    Reticent grants world base after where
  given := fun _ member => .inl (given ▸ member)
  runs := by
    rintro deferred ⟨waiter, found, lookup, run⟩
    exact ⟨waiter, found, waiters ▸ lookup, run⟩
  stack := stack

/-- What holds from a world on holds from one with the same receipts and blocked threads. -/
theorem beyond (reticent : Reticent grants later base after)
    (given : later.given = world.given) (waiters : later.waiters = world.waiters) :
    Reticent grants world base after where
  given := fun deferred member => given ▸ reticent.given deferred member
  runs := by
    intro deferred run
    obtain ⟨waiter, found, lookup, run⟩ := reticent.runs deferred run
    exact ⟨waiter, found, waiters ▸ lookup, run⟩
  stack := reticent.stack

/-- What is so above frames where no thread blocks is so beneath them. -/
theorem above (new : Stack) (quiet : new.any Frame.isBlocking = false)
    (reticent : Reticent grants world (new ++ base) after) :
    Reticent grants world base after where
  given := reticent.given
  runs := reticent.runs
  stack := by
    obtain ⟨higher, placed, silent⟩ := reticent.stack
    exact ⟨higher ++ new, by rw [placed, List.append_assoc], by simp [silent, quiet]⟩

/-- A receipt is given out before where one may be. -/
theorem granted {name : Name} {raw : Bool}
    (reticent : Reticent grants (world.putReceipt name deferred raw) base after)
    (grant : grants deferred) : Reticent grants world base after where
  given := by
    intro other member
    rcases reticent.given other member with given | may
    · rcases List.mem_cons.mp given with rfl | was
      · exact .inr grant
      · exact .inl was
    · exact .inr may
  runs := reticent.runs
  stack := reticent.stack

/-- The signal of a blocked thread changes before, or it drops the machine that it ran. -/
theorem settled {waiter : Nat} {change : Waiter → Waiter}
    (reticent : Reticent grants (world.modifyWaiter waiter change) base after)
    (awaited : ∀ found, (change found).deferred = found.deferred)
    (run : ∀ found, (change found).run.isSome = true → found.run.isSome = true) :
    Reticent grants world base after where
  given := reticent.given
  runs := by
    intro deferred later
    obtain ⟨other, found, lookup, same, runs⟩ := reticent.runs deferred later
    simp only [World.modifyWaiter, Store.get?_modify] at lookup
    split at lookup
    · obtain ⟨was, present, rfl⟩ := Option.map_eq_some_iff.mp lookup
      exact ⟨other, was, present, (awaited was).symm.trans same, run was runs⟩
    · exact ⟨other, found, lookup, same, runs⟩
  stack := reticent.stack

/-- A thread blocks before that runs no machine. -/
theorem blocked (reticent : Reticent grants (world.block deferred none) base after) :
    Reticent grants world base after where
  given := reticent.given
  runs := by
    intro other later
    obtain ⟨waiter, found, lookup, same, run⟩ := reticent.runs other later
    rw [World.block, Store.get?_push] at lookup
    split at lookup
    · cases lookup
      cases run
    · exact ⟨waiter, found, lookup, same, run⟩
  stack := reticent.stack

end Reticent

/-- What ignores receipts and blocked threads tells nobody. -/
theorem Ignores.reticent (ignores : Ignores .receipts world base after) :
    Reticent grants world base after := by
  injection ignores.sight with given waiters
  obtain ⟨new, placed, others⟩ := ignores.exists_above
  refine .plain given waiters ⟨new, placed, List.any_eq_false.mpr fun frame member blocks => ?_⟩
  cases frame with
  | blocking _ _ _ => exact others _ member rfl
  | _ => cases blocks

/-! ### What is about receipts or blocked threads -/

theorem signalled_reticent {waiter : Nat} (signal : Signal) :
    Reticent grants world stack
      (.replying (world.modifyWaiter waiter fun found => { found with signal := signal })
        stack .done) :=
  replying_ignores.reticent.settled (fun _ => rfl) fun _ run => run

theorem collecting_reticent {waiter : Nat} :
    Reticent grants world stack (collecting world stack waiter) := by
  unfold collecting
  split
  · exact replying_ignores.reticent
  · simp only
    split
    · exact replying_ignores.reticent
    · exact disposing_ignores.reticent.settled (fun _ => rfl) fun _ run => nomatch run
    · exact (disposing_ignores.beyond World.sight_retrieve).reticent.settled (fun _ => rfl)
        fun _ run => nomatch run

theorem waiting_reticent : Reticent grants world stack (waiting world stack deferred none) := by
  have registered : Ignores .receipts (world.block deferred none) stack
      (waiting world stack deferred none) :=
    registering_ignores.above [.answering (.reference world.waiters.size)] rfl
  exact registered.reticent.blocked

/-- A request tells nobody of a deferred but where it gives out a receipt, unless a machine is run
on a thread of its own. -/
theorem requesting_reticent {request : Request}
    (unrun : ∀ thread runtime form, request ≠ .run thread runtime form)
    (fresh : grants world.deferreds.size)
    (again : ∀ name found, world.receipts.find? name = some found → grants found.deferred) :
    Reticent grants world stack (requesting world stack request) := by
  by_cases about : request.concern? = some .receipts
  case neg => exact (requesting_ignores about).reticent
  cases request with
  | run thread runtime form => exact absurd rfl (unrun thread runtime form)
  | pending receipt raw writer =>
      have added : Reticent grants
          (world.newDeferred.1.putReceipt receipt world.deferreds.size raw) stack
          (makingPending world stack receipt raw writer) :=
        disposing_ignores.reticent.beyond rfl rfl
      exact (added.granted fresh).beyond rfl rfl
  | toAwaiter receipt =>
      simp only [requesting, withReceipt]
      split
      · exact refusing_ignores.reticent
      · next found kept =>
          split
          · exact replying_ignores.reticent.granted (again receipt found kept)
          · exact refusing_ignores.reticent
  | startAwaitable handle form scheduler receipt early =>
      cases early with
      | true =>
          have started := @starting_ignores .receipts
            (world.newDeferred.1.putReceipt receipt world.deferreds.size false) stack form scheduler
            (.writer world.deferreds.size) (.starting handle) fun _ other => by cases other
          exact (started.reticent.granted fresh).beyond rfl rfl
      | false =>
          exact .plain rfl rfl ⟨[.starting handle world.activations.size,
            .placing receipt false world.deferreds.size], rfl, rfl⟩
  | wait _ =>
      simp only [requesting, withAwaiter, withReceipt]
      split
      · exact refusing_ignores.reticent
      · split
        · exact refusing_ignores.reticent
        · exact waiting_reticent.beyond rfl rfl
  | collect _ => exact collecting_reticent
  | _ => cases about

/-- A small step has no thread block, and gives out receipts only where it may, unless a machine is
run on a thread of its own, or the thread blocks. -/
theorem next_reticent
    (unrun : ∀ thread runtime form rest,
      state.control ≠ .program (.call (.run thread runtime form) rest))
    (unblocked : ∀ reply, state.control = .reply reply →
      state.stack.head?.any Frame.isBlocking = false) :
    Reticent state.Grants state.world state.base state.next := by
  by_cases about : state.concern? = some .receipts
  case neg => exact (next_ignores about).reticent
  obtain ⟨world, stack, control⟩ := state
  cases control with
  | program program =>
      cases program with
      | ret _ | panic _ => cases about
      | call request rest =>
          refine Reticent.above [.program rest] rfl (requesting_reticent ?_ (.fresh rfl) ?_)
          · rintro thread runtime form rfl
            exact unrun thread runtime form rest rfl
          · exact fun name found kept => .again kept rfl
  | task task =>
      cases task with
      | run continuation =>
          cases continuation with
          | signal waiter => exact signalled_reticent .woken
          | _ => cases about
      | discard owned =>
          cases owned with
          | continuation dropped =>
              cases dropped with
              | signal waiter => exact signalled_reticent .lost
              | _ => cases about
          | _ => cases about
      | schedule scheduler _ => cases scheduler <;> cases about
      | _ => cases about
  | reply reply =>
      cases stack with
      | nil => cases about
      | cons frame callers =>
          cases frame with
          | placing name raw deferred =>
              exact replying_ignores.reticent.granted (.placed rfl)
          | blocking _ _ _ => cases unblocked reply rfl
          | firing _ rest => cases rest <;> cases about
          | _ => cases about
  | unwind payload =>
      cases stack with
      | nil => cases about
      | cons frame callers =>
          cases frame with
          | blocking machine _ _ =>
              exact .plain rfl rfl ⟨[.unwinding [.activation machine] payload], rfl, rfl⟩
          | _ => cases about
  | halted reason => cases about

end State

end Stepwise
