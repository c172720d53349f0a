import Stepwise.Proofs.Chronicle
import Stepwise.Proofs.Total

/-!
# Who holds what

Some things exist once and are passed on from owner to owner: the resumption of
a suspended machine, the claim of the resumption under way, shares in a machine,
the writer of a deferred, the wake-up of a blocked thread.  Each of them is held
by the world, by a frame, or by the task in control, and can be counted.

What is held must also be held rightly: a resumption may only be where its
machine, its deferred and its scheduler say, and a writer must agree with how far
the work of its deferred has come.
-/

namespace Stepwise

/-- Something that exists once and is passed on from owner to owner. -/
inductive Asset where
  /-- What will resume a suspended machine, or abandon it. -/
  | resumption (machine : Nat)
  /-- The exclusive use of a machine by the resumption under way. -/
  | claim (machine : Nat)
  /-- Any other share in a machine. -/
  | share (machine : Nat)
  | writer (deferred : Nat)
  | signal (waiter : Nat)
  deriving DecidableEq

/-- Where a continuation is. -/
inductive Site where
  /-- Registered on a deferred. -/
  | registered (deferred : Nat)
  /-- In a batch of a completed deferred, waiting for its turn. -/
  | fired (deferred : Nat)
  /-- On its way to a scheduler. -/
  | sent (scheduler : Scheduler)
  /-- In the keeping of a scheduler. -/
  | queued (scheduler : Scheduler)
  /-- About to be run or dropped. -/
  | loose

/-- What a call in progress holds. -/
inductive Holding where
  | continuation (site : Site) (continuation : Continuation)
  | writer (deferred : Nat)
  /-- An outcome about to be published. -/
  | publication (deferred : Nat) (outcome : Outcome)
  /-- A work under way, with the writer of its deferred. -/
  | working (deferred : Nat)
  | resuming (machine : Nat)
  | advancing (machine : Nat)
  | stepping (machine : Nat)
  | finishing (machine : Nat) (outcome : Outcome)
  | share (machine : Nat)
  | receipt (deferred : Nat)
  /-- The word of a machine under way to complete a deferred with its outcome. -/
  | promise (machine deferred : Nat)

/-! ## Assets -/

/-- What a continuation stands for. -/
def Continuation.assets : Continuation → List Asset
  | .callback _ => []
  | .handOver _ machine => [.resumption machine]
  | .resumption machine => [.resumption machine]
  | .job deferred _ => [.writer deferred]
  | .signal waiter => [.signal waiter]

/-- What an observer stands for. -/
def Observer.assets : Observer → List Asset
  | .callback _ => []
  | .writer deferred => [.writer deferred]

/-- What a holding stands for. -/
def Holding.assets : Holding → List Asset
  | .continuation _ carried => carried.assets
  | .writer deferred => [.writer deferred]
  | .publication deferred _ => [.writer deferred]
  | .working deferred => [.writer deferred]
  | .resuming machine => [.resumption machine]
  | .advancing machine => [.claim machine]
  | .stepping machine => [.claim machine]
  | .finishing machine _ => [.claim machine]
  | .share machine => [.share machine]
  | .receipt _ => []
  | .promise _ _ => []

/-- How much of an asset a list of continuations stands for. -/
def Continuation.amount (asset : Asset) (continuations : List Continuation) : Nat :=
  (continuations.flatMap assets).count asset

/-- How much of an asset a list of holdings stands for. -/
def Holding.amount (asset : Asset) (held : List Holding) : Nat :=
  (held.flatMap assets).count asset

namespace Continuation

@[simp] theorem amount_nil (asset : Asset) : amount asset [] = 0 := rfl

@[simp] theorem amount_cons (asset : Asset) (head : Continuation)
    (rest : List Continuation) :
    amount asset (head :: rest) = head.assets.count asset + amount asset rest := by
  simp [amount]

@[simp] theorem amount_append (asset : Asset) (left right : List Continuation) :
    amount asset (left ++ right) = amount asset left + amount asset right := by
  simp [amount]

theorem amount_pos_of_mem {asset : Asset} {continuation : Continuation}
    {continuations : List Continuation} (member : continuation ∈ continuations)
    (carried : asset ∈ continuation.assets) : 0 < amount asset continuations :=
  List.count_pos_iff.mpr (List.mem_flatMap.mpr ⟨continuation, member, carried⟩)

variable {continuation : Continuation} {machine deferred waiter : Nat}

/-- A resumption is carried by a continuation that resumes its machine, or has it resumed. -/
theorem cases_of_resumption (carried : .resumption machine ∈ continuation.assets) :
    (∃ scheduler, continuation = .handOver scheduler machine) ∨
      continuation = .resumption machine := by
  cases continuation with
  | callback _ => cases carried
  | job _ _ | signal _ => cases List.mem_singleton.mp carried
  | handOver scheduler _ =>
      cases List.mem_singleton.mp carried
      exact .inl ⟨scheduler, rfl⟩
  | resumption _ =>
      cases List.mem_singleton.mp carried
      exact .inr rfl

/-- The only continuation that carries a writer is a job. -/
theorem eq_job_of_writer (carried : .writer deferred ∈ continuation.assets) :
    ∃ work, continuation = .job deferred work := by
  cases continuation with
  | callback _ => cases carried
  | handOver _ _ | resumption _ | signal _ => cases List.mem_singleton.mp carried
  | job _ work =>
      cases List.mem_singleton.mp carried
      exact ⟨work, rfl⟩

theorem eq_signal_of_signal (carried : .signal waiter ∈ continuation.assets) :
    continuation = .signal waiter := by
  cases continuation with
  | callback _ => cases carried
  | handOver _ _ | resumption _ | job _ _ => cases List.mem_singleton.mp carried
  | signal _ =>
      cases List.mem_singleton.mp carried
      rfl

end Continuation

namespace Holding

@[simp] theorem amount_nil (asset : Asset) : amount asset [] = 0 := rfl

@[simp] theorem amount_cons (asset : Asset) (head : Holding) (rest : List Holding) :
    amount asset (head :: rest) = head.assets.count asset + amount asset rest := by
  simp [amount]

/-- What an entry holds that is displaced, if there is one. -/
theorem amount_displaced (asset : Asset) (displaced : Option Nat) (hold : Nat → Holding) :
    amount asset (displaced.toList.map hold) =
      (displaced.map fun number => (hold number).assets.count asset).getD 0 := by
  cases displaced <;> simp

@[simp] theorem amount_append (asset : Asset) (left right : List Holding) :
    amount asset (left ++ right) = amount asset left + amount asset right := by
  simp [amount]

@[simp] theorem amount_map_continuation (asset : Asset) (site : Site)
    (continuations : List Continuation) :
    amount asset (continuations.map (.continuation site)) =
      Continuation.amount asset continuations := by
  simp only [amount, Continuation.amount, List.flatMap_map]
  rfl

theorem amount_pos_of_mem {asset : Asset} {holding : Holding} {held : List Holding}
    (member : holding ∈ held) (carried : asset ∈ holding.assets) :
    0 < amount asset held :=
  List.count_pos_iff.mpr (List.mem_flatMap.mpr ⟨holding, member, carried⟩)

end Holding

/-! ## Holdings of frames and tasks -/

/-- What is held by something that is to be dropped. -/
def Owned.holdings : Owned → List Holding
  | .continuation dropped => [.continuation .loose dropped]
  | .writer deferred => [.writer deferred]
  | .activation machine => [.share machine]
  | .loop _ => []
  | .runtime _ => []

/-- What the task in control holds. -/
def Task.holdings : Task → List Holding
  | .run continuation => [.continuation .loose continuation]
  | .discard owned => owned.holdings
  | .publish deferred outcome => [.publication deferred outcome]
  | .schedule scheduler continuation => [.continuation (.sent scheduler) continuation]
  | .resume machine => [.resuming machine]
  | .advance machine => [.advancing machine]
  | .step _ _ => []
  | .finish machine outcome => [.finishing machine outcome]

/-- What control holds. -/
def Control.holdings : Control → List Holding
  | .task underWay => underWay.holdings
  | _ => []

/-- What a frame holds. -/
def Frame.holdings : Frame → List Holding
  | .placing _ _ deferred => [.receipt deferred]
  | .firing deferred rest => rest.map (.continuation (.fired deferred))
  | .working deferred => [.working deferred]
  | .stepping machine => [.stepping machine]
  | .releasing machine => [.share machine]
  | .starting _ machine => [.share machine]
  | .blocking machine _ deferred =>
      [.share machine, .receipt deferred, .promise machine deferred]
  | .disposing rest => rest.flatMap Owned.holdings
  | .unwinding rest _ => rest.flatMap Owned.holdings
  | _ => []

/-- What the frames of a stack hold. -/
def Stack.holdings (stack : Stack) : List Holding := stack.flatMap Frame.holdings

@[simp] theorem Stack.holdings_cons (frame : Frame) (stack : Stack) :
    Stack.holdings (frame :: stack) = frame.holdings ++ Stack.holdings stack := by
  simp [Stack.holdings]

@[simp] theorem Owned.holdings_map_continuation (continuations : List Continuation) :
    (continuations.map Owned.continuation).flatMap Owned.holdings =
      continuations.map (.continuation .loose) := by
  induction continuations with
  | nil => rfl
  | cons head rest ih => simp [Owned.holdings, ih]

/-- Whether a holding may rest while other code runs: all but what a task holds. -/
def Holding.rests : Holding → Bool
  | .publication _ _ => false
  | .resuming _ => false
  | .advancing _ => false
  | .finishing _ _ => false
  | .continuation (.sent _) _ => false
  | _ => true

theorem Owned.rests_of_mem_holdings {owned : Owned} {holding : Holding}
    (member : holding ∈ owned.holdings) : holding.rests = true := by
  cases owned <;> simp_all [Owned.holdings, Holding.rests]

theorem Stack.rests_of_mem_holdings {stack : Stack} {holding : Holding}
    (member : holding ∈ Stack.holdings stack) : holding.rests = true := by
  obtain ⟨frame, _, held⟩ := List.mem_flatMap.mp member
  cases frame with
  | disposing rest | unwinding rest payload =>
      obtain ⟨owned, _, held⟩ := List.mem_flatMap.mp held
      exact Owned.rests_of_mem_holdings held
  | firing deferred rest =>
      obtain ⟨fired, _, rfl⟩ := List.mem_map.mp held
      rfl
  | blocking machine pool deferred =>
      simp only [Frame.holdings, List.mem_cons, List.not_mem_nil, or_false] at held
      rcases held with rfl | rfl | rfl <;> rfl
  | _ => simp_all [Frame.holdings, Holding.rests]

end Stepwise
