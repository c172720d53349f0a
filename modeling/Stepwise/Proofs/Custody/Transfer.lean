import Stepwise.Proofs.Custody.Continuity

/-!
# Passing things on

Most changes only pass things on: from hand into the keeping of the world, back, or
from one holding to another.  No machine changes, no deferred completes, and nothing
is gained or lost, so all accounts stand as they are.
-/

namespace Stepwise

/-- A deferred that was changed without being completed. -/
structure Deferred.Keeps (before after : Deferred) : Prop where
  isComplete : after.isComplete = before.isComplete
  agrees : ∀ fate, before.progress.Agrees fate → after.progress.Agrees fate
  continuations : before.isComplete = true → after.continuations = before.continuations

theorem Deferred.Keeps.refl (deferred : Deferred) : deferred.Keeps deferred :=
  ⟨rfl, fun _ agrees => agrees, fun _ => rfl⟩

/-- Deferreds that are kept under the same numbers. -/
def Ledger.KeepsDeferreds (ledger later : Ledger) : Prop :=
  ∀ number, Option.Rel Deferred.Keeps (ledger.deferreds.get? number)
    (later.deferreds.get? number)

namespace Ledger

variable {ledger later : Ledger}

theorem keepsDeferreds_of_eq (same : later.deferreds = ledger.deferreds) :
    ledger.KeepsDeferreds later := by
  intro number
  rw [same]
  cases ledger.deferreds.get? number with
  | none => exact .none
  | some found => exact .some (.refl found)

/-- To change a deferred without completing it keeps them all. -/
theorem keepsDeferreds_modify {deferred : Nat} {found : Deferred}
    {change : Deferred → Deferred} (lookup : ledger.deferreds.get? deferred = some found)
    (keeps : found.Keeps (change found)) :
    ledger.KeepsDeferreds
      { ledger with deferreds := ledger.deferreds.modify deferred change } := by
  intro number
  rw [Store.get?_modify]
  by_cases same : deferred = number
  · subst same
    simpa [lookup] using Option.Rel.some keeps
  · simp only [same, if_false]
    cases ledger.deferreds.get? number with
    | none => exact .none
    | some other => exact .some (.refl other)

theorem KeepsDeferreds.endures (keeps : ledger.KeepsDeferreds later) (chronicle : Chronicle)
    (activations : later.activations = ledger.activations)
    (waiters : later.waiters = ledger.waiters) :
    ledger.Endures later chronicle chronicle fun _ => False where
  suspended := by
    intro machine _ scheduler deferred suspends
    simpa only [Suspends, activations] using suspends
  stepping := by
    intro machine _ rightful
    simpa only [Holding.Rightful, activations] using rightful
  work := fun _ _ => rfl
  completed := by
    rintro deferred ⟨found, lookup, complete⟩
    have kept := keeps deferred
    rw [lookup] at kept
    cases equal : later.deferreds.get? deferred with
    | none => rw [equal] at kept; cases kept
    | some changed =>
        rw [equal] at kept
        cases kept with
        | some kept => exact ⟨changed, equal, kept.isComplete.trans complete⟩
  isPublic := by
    rintro deferred ⟨present, launched⟩
    refine ⟨?_, launched⟩
    have kept := keeps deferred
    cases equal : later.deferreds.get? deferred with
    | none =>
        rw [equal] at kept
        cases found : ledger.deferreds.get? deferred with
        | none => simp [found] at present
        | some _ => rw [found] at kept; cases kept
    | some _ => rfl
  waits := by
    intro waiter deferred waits
    simpa only [WaitsFor, waiters] using waits
  promised := fun _ _ promised => promised

end Ledger

namespace Custody

variable {ledger later : Ledger} {chronicle : Chronicle} {stack : Stack}
  {before after inHand : List Holding}

/-- To pass things on keeps custody, as long as they are kept and held rightly. -/
theorem transfer (custody : Custody ledger chronicle before stack)
    (activations : later.activations = ledger.activations)
    (waiters : later.waiters = ledger.waiters)
    (keeps : ledger.KeepsDeferreds later)
    (balance : ∀ asset, later.amount asset + Holding.amount asset after =
      ledger.amount asset + Holding.amount asset before)
    (rightful : ∀ holding ∈ after, holding.Rightful later chronicle)
    (kept : ∀ site continuation, later.Holds site continuation →
      ledger.Holds site continuation ∨ site.Admits later chronicle continuation)
    (named : ∀ name deferred, later.writers.find? name = some deferred →
      chronicle.work deferred = none)
    (receipts : ∀ name receipt, later.receipts.find? name = some receipt →
      later.Public chronicle receipt.deferred) :
    Custody later chronicle after stack := by
  have endures := keeps.endures chronicle activations waiters
  have totals : later.total after stack = ledger.total before stack := by
    funext asset
    have balanced := balance asset
    simp only [Ledger.total, Holding.amount_append]
    omega
  refine custody.proceed endures (fun _ moved => moved.elim) ?_ ?_ ?_ rightful kept named
    ?_ receipts ?_
  · intro machine
    exact (custody.machines machine).congr (by rw [activations]) rfl (by simp [totals])
  · intro deferred
    have account := custody.deferreds deferred
    have kept := keeps deferred
    simp only [Ledger.DeferredAccount, totals] at account ⊢
    cases found : ledger.deferreds.get? deferred with
    | none =>
        rw [found] at account kept
        cases equal : later.deferreds.get? deferred with
        | none => exact account
        | some _ => rw [equal] at kept; cases kept
    | some present =>
        rw [found] at account kept
        cases equal : later.deferreds.get? deferred with
        | none => rw [equal] at kept; cases kept
        | some changed =>
            rw [equal] at kept
            cases kept with
            | some kept =>
                obtain ⟨writers, emptied, agrees⟩ := account
                refine ⟨by rw [kept.isComplete]; exact writers, ?_,
                  fun work recorded => kept.agrees _ (agrees work recorded)⟩
                intro complete
                have was := kept.isComplete ▸ complete
                rw [kept.continuations was, emptied was]
  · intro waiter
    exact (custody.signals waiter).congr (by rw [waiters]) (by rw [totals])
  · rw [activations]
    exact custody.observed
  · intro waiter found lookup
    rw [waiters] at lookup
    exact endures.blocks (custody.waiters waiter found lookup)

/-- What is in hand may be held differently. -/
theorem exchange (custody : Custody ledger chronicle before stack)
    (balance : ∀ asset, Holding.amount asset after = Holding.amount asset before)
    (rightful : ∀ holding ∈ after, holding.Rightful ledger chronicle) :
    Custody ledger chronicle after stack :=
  custody.transfer rfl rfl (Ledger.keepsDeferreds_of_eq rfl)
    (fun asset => by rw [balance asset]) rightful (fun _ _ holds => .inl holds)
    custody.named custody.receipts

/-- What is in hand becomes something else that stands for the same. -/
theorem become {old new : Holding} (custody : Custody ledger chronicle [old] stack)
    (assets : new.assets = old.assets) (rightful : new.Rightful ledger chronicle) :
    Custody ledger chronicle [new] stack := by
  refine custody.exchange (fun asset => by simp [assets]) ?_
  intro holding member
  rw [List.mem_singleton.mp member]
  exact rightful

/-- What stands for nothing may be let go. -/
theorem forget {old : Holding} (custody : Custody ledger chronicle [old] stack)
    (assets : old.assets = []) : Custody ledger chronicle [] stack :=
  custody.exchange (fun asset => by simp [assets]) (by simp)

/-- What stands for nothing may be held besides. -/
theorem besides {new : Holding} (custody : Custody ledger chronicle before stack)
    (assets : new.assets = []) (rightful : new.Rightful ledger chronicle) :
    Custody ledger chronicle (before ++ [new]) stack := by
  refine custody.exchange (fun asset => by simp [assets]) ?_
  intro holding member
  rcases List.mem_append.mp member with old | same
  · exact custody.rightful holding (List.mem_append_left _ old)
  · rw [List.mem_singleton.mp same]
    exact rightful

/-- What is in hand is rightful. -/
theorem rightful_head {held : Holding}
    (custody : Custody ledger chronicle (held :: inHand) stack) :
    held.Rightful ledger chronicle :=
  custody.rightful held (List.mem_cons_self ..)

end Custody

end Stepwise
