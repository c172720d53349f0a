import Stepwise.Proofs.Custody.Basic

/-!
# What outlasts a change

A small step moves a few assets and changes what they stand for.  Whatever carries
none of them stays rightful, because it speaks only of the machine, the deferred
or the work behind its own assets.  An asset that exists once is nowhere else
while it is in hand, so custody of what is in hand is all that a change has to
restore.
-/

namespace Stepwise

variable {ledger later : Ledger} {chronicle sequel : Chronicle} {stack : Stack}
  {before after : List Holding} {moved : Asset → Prop}

/-- What stood in one ledger and chronicle still stands in later ones, unless it
carries an asset that has moved. -/
structure Ledger.Endures (ledger later : Ledger) (chronicle sequel : Chronicle)
    (moved : Asset → Prop) : Prop where
  suspended : ∀ machine, ¬ moved (.resumption machine) → ∀ scheduler deferred,
    ledger.Suspends machine scheduler deferred → later.Suspends machine scheduler deferred
  stepping : ∀ machine, ¬ moved (.claim machine) →
    (Holding.stepping machine).Rightful ledger chronicle →
      (Holding.stepping machine).Rightful later sequel
  work : ∀ deferred, ¬ moved (.writer deferred) →
    sequel.work deferred = chronicle.work deferred
  completed : ∀ deferred, ledger.Completed deferred → later.Completed deferred
  isPublic : ∀ deferred, ledger.Public chronicle deferred → later.Public sequel deferred
  waits : ∀ waiter deferred, ledger.WaitsFor waiter deferred → later.WaitsFor waiter deferred
  promised : ∀ machine deferred, (chronicle.life machine).Promises deferred →
    (sequel.life machine).Promises deferred

/-- A blocked thread goes on waiting for what it waited for. -/
theorem Ledger.Endures.blocks (endures : ledger.Endures later chronicle sequel moved)
    {waiter : Waiter} (blocks : ledger.Blocks chronicle waiter) :
    later.Blocks sequel waiter where
  isPublic := endures.isPublic _ blocks.isPublic
  awake := fun awake => endures.completed _ (blocks.awake awake)
  promised := fun pool machine run => endures.promised _ _ (blocks.promised pool machine run)

/-- A site stays right for a continuation that did not move. -/
theorem Site.Admits.endures {site : Site} {continuation : Continuation}
    (endures : ledger.Endures later chronicle sequel moved)
    (still : ∀ asset ∈ continuation.assets, ¬ moved asset)
    (admits : site.Admits ledger chronicle continuation) :
    site.Admits later sequel continuation := by
  cases continuation with
  | callback body => trivial
  | signal waiter =>
      cases site with
      | registered deferred => exact endures.waits waiter deferred admits
      | fired deferred =>
          exact ⟨endures.waits waiter deferred admits.1, endures.completed _ admits.2⟩
      | loose =>
          obtain ⟨deferred, waits, complete⟩ := admits
          exact ⟨deferred, endures.waits waiter deferred waits, endures.completed _ complete⟩
      | sent _ | queued _ => exact admits
  | handOver scheduler machine =>
      have suspended := endures.suspended machine (still _ (by simp [Continuation.assets]))
      cases site with
      | registered deferred => exact suspended _ _ admits
      | fired deferred =>
          exact ⟨suspended _ _ admits.1, endures.completed _ admits.2⟩
      | loose =>
          obtain ⟨deferred, waits, complete⟩ := admits
          exact ⟨deferred, suspended _ _ waits, endures.completed _ complete⟩
      | sent _ => exact admits
      | queued _ => exact admits
  | resumption machine =>
      have suspended := endures.suspended machine (still _ (by simp [Continuation.assets]))
      cases site with
      | registered deferred => exact admits
      | fired deferred => exact admits
      | loose =>
          obtain ⟨scheduler, deferred, waits, complete⟩ := admits
          exact ⟨scheduler, deferred, suspended _ _ waits, endures.completed _ complete⟩
      | sent scheduler | queued scheduler =>
          obtain ⟨deferred, waits, complete⟩ := admits
          exact ⟨deferred, suspended _ _ waits, endures.completed _ complete⟩
  | job deferred program =>
      have same := endures.work deferred (still _ (by simp [Continuation.assets]))
      cases site with
      | queued scheduler =>
          cases scheduler with
          | pool _ =>
              obtain ⟨launcher, recorded⟩ := admits
              exact ⟨launcher, same.trans recorded⟩
          | _ => exact admits
      | loose =>
          obtain ⟨launcher, recorded⟩ := admits
          exact ⟨launcher, same.trans recorded⟩
      | registered _ | fired _ | sent _ => exact admits

/-- A holding that rests and did not move stays rightful. -/
theorem Holding.Rightful.endures {holding : Holding}
    (endures : ledger.Endures later chronicle sequel moved)
    (rests : holding.rests = true) (still : ∀ asset ∈ holding.assets, ¬ moved asset)
    (rightful : holding.Rightful ledger chronicle) : holding.Rightful later sequel := by
  cases holding with
  | continuation site carried =>
      exact Site.Admits.endures endures still rightful
  | writer deferred =>
      have same := endures.work deferred (still _ (by simp [Holding.assets]))
      intro work recorded
      exact rightful work (same ▸ recorded)
  | working deferred =>
      have same := endures.work deferred (still _ (by simp [Holding.assets]))
      obtain ⟨program, launcher, recorded⟩ := rightful
      exact ⟨program, launcher, same.trans recorded⟩
  | stepping machine =>
      exact endures.stepping machine (still _ (by simp [Holding.assets])) rightful
  | share machine => trivial
  | receipt deferred => exact endures.isPublic deferred rightful
  | promise machine deferred => exact endures.promised machine deferred rightful
  | publication _ _ | resuming _ | advancing _ | finishing _ _ => cases rests

/-! ## Counting what is in hand -/

/-- There is as much of an asset as rests and is in hand. -/
theorem Ledger.total_inHand (ledger : Ledger) (inHand : List Holding) (stack : Stack)
    (asset : Asset) :
    ledger.total inHand stack asset =
      ledger.total [] stack asset + Holding.amount asset inHand := by
  simp only [total, Holding.amount_append, List.nil_append]
  omega

/-- What a kept continuation carries rests. -/
theorem Ledger.total_pos_of_holds {site : Site} {continuation : Continuation} {asset : Asset}
    (holds : ledger.Holds site continuation) (carried : asset ∈ continuation.assets) :
    0 < ledger.total [] stack asset := by
  have positive := Ledger.amount_pos_of_holds holds carried
  simp only [total]
  omega

/-- What a frame's holding carries rests. -/
theorem Ledger.total_pos_of_mem {holding : Holding} {asset : Asset}
    (member : holding ∈ Stack.holdings stack) (carried : asset ∈ holding.assets) :
    0 < ledger.total [] stack asset := by
  have positive := Holding.amount_pos_of_mem member carried
  simp only [total, List.nil_append]
  omega

/-- A writer under a name rests. -/
theorem Ledger.total_pos_of_named {name : Name} {deferred : Nat}
    (named : ledger.writers.find? name = some deferred) :
    0 < ledger.total [] stack (.writer deferred) := by
  have bound := Table.le_total named fun deferred' =>
    [Asset.writer deferred'].count (.writer deferred)
  simp only [List.count_singleton_self] at bound
  simp only [total, amount]
  omega

/-- An observer's writer rests. -/
theorem Ledger.total_pos_of_observed {machine deferred : Nat} {found : Activation}
    (lookup : ledger.activations.get? machine = some found)
    (observer : found.observer = some (.writer deferred)) :
    0 < ledger.total [] stack (.writer deferred) := by
  have carried : found.assets = [.writer deferred] := by
    simp [Activation.assets, observer, Observer.assets]
  have bound := Store.le_total lookup fun activation =>
    activation.assets.count (.writer deferred)
  simp only [carried, List.count_singleton_self] at bound
  simp only [total, amount]
  omega

/-! ## Accounts that stand -/

namespace Ledger

variable {total totalLater : Asset → Nat}

theorem MachineAccount.congr {machine : Nat}
    (account : ledger.MachineAccount chronicle total machine)
    (activation : later.activations.get? machine = ledger.activations.get? machine)
    (life : sequel.life machine = chronicle.life machine)
    (totals : ∀ asset ∈ [Asset.resumption machine, .claim machine, .share machine],
      totalLater asset = total asset) :
    later.MachineAccount sequel totalLater machine := by
  have resumptions := totals (.resumption machine) (by simp)
  have claims := totals (.claim machine) (by simp)
  have shares := totals (.share machine) (by simp)
  simpa only [MachineAccount, activation, life, resumptions, claims, shares] using account

theorem DeferredAccount.congr {deferred : Nat}
    (account : ledger.DeferredAccount chronicle total deferred)
    (found : later.deferreds.get? deferred = ledger.deferreds.get? deferred)
    (work : sequel.work deferred = chronicle.work deferred)
    (totals : totalLater (.writer deferred) = total (.writer deferred)) :
    later.DeferredAccount sequel totalLater deferred := by
  simpa only [DeferredAccount, found, work, totals] using account

theorem WaiterAccount.congr {waiter : Nat} (account : ledger.WaiterAccount total waiter)
    (found : later.waiters.get? waiter = ledger.waiters.get? waiter)
    (totals : totalLater (.signal waiter) = total (.signal waiter)) :
    later.WaiterAccount totalLater waiter := by
  simpa only [WaiterAccount, found, totals] using account

end Ledger

/-! ## Restoring custody -/

namespace Custody

/-- Custody after a change, from the accounts after it and the rightfulness of what is
in hand then; what rests carries nothing that has moved. -/
theorem proceed (custody : Custody ledger chronicle before stack)
    (endures : ledger.Endures later chronicle sequel moved)
    (apart : ∀ asset, moved asset → ledger.total [] stack asset = 0)
    (machines : ∀ machine, later.MachineAccount sequel (later.total after stack) machine)
    (deferreds : ∀ deferred,
      later.DeferredAccount sequel (later.total after stack) deferred)
    (signals : ∀ waiter, later.WaiterAccount (later.total after stack) waiter)
    (rightful : ∀ holding ∈ after, holding.Rightful later sequel)
    (kept : ∀ site continuation, later.Holds site continuation →
      ledger.Holds site continuation ∨ site.Admits later sequel continuation)
    (named : ∀ name deferred, later.writers.find? name = some deferred →
      sequel.work deferred = none)
    (observed : ∀ machine found deferred, later.activations.get? machine = some found →
      found.observer = some (.writer deferred) → sequel.work deferred = none)
    (receipts : ∀ name receipt, later.receipts.find? name = some receipt →
      later.Public sequel receipt.deferred)
    (waiters : ∀ waiter found, later.waiters.get? waiter = some found →
      later.Blocks sequel found) :
    Custody later sequel after stack where
  machines := machines
  deferreds := deferreds
  signals := signals
  rightful := by
    intro holding member
    rcases List.mem_append.mp member with inHand | resting
    · exact rightful holding inHand
    · have still : ∀ asset ∈ holding.assets, ¬ moved asset := by
        intro asset carried away
        have positive : 0 < ledger.total [] stack asset :=
          Ledger.total_pos_of_mem resting carried
        have absent := apart asset away
        omega
      have stood := custody.rightful holding (List.mem_append_right _ resting)
      exact stood.endures endures (Stack.rests_of_mem_holdings resting) still
  kept := by
    intro site continuation holds
    rcases kept site continuation holds with stood | admitted
    · have still : ∀ asset ∈ continuation.assets, ¬ moved asset := by
        intro asset carried away
        have positive : 0 < ledger.total [] stack asset :=
          Ledger.total_pos_of_holds stood carried
        have absent := apart asset away
        omega
      exact (custody.kept site continuation stood).endures endures still
    · exact admitted
  named := named
  observed := observed
  receipts := receipts
  waiters := waiters

/-- What is in hand and what the innermost frame holds is held together. -/
theorem total_frame (ledger : Ledger) (inHand : List Holding) (frame : Frame)
    (stack : Stack) :
    ledger.total inHand (frame :: stack) = ledger.total (inHand ++ frame.holdings) stack := by
  funext asset
  simp [Ledger.total]

/-- A frame that is pushed keeps some of what was in hand. -/
theorem push {inHand : List Holding} {frame : Frame}
    (custody : Custody ledger chronicle (inHand ++ frame.holdings) stack) :
    Custody ledger chronicle inHand (frame :: stack) := by
  refine { custody with machines := ?_, deferreds := ?_, signals := ?_, rightful := ?_ }
  · rw [total_frame]; exact custody.machines
  · rw [total_frame]; exact custody.deferreds
  · rw [total_frame]; exact custody.signals
  · simpa using custody.rightful

/-- What a popped frame held comes into hand. -/
theorem pop {inHand : List Holding} {frame : Frame}
    (custody : Custody ledger chronicle inHand (frame :: stack)) :
    Custody ledger chronicle (inHand ++ frame.holdings) stack := by
  refine { custody with machines := ?_, deferreds := ?_, signals := ?_, rightful := ?_ }
  · rw [← total_frame]; exact custody.machines
  · rw [← total_frame]; exact custody.deferreds
  · rw [← total_frame]; exact custody.signals
  · simpa using custody.rightful

/-- A frame that keeps nothing makes no difference. -/
theorem light {inHand : List Holding} {frame : Frame}
    (custody : Custody ledger chronicle inHand stack) (empty : frame.holdings = []) :
    Custody ledger chronicle inHand (frame :: stack) :=
  push (by rw [empty, List.append_nil]; exact custody)

end Custody

end Stepwise
