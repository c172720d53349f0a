import Stepwise.Proofs.Custody.Transfer

/-!
# Custody of blocked threads

A thread that blocks hands out one wake-up.  Once that is used or lost the thread
sleeps no more.  A thread that runs a machine keeps a share in it until it collects
the outcome.
-/

namespace Stepwise.Custody

variable {ledger : Ledger} {chronicle : Chronicle} {stack : Stack}
  {before after : List Holding}

/-- What stood before blocked threads changed still stands. -/
theorem endures_waiters {waiters : Store Waiter}
    (waits : ∀ waiter deferred, ledger.WaitsFor waiter deferred →
      Ledger.WaitsFor { ledger with waiters := waiters } waiter deferred) :
    ledger.Endures { ledger with waiters := waiters } chronicle chronicle fun _ => False :=
  ⟨fun _ _ _ _ suspends => suspends, fun _ _ rightful => rightful, fun _ _ => rfl,
    fun _ completed => completed, fun _ isPublic => isPublic, waits,
    fun _ _ promised => promised⟩

/-- What stood before a blocked thread changed still stands, if it waits for what it waited
for. -/
theorem endures_waiter (waiter : Nat) {change : Waiter → Waiter}
    (still : ∀ found, (change found).deferred = found.deferred) :
    ledger.Endures { ledger with waiters := ledger.waiters.modify waiter change } chronicle
      chronicle fun _ => False := by
  refine endures_waiters ?_
  rintro other deferred ⟨found, lookup, awaited⟩
  by_cases same : waiter = other
  · exact ⟨change found, by simp [same, lookup], (still found).trans awaited⟩
  · exact ⟨found, by simp [same, lookup], awaited⟩

/-- Nobody owns a wake-up of the next blocked thread yet. -/
theorem unowned_signal (custody : Custody ledger chronicle before stack) :
    ledger.total before stack (.signal ledger.waiters.size) = 0 := by
  have account := custody.signals ledger.waiters.size
  have absent : ledger.waiters.get? ledger.waiters.size = none := by
    simp [Store.get?, Store.size]
  simpa only [Ledger.WaiterAccount, absent] using account

/-- A thread blocks: its wake-up comes into hand, to be registered. -/
theorem blocked {waiter : Waiter} (custody : Custody ledger chronicle before stack)
    (asleep : waiter.signal = .waiting)
    (balance : ∀ asset, Holding.amount asset before = waiter.assets.count asset)
    (blocks : ledger.Blocks chronicle waiter) :
    Custody { ledger with waiters := ledger.waiters.push waiter } chronicle
      [.continuation (.registered waiter.deferred) (.signal ledger.waiters.size)] stack := by
  have unowned := custody.unowned_signal
  have totals (asset : Asset) :
      Ledger.total { ledger with waiters := ledger.waiters.push waiter }
          [.continuation (.registered waiter.deferred) (.signal ledger.waiters.size)] stack asset =
        ledger.total before stack asset +
          [Asset.signal ledger.waiters.size].count asset := by
    have balanced := balance asset
    simp only [Ledger.total, Ledger.amount, Store.total_push, Holding.amount_append,
      Holding.amount_cons, Holding.amount_nil, Holding.assets, Continuation.assets]
    omega
  have same (asset : Asset) (other : asset ≠ .signal ledger.waiters.size) :
      Ledger.total { ledger with waiters := ledger.waiters.push waiter }
          [.continuation (.registered waiter.deferred) (.signal ledger.waiters.size)] stack asset =
        ledger.total before stack asset := by
    rw [totals]
    simpa [List.count_eq_zero] using other
  have endures : ledger.Endures { ledger with waiters := ledger.waiters.push waiter } chronicle
      chronicle fun _ => False := by
    refine endures_waiters ?_
    rintro other deferred ⟨found, lookup, awaited⟩
    have older : other ≠ ledger.waiters.size := by
      rintro rfl
      simp [Store.get?, Store.size] at lookup
    exact ⟨found, by simpa [older] using lookup, awaited⟩
  refine custody.proceed endures (fun _ moved => moved.elim) ?_ ?_ ?_ ?_
    (fun _ _ holds => .inl holds) custody.named custody.observed custody.receipts ?_
  · intro machine
    exact (custody.machines machine).congr rfl rfl (by simp [same])
  · intro deferred
    exact (custody.deferreds deferred).congr rfl rfl (same _ (by simp))
  · intro other
    by_cases next : other = ledger.waiters.size
    · subst next
      simp only [Ledger.WaiterAccount, Store.get?_push, if_true, totals, unowned, asleep,
        List.count_singleton_self]
    · exact (custody.signals other).congr (by simp [next]) (same _ (by simpa using next))
  · intro holding member
    rw [List.mem_singleton.mp member]
    exact ⟨waiter, by simp, rfl⟩
  · intro other found lookup
    simp only [Store.get?_push] at lookup
    split at lookup
    · cases lookup
      exact endures.blocks blocks
    · exact endures.blocks (custody.waiters other found lookup)

/-- A wake-up is used or lost. -/
theorem signalled {waiter : Nat} {signal : Signal}
    (custody : Custody ledger chronicle [.continuation .loose (.signal waiter)] stack)
    (awake : signal ≠ .waiting) :
    Custody
      { ledger with waiters := ledger.waiters.modify waiter ({ · with signal := signal }) }
      chronicle [] stack := by
  have account := custody.signals waiter
  have inHand := ledger.total_inHand [.continuation .loose (.signal waiter)] stack
    (.signal waiter)
  simp only [Holding.amount_cons, Holding.amount_nil, Holding.assets, Continuation.assets,
    List.count_singleton_self] at inHand
  have complete (found : Waiter) (lookup : ledger.waiters.get? waiter = some found) :
      ledger.Completed found.deferred := by
    obtain ⟨deferred, ⟨again, present, awaited⟩, completed⟩ :
      Site.loose.Admits ledger chronicle (.signal waiter) := custody.rightful_head
    cases lookup.symm.trans present
    exact awaited ▸ completed
  have apart : ledger.total [] stack (.signal waiter) = 0 := by
    simp only [Ledger.WaiterAccount] at account
    split at account
    · omega
    · split at account <;> omega
  have totals (asset : Asset) :
      Ledger.total
          { ledger with waiters := ledger.waiters.modify waiter ({ · with signal := signal }) }
          [] stack asset = ledger.total [] stack asset := by
    simp only [Ledger.total, Ledger.amount]
    rw [Store.total_modify_of_eq]
    intro value
    rfl
  have same (asset : Asset) (other : asset ≠ .signal waiter) :
      Ledger.total
          { ledger with waiters := ledger.waiters.modify waiter ({ · with signal := signal }) }
          [] stack asset =
        ledger.total [.continuation .loose (.signal waiter)] stack asset := by
    rw [totals, Ledger.total_inHand _ [_]]
    simpa [Holding.assets, Continuation.assets, List.count_eq_zero] using other
  refine custody.proceed (endures_waiter waiter fun _ => rfl) (fun _ moved => moved.elim)
    ?_ ?_ ?_ (by simp)
    (fun _ _ holds => .inl holds) custody.named custody.observed custody.receipts ?_
  · intro machine
    exact (custody.machines machine).congr rfl rfl (by simp [same])
  · intro deferred
    exact (custody.deferreds deferred).congr rfl rfl (same _ (by simp))
  · intro other
    by_cases equal : other = waiter
    · subst equal
      simp only [Ledger.WaiterAccount, totals, apart, Store.get?_modify, if_true]
      cases ledger.waiters.get? other with
      | none => trivial
      | some found => simp [awake]
    · exact (custody.signals other).congr (by simp [Ne.symm equal])
        (same _ (by simpa using equal))
  · intro other found lookup
    simp only [Store.get?_modify] at lookup
    split at lookup
    · obtain ⟨former, formerLookup, rfl⟩ := Option.map_eq_some_iff.mp lookup
      have stood := custody.waiters other former formerLookup
      have different : waiter = other := ‹_›
      subst different
      exact ⟨stood.isPublic, fun _ => complete former formerLookup, stood.promised⟩
    · have stood := custody.waiters other found lookup
      exact ⟨stood.isPublic, stood.awake, stood.promised⟩

/-- A blocked thread gives up the share that it kept. -/
theorem collected {waiter : Nat} {found : Waiter}
    (custody : Custody ledger chronicle [] stack)
    (lookup : ledger.waiters.get? waiter = some found) :
    Custody { ledger with waiters := ledger.waiters.modify waiter ({ · with run := none }) }
      chronicle ((found.run.map (·.2)).toList.map .share) stack := by
  have totals (asset : Asset) :
      Ledger.total
          { ledger with waiters := ledger.waiters.modify waiter ({ · with run := none }) }
          ((found.run.map (·.2)).toList.map .share) stack asset =
        ledger.total [] stack asset := by
    have changed := Store.total_modify lookup ({ · with run := none })
      fun waiter => waiter.assets.count asset
    have carried : Holding.amount asset ((found.run.map (·.2)).toList.map .share) =
        found.assets.count asset := by
      cases run : found.run with
      | none => simp [Waiter.assets, run]
      | some pair => simp [Waiter.assets, run, Holding.assets]
    have emptied : Waiter.assets { found with run := none } = [] := rfl
    simp only [emptied, List.count_nil] at changed
    simp only [Ledger.total, Ledger.amount, Holding.amount_append, List.nil_append]
    omega
  refine custody.proceed (endures_waiter waiter fun _ => rfl) (fun _ moved => moved.elim)
    ?_ ?_ ?_ ?_
    (fun _ _ holds => .inl holds) custody.named custody.observed custody.receipts ?_
  · intro machine
    exact (custody.machines machine).congr rfl rfl (by simp [totals])
  · intro deferred
    exact (custody.deferreds deferred).congr rfl rfl (totals _)
  · intro other
    have account := custody.signals other
    by_cases equal : waiter = other
    · subst equal
      simp only [Ledger.WaiterAccount, lookup] at account
      simp only [Ledger.WaiterAccount, totals, Store.get?_modify, if_true, lookup,
        Option.map_some]
      exact account
    · exact account.congr (by simp [equal]) (totals _)
  · intro holding member
    obtain ⟨machine, -, rfl⟩ := List.mem_map.mp member
    trivial
  · intro other blocked blockedLookup
    rcases Store.get?_of_modify lookup blockedLookup with ⟨rfl, rfl⟩ | old
    · have stood := custody.waiters other found lookup
      exact ⟨stood.isPublic, stood.awake, fun _ _ run => (Option.some_ne_none _ run.symm).elim⟩
    · have stood := custody.waiters other blocked old
      exact ⟨stood.isPublic, stood.awake, stood.promised⟩

end Stepwise.Custody
