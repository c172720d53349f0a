import Stepwise.Proofs.Custody.Transfer

/-!
# Custody of deferreds and works

A deferred comes with its writer, which is passed on as a writer, a job or a work
under way until an outcome is published.  The fate of a work changes only while its
writer is in hand.
-/

namespace Stepwise.Custody

variable {ledger : Ledger} {chronicle sequel : Chronicle} {stack : Stack}
  {inHand : List Holding} {deferred : Nat}

/-- A deferred whose writer is in hand is pending, and the writer is nowhere else. -/
theorem pending_of_writer (custody : Custody ledger chronicle inHand stack) (deferred : Nat)
    (carried : 0 < Holding.amount (.writer deferred) inHand) :
    (∃ found, ledger.deferreds.get? deferred = some found ∧ found.isComplete = false) ∧
      ledger.total [] stack (.writer deferred) = 0 := by
  have account := custody.deferreds deferred
  have split := ledger.total_inHand inHand stack (.writer deferred)
  simp only [Ledger.DeferredAccount] at account
  cases lookup : ledger.deferreds.get? deferred with
  | none =>
      rw [lookup] at account
      have absent := account.1
      omega
  | some found =>
      rw [lookup] at account
      have writers := account.1
      cases complete : found.isComplete with
      | true =>
          simp only [complete, if_true] at writers
          omega
      | false =>
          simp only [complete, Bool.false_eq_true, if_false] at writers
          exact ⟨⟨found, rfl, complete⟩, by omega⟩

/-- A deferred is completed: its continuations come into hand. -/
theorem published {outcome : Outcome} {found : Deferred}
    (custody : Custody ledger chronicle [.publication deferred outcome] stack)
    (lookup : ledger.deferreds.get? deferred = some found) :
    Custody
      { ledger with deferreds := ledger.deferreds.modify deferred (·.publish outcome) }
      chronicle (found.continuations.map (.continuation (.fired deferred))) stack := by
  obtain ⟨-, apart⟩ := custody.pending_of_writer deferred (by simp [Holding.assets])
  have agreed := custody.rightful _ (List.mem_append_left _ (List.mem_cons_self ..))
  have totals (asset : Asset) :
      Ledger.total
          { ledger with deferreds := ledger.deferreds.modify deferred (·.publish outcome) }
          (found.continuations.map (.continuation (.fired deferred))) stack asset =
        ledger.total [] stack asset := by
    have changed := Store.total_modify lookup (·.publish outcome)
      fun deferred => Continuation.amount asset deferred.continuations
    simp only [Ledger.total, Ledger.amount, Deferred.publish, Holding.amount_append,
      Holding.amount_map_continuation, Continuation.amount_nil, List.nil_append]
      at changed ⊢
    omega
  have rests (asset : Asset) (other : asset ≠ .writer deferred) :
      ledger.total [.publication deferred outcome] stack asset =
        ledger.total [] stack asset := by
    rw [Ledger.total_inHand]
    simpa [Holding.assets, List.count_eq_zero] using other
  have endures : ledger.Endures
      { ledger with deferreds := ledger.deferreds.modify deferred (·.publish outcome) }
      chronicle chronicle (· = .writer deferred) := by
    refine ⟨fun _ _ _ _ suspends => suspends, fun _ _ rightful => rightful,
      fun _ _ => rfl, ?_, ?_, fun _ _ waits => waits, fun _ _ promised => promised⟩
    · rintro other ⟨complete, otherLookup, isComplete⟩
      by_cases same : deferred = other
      · subst same
        exact ⟨found.publish outcome, by simp [lookup], rfl⟩
      · exact ⟨complete, by simp [same, otherLookup], isComplete⟩
    · rintro other ⟨present, launched⟩
      refine ⟨?_, launched⟩
      simp only [Store.get?_modify]
      split <;> simpa using present
  refine custody.proceed endures (fun asset moved => moved ▸ apart) ?_ ?_ ?_ ?_ ?_
    custody.named custody.observed ?_ ?_
  · intro machine
    exact (custody.machines machine).congr rfl rfl (by simp [totals, rests])
  · intro other
    by_cases same : other = deferred
    · subst same
      simp only [Ledger.DeferredAccount, totals, Store.get?_modify, if_true, lookup,
        Option.map_some]
      exact ⟨apart, fun _ => rfl, agreed⟩
    · exact (custody.deferreds other).congr (by simp [Ne.symm same]) rfl
        (by simp [totals, rests, same])
  · intro waiter
    exact (custody.signals waiter).congr rfl (by simp [totals, rests])
  · intro holding member
    obtain ⟨continuation, registered, rfl⟩ := List.mem_map.mp member
    have admits := custody.kept (.registered deferred) continuation
      ⟨found, lookup, registered⟩
    cases continuation with
    | callback body => trivial
    | resumption machine => exact admits.elim
    | job other program => exact admits.elim
    | signal waiter => exact ⟨admits, found.publish outcome, by simp [lookup], rfl⟩
    | handOver scheduler machine =>
        exact ⟨admits, found.publish outcome, by simp [lookup], rfl⟩
  · intro site continuation holds
    rcases holds.of_deferreds with old | ⟨other, changed, rfl, changedLookup, member⟩
    · exact .inl old
    · rcases Store.get?_of_modify lookup changedLookup with ⟨rfl, rfl⟩ | same
      · cases member
      · exact .inl ⟨changed, same, member⟩
  · intro name receipt named
    exact endures.isPublic _ (custody.receipts name receipt named)
  · intro waiter blocked waiting
    exact endures.blocks (custody.waiters waiter blocked waiting)

/-- The fate of a work changes while its writer is in hand. -/
theorem refated {old new : Holding} (fate : Fate)
    (custody : Custody ledger chronicle [old] stack)
    (was : old.assets = [.writer deferred]) (is : new.assets = [.writer deferred])
    (rightful : new.Rightful ledger (chronicle.onFate deferred fate)) :
    Custody ledger (chronicle.onFate deferred fate) [new] stack := by
  obtain ⟨⟨found, lookup, pending⟩, apart⟩ := custody.pending_of_writer deferred
    (by simp [was])
  have totals : ledger.total [new] stack = ledger.total [old] stack := by
    funext asset
    simp [Ledger.total, was, is]
  have unlaunched (other : Nat) (absent : chronicle.work other = none) :
      (chronicle.onFate deferred fate).work other = none := by
    simp [absent]
  have isPublic (other : Nat) (was : ledger.Public chronicle other) :
      ledger.Public (chronicle.onFate deferred fate) other := by
    refine ⟨was.1, ?_⟩
    intro work recorded
    simp only [Chronicle.work_onFate] at recorded
    split at recorded
    · obtain ⟨former, present, rfl⟩ := Option.map_eq_some_iff.mp recorded
      exact was.2 former present
    · exact was.2 work recorded
  have endures : ledger.Endures ledger chronicle (chronicle.onFate deferred fate)
      (· = .writer deferred) := by
    refine ⟨fun _ _ _ _ suspends => suspends, fun _ _ rightful => rightful, ?_,
      fun _ completed => completed, isPublic, fun _ _ waits => waits,
      fun _ _ promised => promised⟩
    intro other still
    have different : other ≠ deferred := fun equal => still (equal ▸ rfl)
    simp [different]
  refine custody.proceed endures (fun asset moved => moved ▸ apart) ?_ ?_ ?_ ?_
    (fun _ _ holds => .inl holds) (fun name other named => unlaunched other
      (custody.named name other named)) (fun machine activation other present observer =>
      unlaunched other (custody.observed machine activation other present observer))
    (fun name receipt named => isPublic _ (custody.receipts name receipt named))
    (fun waiter blocked waiting => endures.blocks (custody.waiters waiter blocked waiting))
  · intro machine
    rw [totals]
    exact custody.machines machine
  · intro other
    have account := custody.deferreds other
    rw [totals]
    by_cases same : other = deferred
    · subst same
      simp only [Ledger.DeferredAccount, lookup] at account ⊢
      refine ⟨account.1, account.2.1, ?_⟩
      intro work _
      cases progress : found.progress with
      | pending => trivial
      | complete _ | taken => simp [Deferred.isComplete, progress] at pending
    · exact account.congr rfl (by simp [same]) rfl
  · rw [totals]
    exact custody.signals
  · intro holding member
    rw [List.mem_singleton.mp member]
    exact rightful

/-- Nobody owns a writer of the next deferred yet. -/
theorem unowned_next (custody : Custody ledger chronicle inHand stack) :
    ledger.total inHand stack (.writer ledger.deferreds.size) = 0 := by
  have account := custody.deferreds ledger.deferreds.size
  have absent : ledger.deferreds.get? ledger.deferreds.size = none := by
    simp [Store.get?, Store.size]
  simp only [Ledger.DeferredAccount, absent] at account
  exact account.1

/-- What stood before a deferred was added still stands. -/
theorem endures_added (life : sequel.life = chronicle.life)
    (work : ∀ other, other ≠ ledger.deferreds.size →
      sequel.work other = chronicle.work other) :
    ledger.Endures { ledger with deferreds := ledger.deferreds.push .fresh } chronicle sequel
      (· = .writer ledger.deferreds.size) := by
  have absent : ledger.deferreds.get? ledger.deferreds.size = none := by
    simp [Store.get?, Store.size]
  have older (other : Nat) (present : (ledger.deferreds.get? other).isSome = true) :
      other ≠ ledger.deferreds.size := by
    intro equal
    simp [equal, absent] at present
  refine ⟨fun _ _ _ _ suspends => suspends, ?_, ?_, ?_, ?_, fun _ _ waits => waits, ?_⟩
  · intro machine _ rightful
    simpa only [Holding.Rightful, life] using rightful
  · intro other still
    exact work other fun equal => still (equal ▸ rfl)
  · rintro other ⟨found, lookup, complete⟩
    exact ⟨found, by simpa [older other (by simp [lookup])] using lookup, complete⟩
  · rintro other ⟨present, launched⟩
    refine ⟨by simpa [older other present] using present, ?_⟩
    rw [work other (older other present)]
    exact launched
  · intro machine deferred promised
    rw [life]
    exact promised

/-- A deferred is added, and with it its writer, which may be a job already. -/
theorem added {new : Holding} (custody : Custody ledger chronicle inHand stack)
    (rests : ∀ holding ∈ inHand, holding.rests = true)
    (is : new.assets = [.writer ledger.deferreds.size])
    (life : sequel.life = chronicle.life)
    (work : ∀ other, other ≠ ledger.deferreds.size →
      sequel.work other = chronicle.work other)
    (rightful : new.Rightful { ledger with deferreds := ledger.deferreds.push .fresh } sequel) :
    Custody { ledger with deferreds := ledger.deferreds.push .fresh } sequel (new :: inHand)
      stack := by
  have unowned := custody.unowned_next
  have split := ledger.total_inHand inHand stack (.writer ledger.deferreds.size)
  have totals (asset : Asset) :
      Ledger.total { ledger with deferreds := ledger.deferreds.push .fresh } (new :: inHand)
          stack asset =
        ledger.total inHand stack asset + [Asset.writer ledger.deferreds.size].count asset := by
    simp only [Ledger.total, Ledger.amount, Store.total_push, Deferred.fresh,
      Continuation.amount_nil, List.cons_append, Holding.amount_cons, is]
    omega
  have same (asset : Asset) (other : asset ≠ .writer ledger.deferreds.size) :
      Ledger.total { ledger with deferreds := ledger.deferreds.push .fresh } (new :: inHand)
        stack asset = ledger.total inHand stack asset := by
    rw [totals]
    simpa [List.count_eq_zero] using other
  have launched (other : Nat) (owned : 0 < ledger.total [] stack (.writer other)) :
      sequel.work other = chronicle.work other := by
    refine work other fun equal => ?_
    subst equal
    omega
  have endures := endures_added life work
  refine custody.proceed endures (fun asset moved => by subst moved; omega)
    ?_ ?_ ?_ ?_ ?_ ?_ ?_
    (fun name receipt named => endures.isPublic _ (custody.receipts name receipt named))
    (fun waiter blocked waiting => endures.blocks (custody.waiters waiter blocked waiting))
  · intro machine
    exact (custody.machines machine).congr rfl (by rw [life]) (by simp [same])
  · intro other
    by_cases next : other = ledger.deferreds.size
    · subst next
      simp only [Ledger.DeferredAccount, Store.get?_push, if_true, totals, unowned,
        List.count_singleton_self]
      exact ⟨rfl, fun _ => rfl, fun _ _ => trivial⟩
    · exact (custody.deferreds other).congr (by simp [next]) (work other next)
        (same _ (by simpa using next))
  · intro waiter
    exact (custody.signals waiter).congr rfl (same _ (by simp))
  · intro holding member
    rcases List.mem_cons.mp member with rfl | old
    · exact rightful
    · have stood := custody.rightful holding (List.mem_append_left _ old)
      refine stood.endures endures (rests holding old) fun asset carried moved => ?_
      subst moved
      have positive := Holding.amount_pos_of_mem old carried
      omega
  · intro site continuation holds
    rcases holds.of_deferreds with old | ⟨other, found, rfl, lookup, member⟩
    · exact .inl old
    · rw [Store.get?_push] at lookup
      split at lookup
      · cases lookup
        cases member
      · exact .inl ⟨found, lookup, member⟩
  · intro name other named
    rw [launched other (Ledger.total_pos_of_named named)]
    exact custody.named name other named
  · intro machine found other lookup observer
    rw [launched other (Ledger.total_pos_of_observed lookup observer)]
    exact custody.observed machine found other lookup observer

end Stepwise.Custody
