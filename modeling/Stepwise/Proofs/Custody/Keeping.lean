import Stepwise.Proofs.Custody.Transfer

/-!
# In the keeping of the world

Continuations go to schedulers and deferreds and come back; writers and handles go
under names and come back.  Each lemma here is for one store or table of the world,
whatever is put into it or taken out.
-/

namespace Stepwise.Custody

variable {ledger : Ledger} {chronicle : Chronicle} {stack : Stack}
  {before after inHand : List Holding}

/-- Continuations pass between hand and a pool. -/
theorem onPool {pool : Nat} {found : Pool} {change : Pool → Pool}
    (custody : Custody ledger chronicle before stack)
    (lookup : ledger.pools.get? pool = some found)
    (balance : ∀ asset,
      Continuation.amount asset (change found).jobs + Holding.amount asset after =
        Continuation.amount asset found.jobs + Holding.amount asset before)
    (rightful : ∀ holding ∈ after, holding.Rightful ledger chronicle)
    (kept : ∀ job ∈ (change found).jobs,
      job ∈ found.jobs ∨ (Site.queued (.pool pool)).Admits ledger chronicle job) :
    Custody { ledger with pools := ledger.pools.modify pool change } chronicle after stack := by
  refine custody.transfer rfl rfl (Ledger.keepsDeferreds_of_eq rfl) ?_ rightful ?_
    custody.named custody.receipts
  · intro asset
    have totals := Store.total_modify lookup change
      fun pool => Continuation.amount asset pool.jobs
    have balanced := balance asset
    simp only [Ledger.amount] at totals ⊢
    omega
  · intro site continuation holds
    rcases holds.of_pools with old | ⟨other, changed, rfl, changedLookup, member⟩
    · exact .inl old
    · rcases Store.get?_of_modify lookup changedLookup with ⟨rfl, rfl⟩ | same
      · rcases kept continuation member with old | admitted
        · exact .inl ⟨found, lookup, old⟩
        · exact .inr admitted
      · exact .inl ⟨changed, same, member⟩

/-- A new pool has no jobs. -/
theorem poolAdded {fresh : Pool} (custody : Custody ledger chronicle inHand stack)
    (empty : fresh.jobs = []) :
    Custody { ledger with pools := ledger.pools.push fresh } chronicle inHand stack := by
  refine custody.transfer rfl rfl (Ledger.keepsDeferreds_of_eq rfl) ?_
    (fun holding member => custody.rightful holding (List.mem_append_left _ member)) ?_
    custody.named custody.receipts
  · intro asset
    simp [Ledger.amount, empty]
  · intro site continuation holds
    rcases holds.of_pools with old | ⟨other, found, rfl, lookup, member⟩
    · exact .inl old
    · rw [Store.get?_push] at lookup
      split at lookup
      · cases lookup
        rw [empty] at member
        cases member
      · exact .inl ⟨found, lookup, member⟩

/-- A change that leaves a pool's jobs alone passes nothing on. -/
theorem poolRetouched {pool : Nat} {change : Pool → Pool}
    (custody : Custody ledger chronicle inHand stack)
    (same : ∀ found, (change found).jobs = found.jobs) :
    Custody { ledger with pools := ledger.pools.modify pool change } chronicle inHand
      stack := by
  cases lookup : ledger.pools.get? pool with
  | none =>
      rw [Store.modify_of_none lookup]
      exact custody
  | some found =>
      refine custody.onPool lookup (fun asset => by rw [same])
        (fun holding member => custody.rightful holding (List.mem_append_left _ member)) ?_
      intro job member
      exact .inl (same found ▸ member)

/-- Continuations pass between hand and an event loop. -/
theorem onLoop {loop : Nat} {found : EventLoop} {change : EventLoop → EventLoop}
    (custody : Custody ledger chronicle before stack)
    (lookup : ledger.loops.get? loop = some found)
    (balance : ∀ asset,
      Continuation.amount asset (change found).queue + Holding.amount asset after =
        Continuation.amount asset found.queue + Holding.amount asset before)
    (rightful : ∀ holding ∈ after, holding.Rightful ledger chronicle)
    (kept : ∀ queued ∈ (change found).queue,
      queued ∈ found.queue ∨ (Site.queued (.loop loop)).Admits ledger chronicle queued) :
    Custody { ledger with loops := ledger.loops.modify loop change } chronicle after stack := by
  refine custody.transfer rfl rfl (Ledger.keepsDeferreds_of_eq rfl) ?_ rightful ?_
    custody.named custody.receipts
  · intro asset
    have totals := Store.total_modify lookup change
      fun loop => Continuation.amount asset loop.queue
    have balanced := balance asset
    simp only [Ledger.amount] at totals ⊢
    omega
  · intro site continuation holds
    rcases holds.of_loops with old | ⟨other, changed, rfl, changedLookup, member⟩
    · exact .inl old
    · rcases Store.get?_of_modify lookup changedLookup with ⟨rfl, rfl⟩ | same
      · rcases kept continuation member with old | admitted
        · exact .inl ⟨found, lookup, old⟩
        · exact .inr admitted
      · exact .inl ⟨changed, same, member⟩

/-- A new event loop has nothing to run. -/
theorem loopAdded (custody : Custody ledger chronicle inHand stack) :
    Custody { ledger with loops := ledger.loops.push .fresh } chronicle inHand stack := by
  refine custody.transfer rfl rfl (Ledger.keepsDeferreds_of_eq rfl) ?_
    (fun holding member => custody.rightful holding (List.mem_append_left _ member)) ?_
    custody.named custody.receipts
  · intro asset
    simp [Ledger.amount, EventLoop.fresh]
  · intro site continuation holds
    rcases holds.of_loops with old | ⟨other, found, rfl, lookup, member⟩
    · exact .inl old
    · rw [Store.get?_push] at lookup
      split at lookup
      · cases lookup
        cases member
      · exact .inl ⟨found, lookup, member⟩

/-- A change that leaves a loop's queue alone passes nothing on. -/
theorem loopRetouched {loop : Nat} {change : EventLoop → EventLoop}
    (custody : Custody ledger chronicle inHand stack)
    (same : ∀ found, (change found).queue = found.queue) :
    Custody { ledger with loops := ledger.loops.modify loop change } chronicle inHand
      stack := by
  cases lookup : ledger.loops.get? loop with
  | none =>
      rw [Store.modify_of_none lookup]
      exact custody
  | some found =>
      refine custody.onLoop lookup (fun asset => by rw [same])
        (fun holding member => custody.rightful holding (List.mem_append_left _ member)) ?_
      intro queued member
      exact .inl (same found ▸ member)

/-- Continuations pass between hand and a custom scheduler's list. -/
theorem onQueue {queue : Nat} {found : ManualQueue} {change : ManualQueue → ManualQueue}
    (custody : Custody ledger chronicle before stack)
    (lookup : ledger.queues.get? queue = some found)
    (balance : ∀ asset,
      Continuation.amount asset ((change found).filterMap id) + Holding.amount asset after =
        Continuation.amount asset (found.filterMap id) + Holding.amount asset before)
    (rightful : ∀ holding ∈ after, holding.Rightful ledger chronicle)
    (kept : ∀ queued, some queued ∈ change found →
      some queued ∈ found ∨ (Site.queued (.queue queue)).Admits ledger chronicle queued) :
    Custody { ledger with queues := ledger.queues.modify queue change } chronicle after
      stack := by
  refine custody.transfer rfl rfl (Ledger.keepsDeferreds_of_eq rfl) ?_ rightful ?_
    custody.named custody.receipts
  · intro asset
    have totals := Store.total_modify lookup change
      fun queue => Continuation.amount asset (queue.filterMap id)
    have balanced := balance asset
    simp only [Ledger.amount] at totals ⊢
    omega
  · intro site continuation holds
    rcases holds.of_queues with old | ⟨other, changed, rfl, changedLookup, member⟩
    · exact .inl old
    · rcases Store.get?_of_modify lookup changedLookup with ⟨rfl, rfl⟩ | same
      · rcases kept continuation member with old | admitted
        · exact .inl ⟨found, lookup, old⟩
        · exact .inr admitted
      · exact .inl ⟨changed, same, member⟩

/-- A new custom scheduler has an empty list. -/
theorem queueAdded (custody : Custody ledger chronicle inHand stack) :
    Custody { ledger with queues := ledger.queues.push [] } chronicle inHand stack := by
  refine custody.transfer rfl rfl (Ledger.keepsDeferreds_of_eq rfl) ?_
    (fun holding member => custody.rightful holding (List.mem_append_left _ member)) ?_
    custody.named custody.receipts
  · intro asset
    simp [Ledger.amount]
  · intro site continuation holds
    rcases holds.of_queues with old | ⟨other, found, rfl, lookup, member⟩
    · exact .inl old
    · rw [Store.get?_push] at lookup
      split at lookup
      · cases lookup
        cases member
      · exact .inl ⟨found, lookup, member⟩

/-- A deferred is changed without being completed. -/
theorem onDeferred {deferred : Nat} {found : Deferred} {change : Deferred → Deferred}
    (custody : Custody ledger chronicle before stack)
    (lookup : ledger.deferreds.get? deferred = some found)
    (keeps : found.Keeps (change found))
    (balance : ∀ asset,
      Continuation.amount asset (change found).continuations + Holding.amount asset after =
        Continuation.amount asset found.continuations + Holding.amount asset before)
    (rests : ∀ holding ∈ after, holding ∈ before ∧ holding.rests = true)
    (kept : ∀ continuation ∈ (change found).continuations,
      continuation ∈ found.continuations ∨
        (Site.registered deferred).Admits ledger chronicle continuation) :
    Custody { ledger with deferreds := ledger.deferreds.modify deferred change } chronicle
      after stack := by
  have preserved := Ledger.keepsDeferreds_modify lookup keeps
  have endures := preserved.endures chronicle rfl rfl
  refine custody.transfer rfl rfl preserved ?_ ?_ ?_ custody.named ?_
  · intro asset
    have totals := Store.total_modify lookup change
      fun deferred => Continuation.amount asset deferred.continuations
    have balanced := balance asset
    simp only [Ledger.amount] at totals ⊢
    omega
  · intro holding member
    have stood := custody.rightful holding (List.mem_append_left _ (rests holding member).1)
    exact stood.endures endures (rests holding member).2 fun _ _ moved => moved
  · intro site continuation holds
    rcases holds.of_deferreds with old | ⟨other, changed, rfl, changedLookup, member⟩
    · exact .inl old
    · rcases Store.get?_of_modify lookup changedLookup with ⟨rfl, rfl⟩ | same
      · rcases kept continuation member with old | admitted
        · exact .inl ⟨found, lookup, old⟩
        · exact .inr (admitted.endures endures fun _ _ moved => moved)
      · exact .inl ⟨changed, same, member⟩
  · intro name receipt named
    exact endures.isPublic _ (custody.receipts name receipt named)

/-- A continuation is registered on a pending deferred. -/
theorem registered {deferred : Nat} {found : Deferred} {continuation : Continuation}
    (custody : Custody ledger chronicle
      [.continuation (.registered deferred) continuation] stack)
    (lookup : ledger.deferreds.get? deferred = some found)
    (pending : found.isComplete = false) :
    Custody
      { ledger with
        deferreds := ledger.deferreds.modify deferred (·.register continuation) }
      chronicle [] stack := by
  have keeps : found.Keeps (found.register continuation) :=
    ⟨rfl, fun _ agrees => agrees, fun complete => by simp [pending] at complete⟩
  refine custody.onDeferred lookup keeps ?_ (by simp) ?_
  · intro asset
    simp [Deferred.register, Holding.assets]
  · intro other member
    rcases List.mem_append.mp member with old | new
    · exact .inl old
    · rw [List.mem_singleton.mp new]
      exact .inr (custody.rightful _ (List.mem_append_left _ (List.mem_cons_self ..)))

/-- A change that leaves a deferred's continuations alone passes nothing on. -/
theorem retouched {deferred : Nat} {change : Deferred → Deferred}
    (custody : Custody ledger chronicle inHand stack)
    (rests : ∀ holding ∈ inHand, holding.rests = true)
    (keeps : ∀ found, ledger.deferreds.get? deferred = some found →
      found.Keeps (change found) ∧ (change found).continuations = found.continuations) :
    Custody { ledger with deferreds := ledger.deferreds.modify deferred change } chronicle
      inHand stack := by
  cases lookup : ledger.deferreds.get? deferred with
  | none =>
      rw [Store.modify_of_none lookup]
      exact custody
  | some found =>
      obtain ⟨kept, same⟩ := keeps found lookup
      refine custody.onDeferred lookup kept (fun asset => by rw [same])
        (fun holding member => ⟨member, rests holding member⟩) ?_
      intro continuation member
      exact .inl (same ▸ member)

/-- The waker of a deferred and its lock hold nothing. -/
theorem wakerChanged {deferred : Nat} {change : Deferred → Deferred}
    (custody : Custody ledger chronicle [] stack)
    (same : ∀ found, (change found).progress = found.progress ∧
      (change found).continuations = found.continuations) :
    Custody { ledger with deferreds := ledger.deferreds.modify deferred change } chronicle []
      stack := by
  refine custody.retouched (by simp) ?_
  intro found _
  obtain ⟨progress, continuations⟩ := same found
  refine ⟨⟨?_, ?_, fun _ => continuations⟩, continuations⟩
  · simp only [Deferred.isComplete, progress]
  · rw [progress]
    exact fun _ agrees => agrees

/-- A writer is taken from its name. -/
theorem writerTaken {name : Name} {deferred : Nat}
    (custody : Custody ledger chronicle [] stack)
    (lookup : ledger.writers.find? name = some deferred) :
    Custody { ledger with writers := ledger.writers.erase name } chronicle
      [.writer deferred] stack := by
  have unlaunched := custody.named name deferred lookup
  refine custody.transfer rfl rfl (Ledger.keepsDeferreds_of_eq rfl) ?_ ?_
    (fun _ _ holds => .inl holds) ?_ custody.receipts
  · intro asset
    have totals := Table.total_erase ledger.writers name
      fun deferred => [Asset.writer deferred].count asset
    rw [lookup] at totals
    simp only [Option.map_some, Option.getD_some] at totals
    simp only [Ledger.amount, Holding.amount_cons, Holding.amount_nil, Holding.assets]
    omega
  · intro holding member
    rw [List.mem_singleton.mp member]
    intro work recorded
    simp [unlaunched] at recorded
  · intro other writer found
    rw [Table.find?_erase] at found
    split at found
    · cases found
    · exact custody.named other writer found

/-- A writer is put under a name; one that was there comes into hand. -/
theorem writerNamed {deferred : Nat} (name : Name)
    (custody : Custody ledger chronicle [.writer deferred] stack)
    (unlaunched : chronicle.work deferred = none) :
    Custody { ledger with writers := ledger.writers.insert name deferred } chronicle
      ((ledger.writers.find? name).toList.map .writer) stack := by
  refine custody.transfer rfl rfl (Ledger.keepsDeferreds_of_eq rfl) ?_ ?_
    (fun _ _ holds => .inl holds) ?_ custody.receipts
  · intro asset
    have totals := Table.total_insert ledger.writers name deferred
      fun deferred => [Asset.writer deferred].count asset
    simp only [Ledger.amount, Holding.amount_cons, Holding.amount_nil, Holding.amount_displaced,
      Holding.assets]
    omega
  · intro holding member
    obtain ⟨other, found, rfl⟩ := List.mem_map.mp member
    intro work recorded
    simp [custody.named name other (Option.mem_toList.mp found)] at recorded
  · intro other writer found
    rw [Table.find?_insert] at found
    split at found
    · cases found; exact unlaunched
    · exact custody.named other writer found

/-- A handle is taken from its name. -/
theorem handleTaken {name : Name} {machine : Nat}
    (custody : Custody ledger chronicle [] stack)
    (lookup : ledger.handles.find? name = some machine) :
    Custody { ledger with handles := ledger.handles.erase name } chronicle
      [.share machine] stack := by
  refine custody.transfer rfl rfl (Ledger.keepsDeferreds_of_eq rfl) ?_ ?_
    (fun _ _ holds => .inl holds) custody.named custody.receipts
  · intro asset
    have totals := Table.total_erase ledger.handles name
      fun machine => [Asset.share machine].count asset
    rw [lookup] at totals
    simp only [Option.map_some, Option.getD_some] at totals
    simp only [Ledger.amount, Holding.amount_cons, Holding.amount_nil, Holding.assets]
    omega
  · intro holding member
    rw [List.mem_singleton.mp member]
    trivial

/-- A handle is put under a name; one that was there comes into hand. -/
theorem handleNamed {machine : Nat} (name : Name)
    (custody : Custody ledger chronicle [.share machine] stack) :
    Custody { ledger with handles := ledger.handles.insert name machine } chronicle
      ((ledger.handles.find? name).toList.map .share) stack := by
  refine custody.transfer rfl rfl (Ledger.keepsDeferreds_of_eq rfl) ?_ ?_
    (fun _ _ holds => .inl holds) custody.named custody.receipts
  · intro asset
    have totals := Table.total_insert ledger.handles name machine
      fun machine => [Asset.share machine].count asset
    simp only [Ledger.amount, Holding.amount_cons, Holding.amount_nil, Holding.amount_displaced,
      Holding.assets]
    omega
  · intro holding member
    obtain ⟨other, found, rfl⟩ := List.mem_map.mp member
    trivial

/-- The names of receipts change; a receipt may only be for a public deferred. -/
theorem receiptsChanged {receipts : Table Receipt}
    (custody : Custody ledger chronicle inHand stack)
    (allowed : ∀ name receipt, receipts.find? name = some receipt →
      ledger.Public chronicle receipt.deferred) :
    Custody { ledger with receipts := receipts } chronicle inHand stack :=
  custody.transfer rfl rfl (Ledger.keepsDeferreds_of_eq rfl) (fun _ => rfl)
    (fun holding member => custody.rightful holding (List.mem_append_left _ member))
    (fun _ _ holds => .inl holds) custody.named allowed

theorem receiptNamed {deferred : Nat} (name : Name) (raw : Bool)
    (custody : Custody ledger chronicle inHand stack)
    (isPublic : ledger.Public chronicle deferred) :
    Custody { ledger with receipts := ledger.receipts.insert name ⟨deferred, raw⟩ }
      chronicle inHand stack := by
  refine custody.receiptsChanged ?_
  intro other receipt found
  rw [Table.find?_insert] at found
  split at found
  · cases found; exact isPublic
  · exact custody.receipts other receipt found

theorem receiptDropped (name : Name) (custody : Custody ledger chronicle inHand stack) :
    Custody { ledger with receipts := ledger.receipts.erase name } chronicle inHand
      stack := by
  refine custody.receiptsChanged ?_
  intro other receipt found
  rw [Table.find?_erase] at found
  split at found
  · cases found
  · exact custody.receipts other receipt found

end Stepwise.Custody
