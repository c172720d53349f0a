import Stepwise.Proofs.Custody.Holding

/-!
# The ledger of a world

The ledger is the part of the world that owns things: continuations registered on
deferreds or kept by schedulers, observers of machines, blocked threads, and what
user code owns under names.
-/

namespace Stepwise

/-- The part of a world that owns things. -/
structure Ledger where
  deferreds : Store Deferred
  activations : Store Activation
  pools : Store Pool
  loops : Store EventLoop
  queues : Store ManualQueue
  waiters : Store Waiter
  receipts : Table Receipt
  writers : Table Nat
  handles : Table Nat

/-- The part of a world that owns things. -/
def World.ledger (world : World) : Ledger where
  deferreds := world.deferreds
  activations := world.activations
  pools := world.pools
  loops := world.loops
  queues := world.queues
  waiters := world.waiters
  receipts := world.receipts
  writers := world.writers
  handles := world.handles

/-- What a blocked thread stands for. -/
def Waiter.assets (waiter : Waiter) : List Asset :=
  match waiter.run with
  | some (_, machine) => [.share machine]
  | none => []

/-- What a started machine stands for: its observer may own a writer. -/
def Activation.assets (activation : Activation) : List Asset :=
  match activation.observer with
  | some observer => observer.assets
  | none => []

/-- A blocked thread keeps nothing but a share of the machine that it runs. -/
theorem Waiter.eq_share_of_mem {waiter : Waiter} {asset : Asset}
    (carried : asset ∈ waiter.assets) : ∃ machine, asset = .share machine := by
  unfold assets at carried
  split at carried
  · exact ⟨_, List.mem_singleton.mp carried⟩
  · cases carried

/-- A started machine keeps nothing but the writer of its observer. -/
theorem Activation.eq_writer_of_mem {activation : Activation} {asset : Asset}
    (carried : asset ∈ activation.assets) :
    ∃ deferred, asset = .writer deferred ∧ activation.observer = some (.writer deferred) := by
  unfold assets at carried
  split at carried
  · next observer watching =>
      cases observer with
      | callback _ => cases carried
      | writer deferred => exact ⟨deferred, List.mem_singleton.mp carried, watching⟩
  · cases carried

namespace Ledger

variable {ledger : Ledger} {asset : Asset}

/-- How much of an asset the world owns. -/
def amount (ledger : Ledger) (asset : Asset) : Nat :=
  ledger.deferreds.total (fun deferred => Continuation.amount asset deferred.continuations) +
  ledger.pools.total (fun pool => Continuation.amount asset pool.jobs) +
  ledger.loops.total (fun loop => Continuation.amount asset loop.queue) +
  ledger.queues.total (fun queue => Continuation.amount asset (queue.filterMap id)) +
  ledger.waiters.total (fun waiter => waiter.assets.count asset) +
  ledger.activations.total (fun activation => activation.assets.count asset) +
  ledger.writers.total (fun deferred => [Asset.writer deferred].count asset) +
  ledger.handles.total (fun machine => [Asset.share machine].count asset)

/-- The world keeps a continuation at a site. -/
def Holds (ledger : Ledger) (site : Site) (continuation : Continuation) : Prop :=
  match site with
  | .registered deferred =>
      ∃ found, ledger.deferreds.get? deferred = some found ∧
        continuation ∈ found.continuations
  | .queued (.pool pool) =>
      ∃ found, ledger.pools.get? pool = some found ∧ continuation ∈ found.jobs
  | .queued (.loop loop) =>
      ∃ found, ledger.loops.get? loop = some found ∧ continuation ∈ found.queue
  | .queued (.queue queue) =>
      ∃ found, ledger.queues.get? queue = some found ∧ some continuation ∈ found
  | _ => False

section

variable {site : Site} {continuation : Continuation}

/-! With one store exchanged, the world keeps what it kept, or keeps it in that store. -/

theorem Holds.of_deferreds {deferreds : Store Deferred}
    (holds : { ledger with deferreds := deferreds }.Holds site continuation) :
    ledger.Holds site continuation ∨
      ∃ deferred found, site = .registered deferred ∧
        deferreds.get? deferred = some found ∧ continuation ∈ found.continuations := by
  cases site with
  | registered deferred =>
      obtain ⟨found, lookup, member⟩ := holds
      exact .inr ⟨deferred, found, rfl, lookup, member⟩
  | queued scheduler => cases scheduler <;> exact .inl holds
  | _ => exact .inl holds

theorem Holds.of_pools {pools : Store Pool}
    (holds : { ledger with pools := pools }.Holds site continuation) :
    ledger.Holds site continuation ∨
      ∃ pool found, site = .queued (.pool pool) ∧
        pools.get? pool = some found ∧ continuation ∈ found.jobs := by
  cases site with
  | queued scheduler =>
      cases scheduler with
      | pool pool =>
          obtain ⟨found, lookup, member⟩ := holds
          exact .inr ⟨pool, found, rfl, lookup, member⟩
      | _ => exact .inl holds
  | _ => exact .inl holds

theorem Holds.of_loops {loops : Store EventLoop}
    (holds : { ledger with loops := loops }.Holds site continuation) :
    ledger.Holds site continuation ∨
      ∃ loop found, site = .queued (.loop loop) ∧
        loops.get? loop = some found ∧ continuation ∈ found.queue := by
  cases site with
  | queued scheduler =>
      cases scheduler with
      | loop loop =>
          obtain ⟨found, lookup, member⟩ := holds
          exact .inr ⟨loop, found, rfl, lookup, member⟩
      | _ => exact .inl holds
  | _ => exact .inl holds

theorem Holds.of_queues {queues : Store ManualQueue}
    (holds : { ledger with queues := queues }.Holds site continuation) :
    ledger.Holds site continuation ∨
      ∃ queue found, site = .queued (.queue queue) ∧
        queues.get? queue = some found ∧ some continuation ∈ found := by
  cases site with
  | queued scheduler =>
      cases scheduler with
      | queue queue =>
          obtain ⟨found, lookup, member⟩ := holds
          exact .inr ⟨queue, found, rfl, lookup, member⟩
      | _ => exact .inl holds
  | _ => exact .inl holds

end

/-- What the world keeps at a site counts. -/
theorem amount_pos_of_holds {site : Site} {continuation : Continuation}
    (holds : ledger.Holds site continuation) (carried : asset ∈ continuation.assets) :
    0 < ledger.amount asset := by
  have counts {continuations : List Continuation} (member : continuation ∈ continuations) :
      0 < Continuation.amount asset continuations :=
    Continuation.amount_pos_of_mem member carried
  unfold amount
  match site, holds with
  | .registered _, ⟨found, lookup, member⟩ =>
      have bound := Store.le_total lookup fun deferred =>
        Continuation.amount asset deferred.continuations
      have positive := counts member
      omega
  | .queued (.pool _), ⟨found, lookup, member⟩ =>
      have bound := Store.le_total lookup fun pool => Continuation.amount asset pool.jobs
      have positive := counts member
      omega
  | .queued (.loop _), ⟨found, lookup, member⟩ =>
      have bound := Store.le_total lookup fun loop => Continuation.amount asset loop.queue
      have positive := counts member
      omega
  | .queued (.queue _), ⟨found, lookup, member⟩ =>
      have bound := Store.le_total lookup fun queue =>
        Continuation.amount asset (queue.filterMap id)
      have positive := counts ((List.mem_filterMap (f := id)).mpr ⟨_, member, rfl⟩)
      omega

/-- What the world owns is kept at a site, by a blocked thread, by an observer, or
under a name. -/
theorem exists_of_amount_pos (positive : 0 < ledger.amount asset) :
    (∃ site continuation, ledger.Holds site continuation ∧ asset ∈ continuation.assets) ∨
    (∃ number waiter, ledger.waiters.get? number = some waiter ∧ asset ∈ waiter.assets) ∨
    (∃ number activation, ledger.activations.get? number = some activation ∧
      asset ∈ activation.assets) ∨
    (∃ name deferred, ledger.writers.find? name = some deferred ∧
      asset = .writer deferred) ∨
    (∃ name machine, ledger.handles.find? name = some machine ∧
      asset = .share machine) := by
  have kept {α : Type} {store : Store α} {contents : α → List Continuation}
      (counted : 0 < store.total fun value => Continuation.amount asset (contents value)) :
      ∃ number value, store.get? number = some value ∧
        ∃ continuation ∈ contents value, asset ∈ continuation.assets := by
    obtain ⟨number, value, lookup, heavy⟩ := Store.exists_of_total_pos counted
    exact ⟨number, value, lookup, List.mem_flatMap.mp (List.count_pos_iff.mp heavy)⟩
  have owned {α : Type} {store : Store α} {contents : α → List Asset}
      (counted : 0 < store.total fun value => (contents value).count asset) :
      ∃ number value, store.get? number = some value ∧ asset ∈ contents value := by
    obtain ⟨number, value, lookup, heavy⟩ := Store.exists_of_total_pos counted
    exact ⟨number, value, lookup, List.count_pos_iff.mp heavy⟩
  have named {table : Table Nat} {contents : Nat → Asset}
      (counted : 0 < table.total fun value => [contents value].count asset) :
      ∃ name value, table.find? name = some value ∧ asset = contents value := by
    obtain ⟨name, value, lookup, heavy⟩ := Table.exists_of_total_pos counted
    exact ⟨name, value, lookup, List.mem_singleton.mp (List.count_pos_iff.mp heavy)⟩
  have parts :
      0 < ledger.deferreds.total
          (fun deferred => Continuation.amount asset deferred.continuations) ∨
      0 < ledger.pools.total (fun pool => Continuation.amount asset pool.jobs) ∨
      0 < ledger.loops.total (fun loop => Continuation.amount asset loop.queue) ∨
      0 < ledger.queues.total
          (fun queue => Continuation.amount asset (queue.filterMap id)) ∨
      0 < ledger.waiters.total (fun waiter => waiter.assets.count asset) ∨
      0 < ledger.activations.total (fun activation => activation.assets.count asset) ∨
      0 < ledger.writers.total (fun deferred => [Asset.writer deferred].count asset) ∨
      0 < ledger.handles.total (fun machine => [Asset.share machine].count asset) := by
    unfold amount at positive
    omega
  rcases parts with counted | counted | counted | counted | counted | counted | counted |
    counted
  · obtain ⟨number, found, lookup, continuation, member, carried⟩ := kept counted
    exact .inl ⟨.registered number, continuation, ⟨found, lookup, member⟩, carried⟩
  · obtain ⟨number, found, lookup, continuation, member, carried⟩ := kept counted
    exact .inl ⟨.queued (.pool number), continuation, ⟨found, lookup, member⟩, carried⟩
  · obtain ⟨number, found, lookup, continuation, member, carried⟩ := kept counted
    exact .inl ⟨.queued (.loop number), continuation, ⟨found, lookup, member⟩, carried⟩
  · obtain ⟨number, found, lookup, continuation, member, carried⟩ := kept counted
    have present : some continuation ∈ found := by simpa using member
    exact .inl ⟨.queued (.queue number), continuation, ⟨found, lookup, present⟩, carried⟩
  · exact .inr (.inl (owned counted))
  · exact .inr (.inr (.inl (owned counted)))
  · exact .inr (.inr (.inr (.inl (named counted))))
  · exact .inr (.inr (.inr (.inr (named counted))))

variable {machine deferred waiter : Nat}

theorem exists_of_resumption_pos (kept : 0 < ledger.amount (.resumption machine)) :
    ∃ site continuation, ledger.Holds site continuation ∧
      .resumption machine ∈ continuation.assets := by
  rcases exists_of_amount_pos kept with held | ⟨_, _, -, carried⟩ | ⟨_, _, -, carried⟩ |
    ⟨_, _, -, other⟩ | ⟨_, _, -, other⟩
  · exact held
  · obtain ⟨_, other⟩ := Waiter.eq_share_of_mem carried
    cases other
  · obtain ⟨_, other, -⟩ := Activation.eq_writer_of_mem carried
    cases other
  · cases other
  · cases other

theorem exists_of_signal_pos (kept : 0 < ledger.amount (.signal waiter)) :
    ∃ site, ledger.Holds site (.signal waiter) := by
  rcases exists_of_amount_pos kept with ⟨site, _, holds, carried⟩ | ⟨_, _, -, carried⟩ |
    ⟨_, _, -, carried⟩ | ⟨_, _, -, other⟩ | ⟨_, _, -, other⟩
  · cases Continuation.eq_signal_of_signal carried
    exact ⟨site, holds⟩
  · obtain ⟨_, other⟩ := Waiter.eq_share_of_mem carried
    cases other
  · obtain ⟨_, other, -⟩ := Activation.eq_writer_of_mem carried
    cases other
  · cases other
  · cases other

theorem cases_of_writer_pos (kept : 0 < ledger.amount (.writer deferred)) :
    (∃ site work, ledger.Holds site (.job deferred work)) ∨
    (∃ machine found, ledger.activations.get? machine = some found ∧
      found.observer = some (.writer deferred)) ∨
    ∃ name, ledger.writers.find? name = some deferred := by
  rcases exists_of_amount_pos kept with ⟨site, _, holds, carried⟩ | ⟨_, _, -, carried⟩ |
    ⟨machine, found, lookup, carried⟩ | ⟨name, _, named, same⟩ | ⟨_, _, -, other⟩
  · obtain ⟨work, rfl⟩ := Continuation.eq_job_of_writer carried
    exact .inl ⟨site, work, holds⟩
  · obtain ⟨_, other⟩ := Waiter.eq_share_of_mem carried
    cases other
  · obtain ⟨_, same, watching⟩ := Activation.eq_writer_of_mem carried
    cases same
    exact .inr (.inl ⟨machine, found, lookup, watching⟩)
  · cases same
    exact .inr (.inr ⟨name, named⟩)
  · cases other

/-- The world itself claims no machine. -/
theorem unclaimed (ledger : Ledger) (machine : Nat) : ledger.amount (.claim machine) = 0 := by
  refine Nat.eq_zero_of_not_pos fun kept => ?_
  rcases exists_of_amount_pos kept with ⟨_, continuation, -, carried⟩ | ⟨_, _, -, carried⟩ |
    ⟨_, _, -, carried⟩ | ⟨_, _, -, other⟩ | ⟨_, _, -, other⟩
  · cases continuation with
    | callback _ => cases carried
    | _ => cases List.mem_singleton.mp carried
  · obtain ⟨_, other⟩ := Waiter.eq_share_of_mem carried
    cases other
  · obtain ⟨_, other, -⟩ := Activation.eq_writer_of_mem carried
    cases other
  · cases other
  · cases other

end Ledger

end Stepwise
