import Stepwise.Proofs.Custody.Transfer

/-!
# Custody of machines

A machine changes while its resumption, its claim or one of its shares is in hand,
and its life goes on with it.  While the resumption or the claim is in hand, it is
nowhere else, so nothing that rests speaks of what changes.
-/

namespace Stepwise

/-- To leave a machine as it is changes nothing. -/
theorem Ledger.modify_activation_id (ledger : Ledger) (machine : Nat) :
    { ledger with activations := ledger.activations.modify machine id } = ledger := by
  rw [Store.modify_id]

namespace Custody

variable {ledger : Ledger} {chronicle sequel : Chronicle} {stack : Stack}
  {before after inHand : List Holding} {machine : Nat} {found : Activation}
  {change : Activation → Activation}

/-- The shares in a machine are none of the writers and wake-ups. -/
theorem count_assets_of_machine (activation : Activation) {asset : Asset}
    (member : asset ∈ [Asset.resumption machine, .claim machine, .share machine]) :
    activation.assets.count asset = 0 := by
  simp only [Activation.assets]
  cases activation.observer with
  | none => rfl
  | some observer =>
      cases observer with
      | callback body => rfl
      | writer deferred =>
          simp only [List.mem_cons, List.not_mem_nil, or_false] at member
          rcases member with rfl | rfl | rfl <;> simp [Observer.assets]

/-- What rests of a machine's shares, of which there are as many as owners. -/
theorem accords_of_lookup (custody : Custody ledger chronicle inHand stack)
    (lookup : ledger.activations.get? machine = some found) :
    found.Accords (chronicle.life machine)
      (ledger.total [] stack (.resumption machine) +
        Holding.amount (.resumption machine) inHand)
      (ledger.total [] stack (.claim machine) + Holding.amount (.claim machine) inHand)
      (ledger.total [] stack (.share machine) + Holding.amount (.share machine) inHand) := by
  have account := custody.machines machine
  simp only [Ledger.MachineAccount, lookup] at account
  rw [Ledger.total_inHand, Ledger.total_inHand _ _ _ (.claim machine),
    Ledger.total_inHand _ _ _ (.share machine)] at account
  exact account

/-- A machine of which something is owned was started. -/
theorem exists_of_owned (custody : Custody ledger chronicle inHand stack) (machine : Nat)
    {asset : Asset}
    (member : asset ∈ [Asset.resumption machine, .claim machine, .share machine])
    (owned : 0 < Holding.amount asset inHand) :
    ∃ found, ledger.activations.get? machine = some found := by
  have account := custody.machines machine
  cases lookup : ledger.activations.get? machine with
  | some found => exact ⟨found, rfl⟩
  | none =>
      have split := ledger.total_inHand inHand stack asset
      simp only [Ledger.MachineAccount, lookup] at account
      obtain ⟨resumptions, claims, shares, -⟩ := account
      simp only [List.mem_cons, List.not_mem_nil, or_false] at member
      rcases member with rfl | rfl | rfl <;> omega

/-- A machine changes, and its life with it. -/
theorem evolved (custody : Custody ledger chronicle before stack)
    (lookup : ledger.activations.get? machine = some found)
    (life : ∀ other, other ≠ machine → sequel.life other = chronicle.life other)
    (observer : (sequel.life machine).observer = (chronicle.life machine).observer)
    (work : sequel.work = chronicle.work)
    (balance : ∀ asset, asset ∉ [Asset.resumption machine, .claim machine, .share machine] →
      (change found).assets.count asset + Holding.amount asset after =
        found.assets.count asset + Holding.amount asset before)
    (accords : (change found).Accords (sequel.life machine)
      (ledger.total [] stack (.resumption machine) +
        Holding.amount (.resumption machine) after)
      (ledger.total [] stack (.claim machine) + Holding.amount (.claim machine) after)
      (ledger.total [] stack (.share machine) + Holding.amount (.share machine) after))
    (suspended : ledger.total [] stack (.resumption machine) = 0 ∨
      ((change found).scheduler = found.scheduler ∧
        (change found).pending = found.pending))
    (stepping : ledger.total [] stack (.claim machine) = 0 ∨
      ((change found).position = found.position ∧
        (sequel.life machine).step = (chronicle.life machine).step))
    (observed : ∀ deferred, (change found).observer = some (.writer deferred) →
      found.observer = some (.writer deferred))
    (rightful : ∀ holding ∈ after, holding.Rightful
      { ledger with activations := ledger.activations.modify machine change } sequel) :
    Custody { ledger with activations := ledger.activations.modify machine change } sequel
      after stack := by
  have totals (asset : Asset) :
      Ledger.total { ledger with activations := ledger.activations.modify machine change }
          after stack asset + found.assets.count asset =
        ledger.total [] stack asset + (change found).assets.count asset +
          Holding.amount asset after := by
    have changed := Store.total_modify lookup change
      fun activation => activation.assets.count asset
    simp only [Ledger.total, Ledger.amount, Holding.amount_append, List.nil_append]
      at changed ⊢
    omega
  have same (asset : Asset)
      (other : asset ∉ [Asset.resumption machine, .claim machine, .share machine]) :
      Ledger.total { ledger with activations := ledger.activations.modify machine change }
        after stack asset = ledger.total before stack asset := by
    have changed := totals asset
    have balanced := balance asset other
    have split := ledger.total_inHand before stack asset
    omega
  have endures : ledger.Endures
      { ledger with activations := ledger.activations.modify machine change } chronicle sequel
      fun asset => asset ∈ [Asset.resumption machine, .claim machine] ∧
        ledger.total [] stack asset = 0 := by
    refine ⟨?_, ?_, fun other _ => by rw [work], fun _ completed => completed, ?_,
      fun _ _ waits => waits, ?_⟩
    · rintro other still scheduler deferred ⟨present, otherLookup, isScheduler, isPending⟩
      by_cases equal : machine = other
      · subst equal
        rcases suspended with absent | ⟨sameScheduler, samePending⟩
        · exact absurd ⟨by simp, absent⟩ still
        · cases lookup.symm.trans otherLookup
          exact ⟨change found, by simp [lookup], sameScheduler.trans isScheduler,
            samePending.trans isPending⟩
      · exact ⟨present, by simp [equal, otherLookup], isScheduler, isPending⟩
    · rintro other still ⟨present, otherLookup, step⟩
      by_cases equal : machine = other
      · subst equal
        rcases stepping with absent | ⟨samePosition, sameStep⟩
        · exact absurd ⟨by simp, absent⟩ still
        · cases lookup.symm.trans otherLookup
          exact ⟨change found, by simp [lookup], by rw [sameStep, samePosition, step]⟩
      · exact ⟨present, by simp [equal, otherLookup], by rw [life other (Ne.symm equal), step]⟩
    · rintro deferred ⟨present, launched⟩
      exact ⟨present, by rw [work]; exact launched⟩
    · intro other deferred promised
      by_cases equal : other = machine
      · subst equal
        exact observer.trans promised
      · rw [life other equal]
        exact promised
  refine custody.proceed endures (fun _ moved => moved.2) ?_ ?_ ?_ rightful
    (fun _ _ holds => .inl holds) ?_ ?_
    (fun name receipt named => endures.isPublic _ (custody.receipts name receipt named))
    (fun waiter blocked waiting => endures.blocks (custody.waiters waiter blocked waiting))
  · intro other
    by_cases equal : other = machine
    · subst equal
      have plain (asset : Asset)
          (member : asset ∈ [Asset.resumption other, .claim other, .share other]) :
          Ledger.total { ledger with activations := ledger.activations.modify other change }
              after stack asset =
            ledger.total [] stack asset + Holding.amount asset after := by
        have changed := totals asset
        rw [count_assets_of_machine found member,
          count_assets_of_machine (change found) member] at changed
        omega
      simp only [Ledger.MachineAccount, Store.get?_modify, if_true, lookup, Option.map_some]
      rw [plain _ (by simp), plain (.claim other) (by simp), plain (.share other) (by simp)]
      exact accords
    · exact (custody.machines other).congr (by simp [Ne.symm equal]) (life other equal)
        fun asset member => same asset (by
          simp only [List.mem_cons, List.not_mem_nil, or_false] at member
          rcases member with rfl | rfl | rfl <;> simp [equal])
  · intro other
    exact (custody.deferreds other).congr rfl (by rw [work]) (same _ (by simp))
  · intro waiter
    exact (custody.signals waiter).congr rfl (same _ (by simp))
  · rw [work]
    exact custody.named
  · intro other present deferred otherLookup written
    rw [work]
    rcases Store.get?_of_modify lookup otherLookup with ⟨rfl, rfl⟩ | old
    · exact custody.observed other found deferred lookup (observed deferred written)
    · exact custody.observed other present deferred old written

/-! ## The resumption or the claim in hand -/

/-- A machine whose claim is in hand: it is running, and nothing else may use it. -/
structure Claimed (ledger : Ledger) (chronicle : Chronicle) (stack : Stack) (machine : Nat)
    (found : Activation) : Prop where
  lookup : ledger.activations.get? machine = some found
  resumptions : ledger.total [] stack (.resumption machine) = 0
  claims : ledger.total [] stack (.claim machine) = 0
  shares : ledger.total [] stack (.share machine) + 1 = found.owners
  status : found.status = .running
  observer : found.Observed (chronicle.life machine)
  untold : (chronicle.life machine).told = none
  cancelled : found.cancelled = (chronicle.life machine).cancelled

/-- A machine whose resumption is in hand: it is suspended, and nothing else may
resume it. -/
structure Suspended (ledger : Ledger) (chronicle : Chronicle) (stack : Stack)
    (machine : Nat) (found : Activation) : Prop where
  lookup : ledger.activations.get? machine = some found
  resumptions : ledger.total [] stack (.resumption machine) = 0
  claims : ledger.total [] stack (.claim machine) = 0
  shares : ledger.total [] stack (.share machine) + 1 = found.owners
  status : found.status = .idle
  observer : found.Observed (chronicle.life machine)
  untold : (chronicle.life machine).told = none
  cancelled : found.cancelled = (chronicle.life machine).cancelled
  waits : found.Waits (chronicle.life machine)

theorem claimed {old : Holding} (custody : Custody ledger chronicle [old] stack)
    (machine : Nat) (was : old.assets = [.claim machine]) :
    ∃ found, Claimed ledger chronicle stack machine found := by
  obtain ⟨found, lookup⟩ := custody.exists_of_owned machine
    (.tail _ (.head _)) (by simp [was])
  have accords := custody.accords_of_lookup lookup
  simp only [Activation.Accords, Holding.amount_cons, Holding.amount_nil, was,
    List.count_singleton_self, List.count_singleton, beq_iff_eq, reduceCtorEq, if_false]
    at accords
  obtain ⟨cancelled, owners, status⟩ := accords
  cases state : found.status with
  | idle | finished => simp [state] at status
  | running =>
      simp only [state] at status
      obtain ⟨resumptions, claims, untold, observer, -⟩ := status
      have alone : ledger.total [] stack (.claim machine) = 0 := by omega
      exact ⟨found, lookup, by omega, alone, by omega, state, observer (by omega), untold,
        cancelled⟩

theorem suspended {old : Holding} (custody : Custody ledger chronicle [old] stack)
    (machine : Nat) (was : old.assets = [.resumption machine]) :
    ∃ found, Suspended ledger chronicle stack machine found := by
  obtain ⟨found, lookup⟩ := custody.exists_of_owned machine (.head _) (by simp [was])
  have accords := custody.accords_of_lookup lookup
  simp only [Activation.Accords, Holding.amount_cons, Holding.amount_nil, was,
    List.count_singleton_self, List.count_singleton, beq_iff_eq, reduceCtorEq, if_false]
    at accords
  obtain ⟨cancelled, owners, status⟩ := accords
  cases state : found.status with
  | running | finished => simp [state] at status
  | idle =>
      simp only [state] at status
      obtain ⟨resumptions, claims, observer, untold, waits⟩ := status
      exact ⟨found, lookup, by omega, by omega, by omega, state, observer, untold, cancelled,
        waits⟩

/-- What was in hand of a machine is passed on as something else of it, while the
machine and its life change. -/
theorem passed {old new : Holding} {taken given : Asset}
    (custody : Custody ledger chronicle [old] stack)
    (lookup : ledger.activations.get? machine = some found)
    (apart : ledger.total [] stack (.resumption machine) = 0 ∧
      ledger.total [] stack (.claim machine) = 0)
    (was : old.assets = [taken])
    (ofMachine : taken ∈ [Asset.resumption machine, .claim machine, .share machine])
    (is : new.assets = [given])
    (forMachine : given ∈ [Asset.resumption machine, .claim machine, .share machine])
    (life : ∀ other, other ≠ machine → sequel.life other = chronicle.life other)
    (observes : (sequel.life machine).observer = (chronicle.life machine).observer)
    (work : sequel.work = chronicle.work)
    (observer : (change found).observer = found.observer)
    (accords : (change found).Accords (sequel.life machine)
      ([given].count (.resumption machine)) ([given].count (.claim machine))
      (ledger.total [] stack (.share machine) + [given].count (.share machine)))
    (rightful : new.Rightful
      { ledger with activations := ledger.activations.modify machine change } sequel) :
    Custody { ledger with activations := ledger.activations.modify machine change } sequel
      [new] stack := by
  refine custody.evolved lookup life observes work ?_ ?_ (.inl apart.1) (.inl apart.2) ?_ ?_
  · intro asset other
    have same : (change found).assets = found.assets := by
      simp only [Activation.assets, observer]
    have notTaken : taken ≠ asset := fun equal => other (equal ▸ ofMachine)
    have notGiven : given ≠ asset := fun equal => other (equal ▸ forMachine)
    simp [same, was, is, notTaken, notGiven]
  · simpa [apart.1, apart.2, is] using accords
  · intro deferred written
    rw [observer] at written
    exact written
  · intro holding member
    rw [List.mem_singleton.mp member]
    exact rightful

/-- Nobody owns anything of the next machine yet, and nothing has happened to it. -/
theorem unowned_next_machine (custody : Custody ledger chronicle inHand stack) :
    (∀ asset ∈ [Asset.resumption ledger.activations.size, .claim ledger.activations.size,
        .share ledger.activations.size], ledger.total inHand stack asset = 0) ∧
      chronicle.life ledger.activations.size = .unborn := by
  have account := custody.machines ledger.activations.size
  have absent : ledger.activations.get? ledger.activations.size = none := by
    simp [Store.get?, Store.size]
  simp only [Ledger.MachineAccount, absent] at account
  obtain ⟨resumptions, claims, shares, unborn⟩ := account
  exact ⟨by simp [resumptions, claims, shares], unborn⟩

/-- What stood before a machine was started still stands. -/
theorem endures_begun (ledger : Ledger) (fresh : Activation)
    (unborn : chronicle.life ledger.activations.size = .unborn)
    (life : ∀ other, other ≠ ledger.activations.size →
      sequel.life other = chronicle.life other)
    (work : sequel.work = chronicle.work) :
    ledger.Endures { ledger with activations := ledger.activations.push fresh } chronicle
      sequel fun _ => False := by
  have older {other : Nat} {present : Activation}
      (lookup : ledger.activations.get? other = some present) :
      other ≠ ledger.activations.size := by
    intro equal
    simp [equal, Store.get?, Store.size] at lookup
  refine ⟨?_, ?_, fun _ _ => by rw [work], fun _ completed => completed, ?_,
    fun _ _ waits => waits, ?_⟩
  · rintro other _ scheduler deferred ⟨present, lookup, isScheduler, isPending⟩
    exact ⟨present, by simp [older lookup, lookup], isScheduler, isPending⟩
  · rintro other _ ⟨present, lookup, step⟩
    exact ⟨present, by simp [older lookup, lookup], by rw [life other (older lookup), step]⟩
  · rintro deferred ⟨present, launched⟩
    exact ⟨present, by rw [work]; exact launched⟩
  · intro other deferred promised
    by_cases next : other = ledger.activations.size
    · subst next
      simp [Life.Promises, unborn, Life.unborn] at promised
    · rw [life other next]
      exact promised

/-- A machine is started: its first resumption and its starter's share come into
hand. -/
theorem begun {body : Body} {scheduler : Scheduler} {observer : Observer} {form : Machine}
    (custody : Custody ledger chronicle before stack)
    (balance : ∀ asset, Holding.amount asset before =
      observer.assets.count asset + Holding.amount asset inHand)
    (rests : ∀ holding ∈ inHand, holding ∈ before ∧ holding.rests = true)
    (observed : ∀ deferred, observer = .writer deferred → chronicle.work deferred = none) :
    Custody
      { ledger with activations := ledger.activations.push (.fresh body scheduler observer) }
      (chronicle.after (.started ledger.activations.size form observer))
      (.resuming ledger.activations.size :: .share ledger.activations.size :: inHand)
      stack := by
  obtain ⟨unowned, unborn⟩ := custody.unowned_next_machine
  have life (other : Nat) (older : other ≠ ledger.activations.size) :
      (chronicle.after (.started ledger.activations.size form observer)).life other =
        chronicle.life other := by
    simp [Chronicle.after, older]
  have endures := endures_begun ledger (.fresh body scheduler observer) unborn life rfl
  have totals (asset : Asset) :
      Ledger.total
          { ledger with activations :=
              ledger.activations.push (.fresh body scheduler observer) }
          (.resuming ledger.activations.size :: .share ledger.activations.size :: inHand)
          stack asset =
        ledger.total before stack asset +
          [Asset.resumption ledger.activations.size,
            .share ledger.activations.size].count asset := by
    have balanced := balance asset
    simp only [Ledger.total, Ledger.amount, Store.total_push, Activation.fresh,
      Activation.assets, List.cons_append, Holding.amount_cons, Holding.amount_append,
      Holding.assets, List.count_cons, List.count_nil] at balanced ⊢
    omega
  have same (asset : Asset)
      (other : asset ∉ [Asset.resumption ledger.activations.size,
        .share ledger.activations.size]) :
      Ledger.total
          { ledger with activations :=
              ledger.activations.push (.fresh body scheduler observer) }
          (.resuming ledger.activations.size :: .share ledger.activations.size :: inHand)
          stack asset =
        ledger.total before stack asset := by
    rw [totals, List.count_eq_zero.mpr other, Nat.add_zero]
  refine custody.proceed endures (fun _ moved => moved.elim) ?_ ?_ ?_ ?_
    (fun _ _ holds => .inl holds) custody.named ?_
    (fun name receipt named => endures.isPublic _ (custody.receipts name receipt named))
    (fun waiter blocked waiting => endures.blocks (custody.waiters waiter blocked waiting))
  · intro other
    by_cases next : other = ledger.activations.size
    · subst next
      simp only [Ledger.MachineAccount, Store.get?_push, if_true]
      rw [totals, totals (.claim _), totals (.share _), unowned _ (by simp),
        unowned (.claim _) (by simp), unowned (.share _) (by simp)]
      simp [Activation.Accords, Activation.fresh, Activation.Waits, Activation.Observed,
        Chronicle.after, Life.unborn]
    · exact (custody.machines other).congr (by simp [next]) (life other next)
        fun asset member => same asset (by
          simp only [List.mem_cons, List.not_mem_nil, or_false] at member
          rcases member with rfl | rfl | rfl <;> simp [next])
  · intro other
    exact (custody.deferreds other).congr rfl rfl (same _ (by simp))
  · intro waiter
    exact (custody.signals waiter).congr rfl (same _ (by simp))
  · intro holding member
    rcases List.mem_cons.mp member with rfl | member
    · exact ⟨.fresh body scheduler observer, by simp, .inl ⟨rfl, rfl⟩⟩
    · rcases List.mem_cons.mp member with rfl | old
      · trivial
      · obtain ⟨was, resting⟩ := rests holding old
        have stood := custody.rightful holding (List.mem_append_left _ was)
        exact stood.endures endures resting fun _ _ moved => moved
  · intro other present deferred lookup written
    simp only [Store.get?_push] at lookup
    split at lookup
    · cases lookup
      exact observed deferred (Option.some.inj written)
    · exact custody.observed other present deferred lookup written

end Custody

end Stepwise
