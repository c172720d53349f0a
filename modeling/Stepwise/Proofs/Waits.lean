import Stepwise.Proofs.Continuations

/-!
# Threads that wait

A thread that waits for a deferred registers its wake-up behind whatever is registered
there.  It goes on only when the deferred is complete.  If its wake-up has its turn, what it
returns is the outcome that was published; but a panic of a continuation before it drops the
wake-up, and the thread then makes a shutdown of that.
-/

namespace Stepwise

variable {trace : List Occurrence} {state later : State} {past more : List State}
  {deferred waiter : Nat} {docket : Docket}

/-! ## Who reads a deferred -/

/-- There is one reader of a deferred at most: a receipt, a blocked thread, or a call that is
about to give out one or to block. -/
theorem Reaches.reads_le (reaches : Reaches trace state) (deferred : Nat) :
    state.reads deferred ≤ if (state.world.deferreds.get? deferred).isSome then 1 else 0 := by
  induction reaches with
  | begin program => exact Nat.zero_le _
  | again program _ ended ih =>
      rw [State.reads, ended.1] at ih
      exact ih
  | @next trace state reaches ih =>
      have bound := state.takesEffect.reads deferred
      cases lookup : state.world.deferreds.get? deferred with
      | some found =>
          obtain ⟨changed, present, -⟩ := state.takesEffect.alters.kept deferred found lookup
          simp only [World.adds, lookup, present, Option.isNone_some, Bool.false_and,
            Bool.false_eq_true, if_false, Option.isSome_some, if_true] at bound ih ⊢
          omega
      | none =>
          cases present : state.next.world.deferreds.get? deferred <;>
            simp_all [World.adds]

namespace World

variable {world : World}

/-- A blocked thread is the only reader of its deferred. -/
theorem reads_of_waiter {found : Waiter} (lookup : world.waiters.get? waiter = some found)
    (single : world.reads found.deferred ≤ 1) :
    (∀ receipt, world.awaiter? receipt ≠ some found.deferred) ∧
      ∀ other another, world.waiters.get? other = some another →
        another.deferred = found.deferred → other = waiter := by
  have one := Store.le_total lookup fun sleeper =>
    if sleeper.deferred = found.deferred then 1 else 0
  simp only [if_true] at one
  refine ⟨fun receipt awaited => ?_, fun other another present same => ?_⟩
  · obtain ⟨given, kept, same⟩ := exists_of_awaiter awaited
    have two := Table.le_total kept fun receipt =>
      if receipt.deferred = found.deferred then 1 else 0
    simp only [same, if_true] at two
    simp only [reads] at single
    omega
  · -- Without the one, the other still counts.
    refine Classical.byContradiction fun different => ?_
    have without := Store.total_modify lookup
      (fun sleeper => { sleeper with deferred := found.deferred + 1 })
      fun sleeper => if sleeper.deferred = found.deferred then 1 else 0
    have remains : (world.waiters.modify waiter fun sleeper =>
        { sleeper with deferred := found.deferred + 1 }).get? other = some another := by
      simp [Ne.symm different, present]
    have two := Store.le_total remains fun sleeper =>
      if sleeper.deferred = found.deferred then 1 else 0
    simp only [same, if_true] at two
    simp only [reads] at single
    simp at without
    omega

end World

/-- What was not taken is taken only by whoever retrieves it. -/
theorem State.effect_of_taken (taken : state.next.world.Taken deferred)
    (untaken : ¬ state.world.Taken deferred) : state.effect = .retrieves deferred := by
  obtain ⟨changed, present, progress⟩ := taken
  have alters := state.takesEffect.alters
  cases lookup : state.world.deferreds.get? deferred with
  | none =>
      rw [alters.fresh deferred changed lookup present] at progress
      cases progress
  | some found =>
      obtain ⟨other, again, -, comes⟩ := alters.kept deferred found lookup
      cases again.symm.trans present
      rw [progress] at comes
      have before : found.progress ≠ .taken := fun was => untaken ⟨found, lookup, was⟩
      cases effect : state.effect with
      | nothing | registers _ _ | signals _ _ =>
          rw [effect] at comes
          exact absurd comes.symm before
      | publishes other outcome =>
          rw [effect] at comes
          simp only [Effect.progress] at comes
          split at comes
          · cases comes
          · exact absurd comes.symm before
      | retrieves other =>
          rw [effect] at comes
          simp only [Effect.progress] at comes
          split at comes
          · next same => rw [same]
          · exact absurd comes.symm before

/-- The body of a library machine asks for what it awaits. -/
theorem Body.awaited_of_asks {body : Body} {position : Position}
    (asks : body.asks position = some deferred) : deferred ∈ body.awaited := by
  unfold Body.asks at asks
  split at asks
  · simp [awaited, asks]
  · simp [awaited, asks]
  · simp [awaited, asks]
  · cases asks

/-- Who asks for an outcome has a receipt, or is a thread that was woken. -/
theorem World.cases_of_asks {world : World} {request : Request}
    (asks : world.asks request = some deferred) :
    (∃ receipt, world.awaiter? receipt = some deferred) ∨
      ∃ waiter found, request = .collect waiter ∧ world.waiters.get? waiter = some found ∧
        found.signal = .woken ∧ found.deferred = deferred := by
  unfold World.asks at asks
  split at asks
  · next receipt => exact .inl ⟨receipt, asks⟩
  · next receipt waker =>
      split at asks
      · next awaited _ may =>
          split at asks
          · split at asks
            · cases asks
              exact .inl ⟨receipt, may⟩
            · cases asks
          · cases asks
      · cases asks
  · next waiter =>
      split at asks
      · next found lookup =>
          split at asks
          · next woken => exact .inr ⟨waiter, found, rfl, lookup, woken, Option.some.inj asks⟩
          · cases asks
      · cases asks
  · cases asks

/-- The thread that waits for a deferred is the only one to take its outcome. -/
theorem Passes.collects_of_taken {found : Waiter} (passes : Passes past state)
    (lookup : state.world.waiters.get? waiter = some found)
    (untaken : ¬ state.world.Taken found.deferred)
    (taken : state.next.world.Taken found.deferred) :
    (∃ rest, state.control = .program (.call (.collect waiter) rest)) ∧
      found.signal = .woken := by
  have single : state.world.reads found.deferred ≤ 1 := by
    have bound := passes.reaches.reads_le found.deferred
    rw [State.reads] at bound
    split at bound <;> omega
  obtain ⟨unreceived, alone⟩ := World.reads_of_waiter lookup single
  have exerts := state.exerts
  rw [State.effect_of_taken taken untaken] at exerts
  cases exerts with
  | @asks request rest _ calls asks =>
      rcases World.cases_of_asks asks with ⟨receipt, may⟩ | ⟨other, another, rfl, present, woken,
        same⟩
      · exact absurd may (unreceived receipt)
      · cases alone other another present same
        cases lookup.symm.trans present
        exact ⟨⟨rest, calls⟩, woken⟩
  | steps calls there asks =>
      have order := passes.reaches.inOrder
      have custody := order.custody (by simp [calls])
      have isPublic := (custody.waiters waiter found lookup).isPublic
      exact absurd (passes.reaches.seated.seated.grounded.awaits _ _ _ there
        (Body.awaited_of_asks asks)) (isPublic.unlaunched _)

/-! ## Wake-ups -/

/-- A panic has left the wake-up of a thread in the batch. -/
def Broken (entries : List Entry) (waiter : Nat) : Prop :=
  ∃ left, .broke left ∈ entries ∧ .signal waiter ∈ left

/-- The wake-up of a thread is on the docket, is about to run, or was left by a panic. -/
inductive Due (docket : Docket) (entries : List Entry) (waiter : Nat) (control : Control) :
    Prop where
  | listed : .signal waiter ∈ docket.left → (∀ left, docket ≠ .broken left) →
      Due docket entries waiter control
  | running : control = .task (.run (.signal waiter)) → Due docket entries waiter control
  | broken : Broken entries waiter → Due docket entries waiter control

/-- A thread waits for a deferred: as long as it sleeps, its wake-up is due, and it loses it only
to a panic. -/
structure WaitsOn (entries : List Entry) (docket : Docket) (deferred waiter : Nat)
    (state : State) : Prop where
  found : ∃ found, state.world.waiters.get? waiter = some found ∧ found.deferred = deferred ∧
    found.run = none ∧ (found.signal = .waiting → Due docket entries waiter state.control) ∧
      (found.signal = .lost → Broken entries waiter)

theorem Broken.append {entries : List Entry} (broken : Broken entries waiter)
    (more : List Entry) : Broken (entries ++ more) waiter := by
  obtain ⟨left, broke, among⟩ := broken
  exact ⟨left, List.mem_append_left _ broke, among⟩

/-- A wake-up that does not run now is due after a small step. -/
theorem Due.next {entries : List Entry} {later : Docket}
    (due : Due docket entries waiter state.control)
    (idle : state.control ≠ .task (.run (.signal waiter)))
    (turns : docket.Turns (state.noted? deferred) later) :
    Due later (entries ++ (state.noted? deferred).toList) waiter state.next.control := by
  cases due with
  | running runs => exact absurd runs idle
  | broken broken => exact .broken (broken.append _)
  | listed among unbroken =>
      generalize noted : state.noted? deferred = entry at turns
      cases turns with
      | still => exact .listed among unbroken
      | ran continuation _ => exact .listed among unbroken
      | published => exact .listed among fun _ => by simp
      | kept continuation =>
          exact .listed (List.mem_append_left _ among) fun _ => by simp
      | broke => exact .broken ⟨_, List.mem_append_right _ (List.mem_singleton_self _), among⟩
      | fired =>
          rcases List.mem_cons.mp among with rfl | rest
          · exact .running (State.control_of_runs (by rw [noted]; rfl))
          · exact .listed rest fun _ => by simp

namespace Custody

variable {ledger : Ledger} {chronicle : Chronicle} {inHand : List Holding} {stack : Stack}
  {world : World}

/-- A wake-up in hand belongs to a thread that sleeps, and is nowhere else. -/
theorem only_signal {found : Waiter} (custody : Custody ledger chronicle inHand stack)
    (lookup : ledger.waiters.get? waiter = some found)
    (carried : 0 < Holding.amount (.signal waiter) inHand) :
    found.signal = .waiting ∧ ledger.amount (.signal waiter) = 0 ∧
      Holding.amount (.signal waiter) stack.holdings = 0 := by
  have account := custody.signals waiter
  simp only [Ledger.WaiterAccount, lookup, Ledger.total, Holding.amount_append] at account
  split at account
  · next asleep => exact ⟨asleep, by omega, by omega⟩
  · omega

end Custody

theorem Stack.mem_of_rests {stack : Stack} {rest : List Continuation}
    (member : rest ∈ stack.rests deferred) : .firing deferred rest ∈ stack := by
  obtain ⟨batch, among, same⟩ := List.mem_filterMap.mp member
  obtain ⟨frame, held, fires⟩ := List.mem_filterMap.mp among
  cases frame with
  | firing other rest =>
      cases fires
      simp only [Option.ite_none_right_eq_some, Option.some.injEq] at same
      obtain ⟨rfl, rfl⟩ := same
      exact held
  | _ => cases fires

/-- What is on a docket is kept by the deferred or waits in the batch on the stack. -/
theorem Docket.Accords.held {world : World} {stack : Stack}
    (accords : docket.Accords world stack deferred)
    (listed : .signal waiter ∈ docket.left) (unbroken : ∀ left, docket ≠ .broken left) :
    0 < world.ledger.amount (.signal waiter) ∨
      0 < Holding.amount (.signal waiter) stack.holdings := by
  cases docket with
  | broken left => exact absurd rfl (unbroken left)
  | pending kept =>
      left
      obtain ⟨-, keeps⟩ := accords
      cases lookup : world.deferreds.get? deferred with
      | none =>
          simp only [lookup] at keeps
          subst keeps
          cases listed
      | some found =>
          simp only [lookup] at keeps
          refine @Ledger.amount_pos_of_holds _ _ (.registered deferred) (.signal waiter)
            ⟨found, lookup, ?_⟩ (List.mem_singleton_self _)
          rw [keeps.2]
          exact listed
  | complete rest =>
      right
      obtain ⟨-, one | ⟨rfl, -⟩⟩ := accords
      · have member : rest ∈ stack.rests deferred := by simp [one]
        refine Holding.amount_pos_of_mem (List.mem_flatMap.mpr
          ⟨_, Stack.mem_of_rests member, List.mem_map.mpr ⟨_, listed, rfl⟩⟩) ?_
        exact List.mem_singleton_self _
      · cases listed

/-- While the wake-up of a thread is due and does not run now, the deferred is pending, the wake-up
waits for its turn, or a panic has left it. -/
theorem Due.sleeps {world : World} {stack : Stack} {entries : List Entry} {control : Control}
    (due : Due docket entries waiter control) (idle : control ≠ .task (.run (.signal waiter)))
    (accords : docket.Accords world stack deferred) :
    ¬ world.ledger.Completed deferred ∨
      (∃ rest, rest ∈ stack.rests deferred ∧ .signal waiter ∈ rest) ∨ Broken entries waiter := by
  cases due with
  | broken broken => exact .inr (.inr broken)
  | running runs => exact absurd runs idle
  | listed among unbroken =>
      cases docket with
      | broken left => exact absurd rfl (unbroken left)
      | complete rest =>
          obtain ⟨-, one | ⟨rfl, -⟩⟩ := accords
          · exact .inr (.inl ⟨rest, by simp [one], among⟩)
          · cases among
      | pending kept =>
          refine .inl fun completed => ?_
          obtain ⟨found, lookup, complete⟩ := completed
          have present : world.deferreds.get? deferred = some found := lookup
          obtain ⟨-, keeps⟩ := accords
          simp only [present, complete] at keeps
          cases keeps.1

namespace State

/-- A thread that sleeps after a small step slept before, and was not woken. -/
theorem slept_of_sleeping {found : Waiter}
    (asleep : state.effect.signal waiter found = .waiting) :
    found.signal = .waiting ∧ state.control ≠ .task (.run (.signal waiter)) := by
  constructor
  · have exerts := state.exerts
    generalize state.effect = effect at exerts asleep
    cases exerts with
    | wakes | loses =>
        simp only [Effect.signal] at asleep
        split at asleep
        · cases asleep
        · exact asleep
    | _ => exact asleep
  · intro runs
    have effect : state.effect = .signals waiter .woken := by
      simp [State.effect, runs, Continuation.settles]
    simp [effect, Effect.signal] at asleep

/-- A thread loses its wake-up only when that is dropped. -/
theorem discards_of_lost {found : Waiter} (lost : state.effect.signal waiter found = .lost)
    (before : found.signal ≠ .lost) :
    state.control = .task (.discard (.continuation (.signal waiter))) := by
  have exerts := state.exerts
  generalize state.effect = effect at exerts lost
  cases exerts with
  | wakes _ =>
      simp only [Effect.signal] at lost
      split at lost
      · cases lost
      · exact absurd lost before
  | loses drops =>
      simp only [Effect.signal] at lost
      split at lost
      · next here => rw [drops, here]
      · exact absurd lost before
  | _ => exact absurd lost before

end State

/-- The wake-up of a thread is due as long as the thread sleeps, and is lost only to a panic. -/
structure Signal.Follows (signal : Signal) (entries : List Entry) (docket : Docket) (waiter : Nat)
    (control : Control) : Prop where
  due : signal = .waiting → Due docket entries waiter control
  lost : signal = .lost → Broken entries waiter

/-- The signal of a thread that waits follows its wake-up with every small step. -/
theorem Passes.follows_next {found changed : Waiter} {later : Docket}
    (passes : Passes past state) (accords : docket.Accords state.world state.stack deferred)
    (turns : docket.Turns (state.noted? deferred) later)
    (lookup : state.world.waiters.get? waiter = some found)
    (follows : found.signal.Follows (log deferred past) docket waiter state.control)
    (settles : changed.signal = state.effect.signal waiter found) :
    changed.signal.Follows (log deferred (past ++ [state])) later waiter state.next.control := by
  rw [log_snoc]
  refine ⟨fun asleep => ?_, fun gone => ?_⟩
  · obtain ⟨slept, idle⟩ := State.slept_of_sleeping (settles.symm.trans asleep)
    exact (follows.due slept).next idle turns
  · by_cases before : found.signal = .lost
    · exact (follows.lost before).append _
    · have drops := State.discards_of_lost (settles.symm.trans gone) before
      have custody := passes.reaches.inOrder.custody (by simp [drops])
      obtain ⟨asleep, unkept, unheld⟩ := custody.only_signal lookup (by
        simp [drops, Control.holdings, Task.holdings, Owned.holdings, Holding.assets,
          Continuation.assets])
      cases follows.due asleep with
      | listed among unbroken =>
          rcases accords.held among unbroken with kept | held
          · omega
          · omega
      | running runs => cases runs.symm.trans drops
      | broken broken => exact broken.append _

/-- A thread that waits goes on so with every small step. -/
theorem Passes.waitsOn_next (passes : Passes past state)
    (comes : (Docket.pending []).Comes (log deferred past) docket)
    (accords : docket.Accords state.world state.stack deferred)
    (waits : WaitsOn (log deferred past) docket deferred waiter state) :
    ∃ later, (Docket.pending []).Comes (log deferred (past ++ [state])) later ∧
      later.Accords state.next.world state.next.stack deferred ∧
        WaitsOn (log deferred (past ++ [state])) later deferred waiter state.next := by
  obtain ⟨later, turns, comesOn, agrees⟩ := passes.accords_next comes accords
  refine ⟨later, comesOn, agrees, ?_⟩
  obtain ⟨found, lookup, same, alone, due, lost⟩ := waits
  obtain ⟨changed, present, still, settles, given⟩ :=
    state.takesEffect.rouses waiter found lookup
  have none : changed.run = none := by
    rcases given with kept | none
    · exact kept.trans alone
    · exact none
  obtain ⟨dueStill, lostStill⟩ := passes.follows_next accords turns lookup ⟨due, lost⟩ settles
  exact ⟨changed, present, still.trans same, none, dueStill, lostStill⟩

/-- A thread that waits goes on so for the rest of the run. -/
theorem Passes.waitsOn_goesOn (passes : Passes past state)
    (comes : (Docket.pending []).Comes (log deferred past) docket)
    (accords : docket.Accords state.world state.stack deferred)
    (waits : WaitsOn (log deferred past) docket deferred waiter state)
    (goesOn : state.GoesOn more later) :
    ∃ reached, (Docket.pending []).Comes (log deferred (past ++ more)) reached ∧
      reached.Accords later.world later.stack deferred ∧
        WaitsOn (log deferred (past ++ more)) reached deferred waiter later := by
  induction goesOn with
  | here => exact ⟨docket, by simpa using comes, accords, by simpa using waits⟩
  | next goesOn ih =>
      obtain ⟨reached, comes, accords, waits⟩ := ih
      rw [← List.append_assoc]
      exact (passes.goesOn goesOn).waitsOn_next comes accords waits
  | again program _ ended ih =>
      obtain ⟨reached, comes, accords, waits⟩ := ih
      rw [ended.1] at accords
      refine ⟨reached, comes, accords, ?_⟩
      obtain ⟨found, lookup, same, alone, due, lost⟩ := waits
      refine ⟨found, lookup, same, alone, fun asleep => ?_, lost⟩
      cases due asleep with
      | listed among unbroken => exact .listed among unbroken
      | broken broken => exact .broken broken
      | running runs => rcases ended.2 with ⟨_, replies⟩ | ⟨_, unwinds⟩ <;> simp_all

/-- A wake-up that is registered is due afterwards. -/
theorem Due.of_registers {later : Docket} {found : Deferred}
    (still : state.turned? deferred = none)
    (effect : state.effect = .registers deferred (.signal waiter))
    (lookup : state.world.deferreds.get? deferred = some found)
    (turns : docket.Turns (state.noted? deferred) later) :
    Due later (log deferred (past ++ [state])) waiter state.next.control := by
  have entry : state.noted? deferred = some (if found.isComplete then
      .ran (.signal waiter) else .kept (.signal waiter)) := by
    rw [State.noted?, still, lookup, effect]
    simp [Effect.noted?]
  rw [entry] at turns
  cases complete : found.isComplete with
  | true =>
      exact .running (State.next_of_registers effect
        (by rw [World.isComplete_of_get? lookup, complete])).1
  | false =>
      simp only [complete, Bool.false_eq_true, if_false] at turns
      cases turns with
      | kept _ =>
          exact .listed (List.mem_append_right _ (List.mem_singleton_self _)) fun _ => by simp

/-- A thread that begins to wait has its wake-up registered. -/
theorem Passes.waitsOn_of_wait {receipt : Name} {rest : Reply → Program}
    (passes : Passes past state)
    (calls : state.control = .program (.call (.wait receipt) rest))
    (may : state.world.awaiter? receipt = some deferred) :
    ∃ docket, (Docket.pending []).Comes (log deferred (past ++ [state])) docket ∧
      docket.Accords state.next.world state.next.stack deferred ∧
        WaitsOn (log deferred (past ++ [state])) docket deferred state.world.waiters.size
          state.next := by
  obtain ⟨docket, comes, accords⟩ := passes.accords deferred
  obtain ⟨later, turns, comesOn, agrees⟩ := passes.accords_next comes accords
  refine ⟨later, comesOn, agrees, ?_⟩
  obtain ⟨found, lookup⟩ : ∃ found, state.world.deferreds.get? deferred = some found := by
    have custody := passes.reaches.inOrder.custody (by simp [calls])
    obtain ⟨given, kept, rfl⟩ := World.exists_of_awaiter may
    exact Option.isSome_iff_exists.mp (custody.receipts receipt given kept).1
  have effect : state.effect = .registers deferred (.signal state.world.waiters.size) := by
    simp [State.effect, calls, World.effect, may]
  have asleep : state.next.world.waiters.get? state.world.waiters.size =
      some ⟨deferred, .waiting, none⟩ := by
    obtain ⟨world, stack, control⟩ := state
    subst calls
    simp only [State.next, State.requesting, World.withAwaiter_of_awaiter may, State.waiting,
      State.registering]
    split <;> simp [State.replying, World.modifyDeferred]
  refine ⟨_, asleep, rfl, rfl, fun _ => ?_, fun lost => by cases lost⟩
  exact .of_registers (State.turned_of_calling (by simp [calls]) (by simp [calls]))
    effect lookup turns

/-! ## What a thread is told -/

/-- What a thread that has waited is told when it asks whether it was woken. -/
theorem State.next_of_collect {found : Waiter} {rest : Reply → Program}
    (calls : state.control = .program (.call (.collect waiter) rest))
    (lookup : state.world.waiters.get? waiter = some found) (alone : found.run = none) :
    state.next.control = .reply (match found.signal with
      | .waiting => .notYet
      | .woken => .outcome (state.world.retrieve found.deferred).2
      | .lost => .outcome (.error .shutdown)) := by
  obtain ⟨world, stack, control⟩ := state
  subst calls
  have present : world.waiters.get? waiter = some found := lookup
  simp only [next, requesting, collecting, present, alone]
  cases found.signal with
  | waiting | lost => rfl
  | woken =>
      simp only [disposing, replying, World.retrieve, World.modifyWaiter]
      split <;> rfl

/-- What a thread that waits for a deferred is told. -/
inductive Told (past : List State) (deferred waiter : Nat) (state : State) : Prop where
  /-- Nothing, as long as the deferred is pending, its wake-up has not had its turn, or a panic
  is about to drop it. -/
  | nothing : state.next.control = .reply .notYet →
      (¬ state.world.ledger.Completed deferred ∨
        (∃ rest, rest ∈ state.stack.rests deferred ∧ .signal waiter ∈ rest) ∨
        Broken (log deferred past) waiter) → Told past deferred waiter state
  /-- The outcome that was published. -/
  | outcome {outcome : Outcome} : state.world.ledger.Completed deferred →
      Published past deferred outcome → state.next.control = .reply (.outcome outcome) →
        Told past deferred waiter state
  /-- A shutdown, when a panic of a continuation has left its wake-up. -/
  | robbed : state.world.ledger.Completed deferred → Broken (log deferred past) waiter →
      state.next.control = .reply (.outcome (.error .shutdown)) →
        Told past deferred waiter state

/-- As long as a thread has not been told an outcome, nobody has taken it. -/
theorem Passes.untaken_goesOn (passes : Passes past state)
    (comes : (Docket.pending []).Comes (log deferred past) docket)
    (accords : docket.Accords state.world state.stack deferred)
    (waits : WaitsOn (log deferred past) docket deferred waiter state)
    (untaken : ¬ state.world.Taken deferred) (goesOn : state.GoesOn more later)
    (slept : ∀ visited ∈ more, ∀ rest,
      visited.control = .program (.call (.collect waiter) rest) →
        visited.next.control = .reply .notYet) :
    ¬ later.world.Taken deferred := by
  induction goesOn with
  | here => exact untaken
  | again program _ _ ih => exact ih slept
  | @next more later goesOn ih =>
      intro taken
      have before := ih fun visited member => slept visited (List.mem_append_left _ member)
      obtain ⟨reached, -, -, found, lookup, rfl, alone, -⟩ :=
        passes.waitsOn_goesOn comes accords waits goesOn
      obtain ⟨⟨rest, calls⟩, woken⟩ :=
        (passes.goesOn goesOn).collects_of_taken lookup before taken
      have told := State.next_of_collect calls lookup alone
      rw [slept later (List.mem_append_right _ (List.mem_singleton_self _)) rest calls, woken]
        at told
      cases told

/-- Whoever retrieves the outcome of a complete deferred that was not taken gets what was
published. -/
theorem Passes.published_of_retrieve (passes : Passes past state)
    (completed : state.world.ledger.Completed deferred)
    (untaken : ¬ state.world.Taken deferred) :
    Published past deferred (state.world.retrieve deferred).2 := by
  obtain ⟨found, present, complete⟩ := completed
  have lookup : state.world.deferreds.get? deferred = some found := present
  cases progress : found.progress with
  | pending => simp [Deferred.isComplete, progress] at complete
  | taken => exact absurd ⟨found, lookup, progress⟩ untaken
  | complete outcome =>
      simpa [World.retrieve, lookup, Deferred.retrieved, progress] using
        passes.published_of_complete lookup progress

/-- A thread that waits for a deferred whose outcome was not taken is told nothing before the
deferred is complete.  Then it is told the outcome that was published, unless a continuation that
was registered before has panicked: the panic drops its wake-up, and it is told a shutdown. -/
theorem wait_outcome {receipt : Name} {rest after : Reply → Program}
    (passes : Passes past state)
    (calls : state.control = .program (.call (.wait receipt) rest))
    (may : state.world.awaiter? receipt = some deferred)
    (untaken : ¬ state.world.Taken deferred) (goesOn : state.next.GoesOn more later)
    (slept : ∀ visited ∈ more, ∀ rest,
      visited.control = .program (.call (.collect state.world.waiters.size) rest) →
        visited.next.control = .reply .notYet)
    (asks : later.control = .program (.call (.collect state.world.waiters.size) after)) :
    Told (past ++ state :: more) deferred state.world.waiters.size later := by
  obtain ⟨docket, comes, accords, waits⟩ := passes.waitsOn_of_wait calls may
  have still : ¬ state.next.world.Taken deferred := by
    intro taken
    have exerts := state.exerts
    rw [State.effect_of_taken taken untaken] at exerts
    cases exerts with
    | asks same asks =>
        cases calls.symm.trans same
        cases asks
    | steps same _ _ => cases calls.symm.trans same
  have fresh := passes.next.untaken_goesOn comes accords waits still goesOn slept
  obtain ⟨reached, -, agrees, found, lookup, same, alone, due, lost⟩ :=
    passes.next.waitsOn_goesOn comes accords waits goesOn
  have passed := passes.next.goesOn goesOn
  rw [List.append_assoc, List.singleton_append] at due lost passed
  have told := State.next_of_collect asks lookup alone
  have completed (awake : found.signal ≠ .waiting) :
      later.world.ledger.Completed deferred := by
    rw [← same]
    exact ((passed.reaches.inOrder.custody (by simp [asks])).waiters _ found lookup).awake awake
  cases signal : found.signal with
  | waiting =>
      rw [signal] at told
      exact .nothing told ((due signal).sleeps (by simp [asks]) agrees)
  | lost =>
      rw [signal] at told
      exact .robbed (completed (by simp [signal])) (lost signal) told
  | woken =>
      rw [signal, same] at told
      have whole := completed (by simp [signal])
      exact .outcome whole (passed.published_of_retrieve whole fresh) told

/-- Register a callback, wait behind it, complete the deferred, and ask what the thread that waits
is told. -/
def Program.sleeping (first : Program) : Program :=
  .call (.pending (.shared "result") false (.shared "writer")) fun _ =>
    .call (.onComplete (.shared "result") first) fun _ =>
      .call (.wait (.shared "result")) fun _ =>
        .call (.attempt (.call (.complete (.shared "writer") (.ok .null)) .ret)) fun _ =>
          .call (.collect 0) .ret

/-- The thread is about to wait. -/
def State.sleeping (first : Program) : State :=
  ((State.ofProgram .initial (.sleeping first)).walk 5).2

/-- Whether a small step asks a thread that waits. -/
def State.collects (state : State) : Bool :=
  match state.control with
  | .program (.call (.collect _) _) => true
  | _ => false

theorem State.not_collects {states : List State} {waiter : Nat}
    (silent : states.all (fun visited => !visited.collects) = true) :
    ∀ visited ∈ states, ∀ rest, visited.control = .program (.call (.collect waiter) rest) →
      visited.next.control = .reply .notYet := by
  intro visited member rest calls
  have collects := List.all_eq_true.mp silent visited member
  simp [State.collects, calls] at collects

/-- The thread is told what was published. -/
theorem wait_outcome_sleeping :
    ∃ past, Told past 0 0 ((State.sleeping (.ret .done)).next.walk 16).2 ∧
      ((State.sleeping (.ret .done)).next.walk 16).2.next.control =
        .reply (.outcome (.ok .null)) := by
  refine ⟨_, wait_outcome ((Passes.begin (.sleeping (.ret .done))).walk 5) rfl rfl ?_
    (State.goesOn_walk _ 16) (State.not_collects (by decide +kernel)) rfl, rfl⟩
  rintro ⟨found, lookup, taken⟩
  cases lookup
  cases taken

/-- Whether a small step publishes an error. -/
def State.publishesError (state : State) : Bool :=
  match state.control with
  | .task (.publish _ (.error _)) => true
  | _ => false

/-- Not every thread that waits is told what was published: behind a callback that panics, it is
told a shutdown, although the outcome of the deferred is another. -/
theorem wait_outcome_robbed :
    ¬ ∀ past state more later deferred receipt rest after outcome, Passes past state →
      state.control = .program (.call (.wait receipt) rest) →
      state.world.awaiter? receipt = some deferred → ¬ state.world.Taken deferred →
      state.next.GoesOn more later →
      (∀ visited ∈ more, ∀ rest,
        visited.control = .program (.call (.collect state.world.waiters.size) rest) →
          visited.next.control = .reply .notYet) →
      later.control = .program (.call (.collect state.world.waiters.size) after) →
      later.next.control = .reply (.outcome outcome) →
        Published (past ++ state :: more) deferred outcome := by
  intro honest
  have untaken : ¬ (State.sleeping (.panic (.text "boom"))).world.Taken 0 := by
    rintro ⟨found, lookup, taken⟩
    cases lookup
    cases taken
  obtain ⟨before, member, publishes⟩ := honest _ _ _ _ 0 _ _ _ (.error .shutdown)
    ((Passes.begin (.sleeping (.panic (.text "boom")))).walk 5) rfl rfl untaken
    (State.goesOn_walk _ 16) (State.not_collects (by decide +kernel)) rfl rfl
  have never : (([] ++ (State.ofProgram .initial (.sleeping (.panic (.text "boom")))).visits 5 ++
      State.sleeping (.panic (.text "boom")) ::
        (State.sleeping (.panic (.text "boom"))).next.visits 16).all fun before =>
          !before.publishesError) = true := by decide +kernel
  have honestly := List.all_eq_true.mp never before member
  simp [State.publishesError, publishes] at honestly

end Stepwise
