import Stepwise.Proofs.Reticence

/-!
# Deferreds reserved for a thread

The deferred that a thread blocks on while it runs a machine is its own: nobody else has a
receipt for it, listens to it, awaits it or retrieves its outcome.  So nothing runs before
the wake-up of the thread, and no panic loses it.
-/

namespace Stepwise

variable {state : State} {past : List State} {deferred : Nat}

/-- Whether a thread is about to block at a frame, on a deferred. -/
def Frame.blocks (deferred : Nat) : Frame → Bool
  | .blocking _ _ other => other == deferred
  | _ => false

theorem Frame.isBlocking_of_blocks {frame : Frame} (blocks : frame.blocks deferred = true) :
    frame.isBlocking = true := by
  cases frame with
  | blocking _ _ _ => rfl
  | _ => cases blocks

theorem Frame.reads_of_blocks {frame : Frame} (blocks : frame.blocks deferred = true) :
    frame.reads deferred = true := by
  cases frame with
  | blocking _ _ _ => exact blocks
  | _ => cases blocks

namespace State

/-- A deferred is reserved for a thread that runs a machine: it is about to block, or is
blocked. -/
def Reserves (state : State) (deferred : Nat) : Prop :=
  (∃ frame ∈ state.stack, frame.blocks deferred = true) ∨ state.world.IsRunOn deferred

/-! ## Nobody else reads it -/

/-- The thread that a deferred is reserved for can read it: where it is about to block, or where it
is blocked. -/
theorem Reserves.reads_pos (reserves : state.Reserves deferred) :
    (∃ frame ∈ state.stack, frame.blocks deferred = true) ∧
        0 < state.stack.reads deferred ∨
      0 < state.world.waiters.total fun sleeper =>
        if sleeper.deferred = deferred then 1 else 0 := by
  rcases reserves with ⟨frame, member, blocks⟩ | ⟨waiter, found, lookup, rfl, -⟩
  · exact .inl ⟨⟨frame, member, blocks⟩,
      List.countP_pos_iff.mpr ⟨frame, member, frame.reads_of_blocks blocks⟩⟩
  · have one := Store.le_total lookup fun sleeper =>
      if sleeper.deferred = found.deferred then 1 else 0
    simp only [if_true] at one
    exact .inr one

end State

variable {trace : List Occurrence}

namespace Reaches

/-- A reserved deferred is there, and nobody but its thread can read it. -/
theorem reads_of_reserves (reaches : Reaches trace state) (reserves : state.Reserves deferred) :
    (state.world.deferreds.get? deferred).isSome = true ∧ state.reads deferred = 1 := by
  have bound := reaches.reads_le deferred
  have positive : 0 < state.reads deferred := by
    simp only [State.reads, World.reads]
    rcases reserves.reads_pos with ⟨-, counted⟩ | counted <;> omega
  split at bound
  · next present => exact ⟨present, by omega⟩
  · omega

/-- There is no receipt for a reserved deferred. -/
theorem unreceived_of_reserves {name : Name} {found : Receipt} (reaches : Reaches trace state)
    (reserves : state.Reserves deferred)
    (kept : state.world.receipts.find? name = some found) : found.deferred ≠ deferred := by
  intro same
  obtain ⟨-, single⟩ := reaches.reads_of_reserves reserves
  have one := Table.le_total kept fun receipt => if receipt.deferred = deferred then 1 else 0
  simp only [same, if_true] at one
  simp only [State.reads, World.reads] at single
  rcases reserves.reads_pos with ⟨-, counted⟩ | counted <;> omega

/-- No call is about to give out a receipt for a reserved deferred. -/
theorem unplaced_of_reserves {name : Name} {raw : Bool} {callers : Stack}
    (reaches : Reaches trace state) (reserves : state.Reserves deferred) :
    state.stack ≠ .placing name raw deferred :: callers := by
  intro placed
  obtain ⟨-, single⟩ := reaches.reads_of_reserves reserves
  simp only [State.reads, World.reads, placed, Stack.reads_cons, Frame.reads, beq_self_eq_true,
    if_true] at single
  rcases reserves.reads_pos with ⟨⟨frame, member, blocks⟩, -⟩ | counted
  · rw [placed] at member
    rcases List.mem_cons.mp member with rfl | below
    · cases blocks
    · have counted : 0 < Stack.reads callers deferred :=
        List.countP_pos_iff.mpr ⟨frame, below, frame.reads_of_blocks blocks⟩
      omega
  · omega

/-- A small step gives out no receipt for a reserved deferred. -/
theorem ungranted_of_reserves (reaches : Reaches trace state)
    (reserves : state.Reserves deferred) : ¬ state.Grants deferred := by
  intro grants
  cases grants with
  | fresh same =>
      obtain ⟨present, -⟩ := reaches.reads_of_reserves reserves
      simp [same, Store.get?, Store.size] at present
  | again kept same => exact reaches.unreceived_of_reserves reserves kept same
  | placed placed => exact reaches.unplaced_of_reserves reserves placed

end Reaches

/-- A reserved deferred is none that a step of a library machine launched. -/
theorem Custody.public_of_reserves {chronicle : Chronicle} {inHand : List Holding}
    (custody : Custody state.world.ledger chronicle inHand state.stack)
    (reserves : state.Reserves deferred) : state.world.ledger.Public chronicle deferred := by
  rcases reserves with ⟨frame, member, blocks⟩ | ⟨waiter, found, lookup, rfl, -⟩
  · have held : Holding.receipt deferred ∈ frame.holdings := by
      cases frame with
      | blocking machine pool other =>
          cases beq_iff_eq.mp blocks
          simp [Frame.holdings]
      | _ => cases blocks
    exact custody.rightful (.receipt deferred)
      (List.mem_append_right _ (List.mem_flatMap.mpr ⟨frame, member, held⟩))
  · exact (custody.waiters waiter found lookup).isPublic

/-! ## Where reservations come from -/

namespace State

/-- A small step begins to run a machine on a thread of its own. -/
def Runs (state : State) : Prop :=
  ∃ thread runtime form rest, state.control = .program (.call (.run thread runtime form) rest)

/-- A thread blocks in the small step. -/
def BlocksNow (state : State) : Prop :=
  (∃ machine pool deferred callers, state.stack = .blocking machine pool deferred :: callers) ∧
    ∃ reply, state.control = .reply reply

theorem Reticent.of_calm (unrun : ¬ state.Runs) (unblocked : ¬ state.BlocksNow) :
    Reticent state.Grants state.world state.base state.next := by
  refine next_reticent ?_ ?_
  · intro thread runtime form rest calls
    exact unrun ⟨thread, runtime, form, rest, calls⟩
  · intro reply replies
    cases placed : state.stack with
    | nil => rfl
    | cons frame callers =>
        cases frame with
        | blocking machine pool deferred =>
            exact absurd ⟨⟨machine, pool, deferred, callers, placed⟩, reply, replies⟩ unblocked
        | _ => rfl

/-- Where a machine begins to run on a thread, its deferred is the new one. -/
theorem reserves_of_runs (runs : state.Runs) (reserves : state.next.Reserves deferred) :
    state.Reserves deferred ∨ deferred = state.world.deferreds.size := by
  obtain ⟨thread, runtime, form, rest, calls⟩ := runs
  obtain ⟨world, stack, control⟩ := state
  subst calls
  simp only [next, requesting, withNamed] at reserves
  split at reserves
  · refine .inl (reserves.imp_left ?_)
    rintro ⟨frame, member, blocks⟩
    rcases List.mem_cons.mp member with rfl | below
    · cases blocks
    · exact ⟨frame, below, blocks⟩
  · rcases reserves with ⟨frame, member, blocks⟩ | ⟨waiter, found, lookup, awaits, run⟩
    · simp only [runningMachine, starting, List.mem_cons] at member
      rcases member with rfl | rfl | rfl | below
      · exact .inr (beq_iff_eq.mp blocks).symm
      · cases blocks
      · cases blocks
      · exact .inl (.inl ⟨frame, below, blocks⟩)
    · exact .inl (.inr ⟨waiter, found, lookup, awaits, run⟩)

/-- A thread blocks where its frame is the innermost one. -/
theorem next_of_blocking {machine pool : Nat} {callers : Stack}
    (placed : state.stack = .blocking machine pool deferred :: callers)
    (replies : ∃ reply, state.control = .reply reply) :
    state.next.world.waiters =
        state.world.waiters.push ⟨deferred, .waiting, some (pool, machine)⟩ ∧
      state.next.stack = .answering (.reference state.world.waiters.size) :: callers ∧
        state.effect = .registers deferred (.signal state.world.waiters.size) := by
  obtain ⟨reply, replies⟩ := replies
  obtain ⟨world, stack, control⟩ := state
  cases placed
  cases replies
  refine ⟨?_, ?_, rfl⟩ <;>
    · simp only [next, returning, waiting, registering]
      split <;> rfl

/-- Where a thread that runs a machine blocks, its deferred was reserved before. -/
theorem reserves_of_blocksNow (blocks : state.BlocksNow) (reserves : state.next.Reserves deferred) :
    state.Reserves deferred := by
  obtain ⟨⟨machine, pool, reserved, callers, placed⟩, replies⟩ := blocks
  obtain ⟨waiters, stacked, -⟩ := next_of_blocking placed replies
  rcases reserves with ⟨frame, member, blocks⟩ | ⟨waiter, found, lookup, awaits, run⟩
  · rw [stacked] at member
    rcases List.mem_cons.mp member with rfl | below
    · cases blocks
    · refine .inl ⟨frame, ?_, blocks⟩
      rw [placed]
      exact List.mem_cons_of_mem _ below
  · rw [waiters, Store.get?_push] at lookup
    split at lookup
    · cases lookup
      refine .inl ⟨.blocking machine pool reserved, ?_, beq_iff_eq.mpr awaits⟩
      rw [placed]
      exact List.mem_cons_self ..
    · exact .inr ⟨waiter, found, lookup, awaits, run⟩

/-- What a deferred is reserved for it was reserved for before, unless a machine begins to run. -/
theorem reserves_before (reserves : state.next.Reserves deferred) :
    state.Reserves deferred ∨ (state.Runs ∧ deferred = state.world.deferreds.size) := by
  by_cases runs : state.Runs
  · exact (reserves_of_runs runs reserves).imp_right fun same => ⟨runs, same⟩
  · by_cases blocks : state.BlocksNow
    · exact .inl (reserves_of_blocksNow blocks reserves)
    · left
      have reticent := Reticent.of_calm runs blocks
      refine reserves.imp ?_ (reticent.runs deferred)
      rintro ⟨frame, member, blocks⟩
      obtain ⟨new, placed, quiet⟩ := reticent.stack
      rw [placed] at member
      rcases List.mem_append.mp member with above | beneath
      · have silent := List.any_eq_false.mp quiet frame above
        exact absurd (frame.isBlocking_of_blocks blocks) silent
      · exact ⟨frame, mem_of_base beneath, blocks⟩

/-- No receipt is given out where a machine begins to run. -/
theorem given_of_runs (runs : state.Runs) : state.next.world.given = state.world.given := by
  obtain ⟨thread, runtime, form, rest, calls⟩ := runs
  obtain ⟨world, stack, control⟩ := state
  subst calls
  simp only [next, requesting, withNamed]
  split <;> rfl

/-- User code knows a deferred after a small step only if it did before, or is given a receipt. -/
theorem given_before (given : deferred ∈ state.next.world.given) :
    deferred ∈ state.world.given ∨ state.Grants deferred := by
  by_cases runs : state.Runs
  · exact .inl (given_of_runs runs ▸ given)
  · by_cases blocks : state.BlocksNow
    · obtain ⟨⟨machine, pool, reserved, callers, placed⟩, reply, replies⟩ := blocks
      obtain ⟨world, stack, control⟩ := state
      cases placed
      cases replies
      simp only [next, returning, waiting, registering] at given
      split at given <;> exact .inl given
    · exact (Reticent.of_calm runs blocks).given deferred given

end State

/-! ## What happens to its continuations -/

/-- A deferred that does not exist yet has no log. -/
theorem Passes.log_of_absent (passes : Passes past state)
    (absent : state.world.deferreds.get? deferred = none) : log deferred past = [] := by
  induction passes with
  | begin _ => rfl
  | again _ _ _ ih => exact ih absent
  | @next past state passes ih =>
      have before : state.world.deferreds.get? deferred = none := by
        cases lookup : state.world.deferreds.get? deferred with
        | none => rfl
        | some found =>
            obtain ⟨_, present, -⟩ := state.takesEffect.alters.kept deferred found lookup
            cases absent.symm.trans present
      rw [log_snoc, ih before, List.nil_append]
      cases entry : state.noted? deferred with
      | none => rfl
      | some entry =>
          -- Whatever is noted of a deferred has it there.
          obtain ⟨docket, -, accords⟩ := passes.accords deferred
          cases State.happens_of_entry entry with
          | kept _ lookup _ | ran _ lookup _ => cases before.symm.trans lookup
          | published publishes =>
              have custody := passes.reaches.inOrder.custody (by simp [publishes])
              rw [publishes] at custody
              obtain ⟨⟨found, lookup, -⟩, -⟩ :=
                custody.pending_of_writer deferred (by simp [Control.holdings, Task.holdings,
                  Holding.assets])
              have present : state.world.deferreds.get? deferred = some found := lookup
              cases before.symm.trans present
          | fired placed _ | broke placed _ =>
              rw [placed] at accords
              obtain ⟨found, lookup, -⟩ := accords.of_firing.2.1
              cases before.symm.trans lookup

/-- What is registered on a reserved deferred wakes a thread. -/
theorem Passes.signal_of_registers {continuation : Continuation} (passes : Passes past state)
    (reserves : state.Reserves deferred) (ungiven : deferred ∉ state.world.given)
    (registers : state.effect = .registers deferred continuation) :
    ∃ waiter, continuation = .signal waiter := by
  have reaches := passes.reaches
  have exerts := state.exerts
  rw [registers] at exerts
  cases exerts with
  | listens _ kept => exact absurd rfl (reaches.unreceived_of_reserves reserves kept)
  | waits _ _ | blocks _ _ => exact ⟨_, rfl⟩
  | @suspends machine resumeAt _ callers scheduler ends _ =>
      -- A step awaits only what user code knows, or what it has launched itself.
      obtain ⟨placed, reply, replies, judged⟩ := ends
      have custody := reaches.inOrder.custody (by simp [replies])
      have allowed := World.mayAwait_of_judge judged
      simp only [World.mayAwait, Bool.or_eq_true, List.contains_iff_mem] at allowed
      rcases allowed with given | own
      · exact absurd given ungiven
      · cases body : state.world.body? (.started machine) with
        | none => simp [body] at own
        | some found =>
            have awaited : deferred ∈ found.awaited := by simpa [body] using own
            exact absurd (reaches.seated.seated.grounded.awaits _ _ _ body awaited)
              ((custody.public_of_reserves reserves).unlaunched _)

/-- Nothing but wake-ups is registered on a reserved deferred, which no user code knows, and no
panic has left any.  While they are fired nothing else runs. -/
structure Reserved (past : List State) (state : State) (deferred : Nat) : Prop where
  ungiven : deferred ∉ state.world.given
  listens : ∀ continuation ∈ (log deferred past).filterMap Entry.registered?,
    ∃ waiter, continuation = .signal waiter
  whole : ∀ left, .broke left ∉ log deferred past
  fires : ∀ rest ∈ state.stack.rests deferred,
    (∃ below, state.stack = .firing deferred rest :: below) ∧
      ((∃ reply, state.control = .reply reply) ∨
        ∃ waiter, state.control = .task (.run (.signal waiter)))

namespace Reserved

/-- What is noted of a reserved deferred is no panic, and registers wake-ups only. -/
theorem noted {entry : Entry} (reserved : Reserved past state deferred)
    (passes : Passes past state) (reserves : state.Reserves deferred)
    (noted : state.noted? deferred = some entry) :
    (∀ left, entry ≠ .broke left) ∧
      ∀ continuation, entry.registered? = some continuation →
        ∃ waiter, continuation = .signal waiter := by
  cases State.happens_of_entry noted with
  | kept registers _ _ | ran registers _ _ =>
      refine ⟨by rintro _ ⟨⟩, ?_⟩
      rintro continuation ⟨⟩
      exact passes.signal_of_registers reserves reserved.ungiven registers
  | published _ | fired _ _ => exact ⟨by rintro _ ⟨⟩, by rintro _ ⟨⟩⟩
  | @broke left below payload placed unwinds =>
      have member : left ∈ state.stack.rests deferred := by
        rw [placed, Stack.rests_firing, if_pos rfl]
        exact List.mem_cons_self ..
      rcases (reserved.fires left member).2 with ⟨reply, replies⟩ | ⟨waiter, runs⟩
      · cases unwinds.symm.trans replies
      · cases unwinds.symm.trans runs

/-- What waits for its turn wakes a thread. -/
theorem signal_of_left {docket : Docket} {continuation : Continuation}
    (reserved : Reserved past state deferred)
    (comes : (Docket.pending []).Comes (log deferred past) docket)
    (left : continuation ∈ docket.left) : ∃ waiter, continuation = .signal waiter :=
  reserved.listens continuation (comes.runs.mem_iff.mp (List.mem_append_right _ left))

/-- The batch of a reserved deferred is put on the stack when the deferred is published. -/
theorem fires_of_publish {rest : List Continuation} {outcome : Outcome}
    (reserved : Reserved past state deferred)
    (publishes : state.control = .task (.publish deferred outcome))
    (member : rest ∈ state.next.stack.rests deferred) :
    (∃ below, state.next.stack = .firing deferred rest :: below) ∧
      ∃ reply, state.next.control = .reply reply := by
  have unfired : state.stack.rests deferred = [] := by
    refine List.eq_nil_iff_forall_not_mem.mpr fun other among => ?_
    rcases (reserved.fires other among).2 with ⟨reply, replies⟩ | ⟨waiter, runs⟩
    · cases publishes.symm.trans replies
    · cases publishes.symm.trans runs
  obtain ⟨world, stack, control⟩ := state
  subst publishes
  simp only [State.next, State.carryingOut, State.publishing] at member ⊢
  split at member
  · exact absurd member (by simp [State.replying, unfired])
  · next found lookup =>
      rw [Stack.rests_firing, if_pos rfl, unfired, List.mem_singleton] at member
      subst member
      exact ⟨⟨stack, by simp⟩, .done, by simp⟩

/-- In the batch of a reserved deferred a wake-up has its turn. -/
theorem fires_of_turned {rest : List Continuation} {entry : Entry}
    (reserved : Reserved past state deferred) (passes : Passes past state)
    (turned : state.turned? deferred = some entry)
    (member : rest ∈ state.next.stack.rests deferred) :
    (∃ below, state.next.stack = .firing deferred rest :: below) ∧
      ∃ waiter, state.next.control = .task (.run (.signal waiter)) := by
  obtain ⟨docket, comes, accords⟩ := passes.accords deferred
  obtain ⟨below, ⟨first, left, -, placed, reply, replies⟩ |
    ⟨left, payload, -, placed, unwinds⟩⟩ := State.stack_of_turned turned
  · rw [placed] at accords
    obtain ⟨rfl, -, nothing⟩ := accords.of_firing
    obtain ⟨waiter, rfl⟩ := reserved.signal_of_left comes (List.mem_cons_self ..)
    obtain ⟨world, stack, control⟩ := state
    cases placed
    cases replies
    simp only [State.next, State.returning] at member ⊢
    rw [Stack.rests_firing, if_pos rfl, nothing, List.mem_singleton] at member
    subst member
    exact ⟨⟨below, rfl⟩, waiter, rfl⟩
  · have among : left ∈ state.stack.rests deferred := by
      rw [placed, Stack.rests_firing, if_pos rfl]
      exact List.mem_cons_self ..
    rcases (reserved.fires left among).2 with ⟨reply, replies⟩ | ⟨waiter, runs⟩
    · cases unwinds.symm.trans replies
    · cases unwinds.symm.trans runs

/-- After a small step, too, nothing else runs while the wake-ups are fired. -/
theorem fires_next {rest : List Continuation} (reserved : Reserved past state deferred)
    (passes : Passes past state) (member : rest ∈ state.next.stack.rests deferred) :
    (∃ below, state.next.stack = .firing deferred rest :: below) ∧
      ((∃ reply, state.next.control = .reply reply) ∨
        ∃ waiter, state.next.control = .task (.run (.signal waiter))) := by
  by_cases publishes : ∃ outcome, state.control = .task (.publish deferred outcome)
  · obtain ⟨outcome, publishes⟩ := publishes
    exact (reserved.fires_of_publish publishes member).imp_right .inl
  simp only [not_exists] at publishes
  cases turned : state.turned? deferred with
  | some entry => exact (reserved.fires_of_turned passes turned member).imp_right .inr
  | none =>
      -- The batch was on the stack already, innermost.
      obtain ⟨docket, comes, accords⟩ := passes.accords deferred
      have among : rest ∈ state.stack.rests deferred := by
        rcases state.rests_next turned publishes with same | isOver
        · rwa [same]
        · rw [isOver]
          exact List.mem_cons_of_mem _ member
      obtain ⟨⟨below, placed⟩, how⟩ := reserved.fires rest among
      rw [placed] at accords
      obtain ⟨-, -, nothing⟩ := accords.of_firing
      obtain ⟨world, stack, control⟩ := state
      cases placed
      rcases how with ⟨reply, rfl⟩ | ⟨waiter, rfl⟩
      · cases rest with
        | cons first left => simp [State.turned?, Frame.noted?] at turned
        | nil =>
            have batches :=
              (State.takesEffect ⟨world, .firing deferred [] :: below, .reply reply⟩).batches
            have left := congrArg
              (List.filterMap fun batch => if batch.1 = deferred then some batch.2 else none)
              batches
            change (State.next _).stack.rests deferred = Stack.rests deferred below at left
            rw [left, nothing] at member
            cases member
      · exact ⟨⟨below, rfl⟩, .inl ⟨.done, rfl⟩⟩

/-- A reserved deferred stays so with every small step. -/
theorem next (reserved : Reserved past state deferred) (passes : Passes past state)
    (reserves : state.Reserves deferred) : Reserved (past ++ [state]) state.next deferred where
  ungiven := by
    intro given
    rcases State.given_before given with was | grants
    · exact reserved.ungiven was
    · exact passes.reaches.ungranted_of_reserves reserves grants
  listens := by
    intro continuation member
    rw [log_snoc, List.filterMap_append] at member
    rcases List.mem_append.mp member with before | now
    · exact reserved.listens continuation before
    · obtain ⟨entry, here, registers⟩ := List.mem_filterMap.mp now
      exact (reserved.noted passes reserves (Option.mem_toList.mp here)).2 continuation registers
  whole := by
    intro left member
    rw [log_snoc] at member
    rcases List.mem_append.mp member with before | now
    · exact reserved.whole left before
    · exact (reserved.noted passes reserves (Option.mem_toList.mp now)).1 left rfl
  fires := fun _ member => reserved.fires_next passes member

end Reserved

/-- A deferred that is reserved for a thread is known to nobody else, in every state of a run. -/
theorem Passes.reserved (passes : Passes past state) (reserves : state.Reserves deferred) :
    Reserved past state deferred := by
  induction passes with
  | begin _ =>
      rcases reserves with ⟨_, member, -⟩ | ⟨_, _, lookup, -⟩
      · cases member
      · cases lookup
  | @again past state program passes ended ih =>
      have before : state.Reserves deferred := by
        rcases reserves with ⟨_, member, -⟩ | runs
        · cases member
        · exact .inr runs
      obtain ⟨ungiven, listens, whole, -⟩ := ih before
      exact ⟨ungiven, listens, whole, fun _ member => by cases member⟩
  | @next past state passes ih =>
      rcases State.reserves_before reserves with before | ⟨runs, rfl⟩
      · exact (ih before).next passes before
      · -- The deferred is made only now.
        have absent : state.world.deferreds.get? state.world.deferreds.size = none := by
          simp [Store.get?, Store.size]
        have unlogged : log state.world.deferreds.size (past ++ [state]) = [] := by
          obtain ⟨thread, runtime, form, rest, calls⟩ := runs
          rw [log_snoc, passes.log_of_absent absent, State.noted?,
            State.turned_of_calling (by simp [calls]) (by simp [calls]), absent]
          rfl
        have unfired : state.next.stack.rests state.world.deferreds.size = [] := by
          obtain ⟨thread, runtime, form, rest, calls⟩ := runs
          obtain ⟨docket, -, accords⟩ := passes.accords state.world.deferreds.size
          have before : state.stack.rests state.world.deferreds.size = [] := by
            cases docket with
            | pending kept => exact accords.1
            | complete _ | broken _ =>
                obtain ⟨found, lookup, -⟩ := accords.1
                cases absent.symm.trans lookup
          rcases state.rests_next (State.turned_of_calling (by simp [calls]) (by simp [calls]))
            (by simp [calls]) with same | isOver
          · exact same.symm.trans before
          · cases before.symm.trans isOver
        refine ⟨fun given => ?_, by simp [unlogged], by simp [unlogged], by simp [unfired]⟩
        rw [State.given_of_runs runs] at given
        obtain ⟨present, -⟩ := passes.reaches.seated_secluded.2.given _ given
        rw [absent] at present
        cases present

/-! ## The thread -/

/-- A blocked thread that was not there before blocks in the small step. -/
theorem Passes.blocksNow_of_new {waiter : Nat} {found : Waiter} (passes : Passes past state)
    (absent : state.world.waiters.get? waiter = none)
    (lookup : state.next.world.waiters.get? waiter = some found)
    (run : found.run.isSome = true) : state.BlocksNow := by
  refine Classical.byContradiction fun unblocked => ?_
  by_cases runs : state.Runs
  · obtain ⟨thread, runtime, form, rest, calls⟩ := runs
    have same : state.next.world.waiters = state.world.waiters := by
      obtain ⟨world, stack, control⟩ := state
      subst calls
      simp only [State.next, State.requesting, State.withNamed]
      split <;> rfl
    rw [same, absent] at lookup
    cases lookup
  · -- Another thread was blocked on the deferred already, and still is.
    obtain ⟨other, another, present, same, -⟩ :=
      (State.Reticent.of_calm runs unblocked).runs _ ⟨waiter, found, lookup, rfl, run⟩
    obtain ⟨changed, still, awaits, -⟩ := state.takesEffect.rouses other another present
    have single := passes.next.reaches.reads_le found.deferred
    have alone := (World.reads_of_waiter lookup (by
      rw [State.reads] at single
      split at single <;> omega)).2 other changed still (awaits.trans same)
    subst alone
    cases absent.symm.trans present

/-- The signal of a thread that runs a machine follows its wake-up, in every state of a run. -/
theorem Passes.follows_of_run {waiter : Nat} {found : Waiter} (passes : Passes past state)
    (lookup : state.world.waiters.get? waiter = some found) (run : found.run.isSome = true) :
    ∃ docket, (Docket.pending []).Comes (log found.deferred past) docket ∧
      docket.Accords state.world state.stack found.deferred ∧
        found.signal.Follows (log found.deferred past) docket waiter state.control := by
  induction passes generalizing found with
  | begin _ => cases lookup
  | again program passes ended ih =>
      obtain ⟨docket, comes, accords, due, lost⟩ := ih lookup run
      rw [ended.1] at accords
      refine ⟨docket, comes, accords, fun asleep => ?_, lost⟩
      cases due asleep with
      | listed among unbroken => exact .listed among unbroken
      | broken broken => exact .broken broken
      | running runs => rcases ended.2 with ⟨_, replies⟩ | ⟨_, unwinds⟩ <;> simp_all
  | @next past state passes ih =>
      cases present : state.world.waiters.get? waiter with
      | some was =>
          obtain ⟨changed, again, same, settles, given⟩ :=
            state.takesEffect.rouses waiter was present
          cases again.symm.trans lookup
          have ran : was.run.isSome = true := by
            rcases given with kept | none
            · rwa [kept] at run
            · simp [none] at run
          obtain ⟨docket, comes, accords, follows⟩ := ih present ran
          obtain ⟨later, turns, comesOn, agrees⟩ := passes.accords_next comes accords
          rw [same]
          exact ⟨later, comesOn, agrees,
            passes.follows_next accords turns present follows settles⟩
      | none =>
          obtain ⟨⟨machine, pool, deferred, callers, placed⟩, replies⟩ :=
            passes.blocksNow_of_new present lookup run
          obtain ⟨waiters, -, effect⟩ := State.next_of_blocking placed replies
          rw [waiters, Store.get?_push] at lookup
          split at lookup
          · next newest =>
              subst newest
              cases lookup
              obtain ⟨docket, comes, accords⟩ := passes.accords deferred
              obtain ⟨later, turns, comesOn, agrees⟩ := passes.accords_next comes accords
              have reserves : state.Reserves deferred :=
                .inl ⟨.blocking machine pool deferred, by simp [placed], by simp [Frame.blocks]⟩
              obtain ⟨there, isThere⟩ := Option.isSome_iff_exists.mp
                (passes.reaches.reads_of_reserves reserves).1
              refine ⟨later, comesOn, agrees, fun _ => ?_, fun lost => by cases lost⟩
              exact .of_registers (by simp [State.turned?, placed, Frame.noted?]) effect isThere
                turns
          · cases present.symm.trans lookup

/-- A thread that runs a machine loses no wake-up, and sleeps just as long as its deferred is
pending, whenever user code asks. -/
theorem Passes.signal_of_run {waiter : Nat} {found : Waiter} {program : Program}
    (passes : Passes past state) (lookup : state.world.waiters.get? waiter = some found)
    (run : found.run.isSome = true) (asks : state.control = .program program) :
    found.signal ≠ .lost ∧
      (found.signal = .waiting ↔ ¬ state.world.ledger.Completed found.deferred) := by
  have reserved := passes.reserved (.inr ⟨waiter, found, lookup, rfl, run⟩)
  have unbroken : ¬ Broken (log found.deferred past) waiter := by
    rintro ⟨left, broke, -⟩
    exact reserved.whole left broke
  obtain ⟨docket, -, accords, due, lost⟩ := passes.follows_of_run lookup run
  refine ⟨fun gone => unbroken (lost gone), fun asleep => ?_, fun pending => ?_⟩
  · rcases (due asleep).sleeps (by simp [asks]) accords with pending | ⟨rest, among, -⟩ | broken
    · exact pending
    · rcases (reserved.fires rest among).2 with ⟨reply, replies⟩ | ⟨_, runs⟩
      · cases asks.symm.trans replies
      · cases asks.symm.trans runs
    · exact absurd broken unbroken
  · refine Classical.byContradiction fun awake => pending ?_
    have custody := passes.reaches.inOrder.custody (by simp [asks])
    exact (custody.waiters waiter found lookup).awake awake

/-- A thread that asks what it has waited for drops the machine that it ran, if it is awake. -/
theorem State.run_of_collect {waiter : Nat} {found : Waiter} {rest : Reply → Program}
    (calls : state.control = .program (.call (.collect waiter) rest))
    (lookup : state.world.waiters.get? waiter = some found) (woken : found.signal = .woken) :
    ∃ changed, state.next.world.waiters.get? waiter = some changed ∧
      changed.deferred = found.deferred ∧ changed.run = none := by
  obtain ⟨world, stack, control⟩ := state
  subst calls
  have present : world.waiters.get? waiter = some found := lookup
  have same : (next ⟨world, stack, .program (.call (.collect waiter) rest)⟩).world.waiters =
      (world.modifyWaiter waiter fun found => { found with run := none }).waiters := by
    simp only [next, requesting, collecting, present, woken, disposing]
    split <;> exact World.waiters_retrieve _
  refine ⟨{ found with run := none }, ?_, rfl, rfl⟩
  rw [same]
  simp [World.modifyWaiter, present]

/-- Once its outcome was collected, the deferred of a thread is reserved no more. -/
theorem Passes.not_reserves_of_collect {waiter : Nat} {found : Waiter}
    {rest : Reply → Program} (passes : Passes past state)
    (calls : state.control = .program (.call (.collect waiter) rest))
    (lookup : state.world.waiters.get? waiter = some found) (woken : found.signal = .woken) :
    ¬ state.next.Reserves found.deferred := by
  intro reserves
  obtain ⟨changed, present, same, none⟩ := State.run_of_collect calls lookup woken
  obtain ⟨-, single⟩ := passes.next.reaches.reads_of_reserves reserves
  rw [← same] at single reserves
  rcases reserves with ⟨frame, member, blocks⟩ | ⟨other, another, still, awaits, run⟩
  · have one := Store.le_total present fun sleeper =>
      if sleeper.deferred = changed.deferred then 1 else 0
    have two : 0 < state.next.stack.reads changed.deferred :=
      List.countP_pos_iff.mpr ⟨frame, member, frame.reads_of_blocks blocks⟩
    simp only [if_true] at one
    simp only [State.reads, World.reads] at single
    omega
  · have alone := (World.reads_of_waiter present (by
      rw [State.reads] at single
      omega)).2 other another still awaits
    subst alone
    cases present.symm.trans still
    simp [none] at run

/-- The outcome of a reserved deferred is there for its thread. -/
theorem Passes.untaken_of_reserves (passes : Passes past state)
    (reserves : state.Reserves deferred) : ¬ state.world.Taken deferred := by
  induction passes with
  | begin _ =>
      rintro ⟨found, lookup, -⟩
      cases lookup
  | again program passes ended ih =>
      refine ih ?_
      rcases reserves with ⟨_, member, -⟩ | runs
      · cases member
      · exact .inr runs
  | @next past state passes ih =>
      intro taken
      have untaken : ¬ state.world.Taken deferred := by
        rcases State.reserves_before reserves with before | ⟨-, rfl⟩
        · exact ih before
        · rintro ⟨found, lookup, -⟩
          simp [Store.get?, Store.size] at lookup
      have exerts := state.exerts
      rw [State.effect_of_taken taken untaken] at exerts
      have before : state.Reserves deferred := by
        rcases State.reserves_before reserves with before | ⟨⟨_, _, _, _, runs⟩, -⟩
        · exact before
        · cases exerts with
          | asks calls asks =>
              cases runs.symm.trans calls
              cases asks
          | steps calls _ _ => cases runs.symm.trans calls
      cases exerts with
      | steps calls there asks =>
          have custody := passes.reaches.inOrder.custody (by simp [calls])
          exact absurd (passes.reaches.seated.seated.grounded.awaits _ _ _ there
            (Body.awaited_of_asks asks)) ((custody.public_of_reserves before).unlaunched _)
      | asks calls asks =>
          rcases World.cases_of_asks asks with ⟨receipt, may⟩ | ⟨waiter, found, rfl, lookup,
            woken, rfl⟩
          · obtain ⟨given, kept, same⟩ := World.exists_of_awaiter may
            exact passes.reaches.unreceived_of_reserves before kept same
          · exact passes.not_reserves_of_collect calls lookup woken reserves

end Stepwise
