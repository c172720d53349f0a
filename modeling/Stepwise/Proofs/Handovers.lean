import Mathlib.Data.List.Nodup
import Stepwise.Proofs.Continuations
import Stepwise.Proofs.FastPath
import Stepwise.Proofs.Origins
import Stepwise.Proofs.Promise
import Stepwise.Proofs.Pools.Tidy

/-!
# How machines are handed to their schedulers

A machine whose step awaits something pending is suspended, and what resumes it is registered
there.  When the deferred is completed, the machine is handed to its scheduler, once and within
the completing call.  Nothing else hands a machine over, so there are as many hand-overs as
suspensions on what is complete.
-/

namespace Stepwise

variable {state : State} {past : List State} {machine deferred : Nat} {scheduler : Scheduler}

/-- Whether a continuation hands a machine to its scheduler. -/
def Continuation.handsOver (machine : Nat) : Continuation → Bool
  | .handOver _ other => other == machine
  | _ => false

namespace State

/-- The deferred that the step of a machine awaits when it ends, if it is pending. -/
def suspended? (machine : Nat) (state : State) : Option Nat :=
  match state.stack, state.control with
  | .stepping other :: _, .reply reply =>
      if other = machine then
        match state.world.judge machine reply with
        | .await _ deferred => if state.world.isComplete deferred then none else some deferred
        | _ => none
      else none
  | _, _ => none

/-- The deferred whose batch has a machine sent to its scheduler. -/
def handedOver? (machine : Nat) (state : State) : Option Nat :=
  match state.stack, state.control with
  | .firing deferred _ :: _, .task (.schedule _ (.resumption other)) =>
      if other = machine then some deferred else none
  | _, _ => none

/-- The deferred whose batch comes to the continuation that hands a machine over. -/
def firing? (machine : Nat) (state : State) : Option Nat :=
  match state.stack, state.control with
  | .firing deferred (first :: _) :: _, .reply _ =>
      if first.handsOver machine then some deferred else none
  | _, _ => none

/-- The deferred whose batch is about to hand a machine over, or does so. -/
def handing? (machine : Nat) (state : State) : Option Nat :=
  match state.stack, state.control with
  | .firing deferred _ :: _, .task (.run continuation) =>
      if continuation.handsOver machine then some deferred else none
  | .firing deferred _ :: _, .task (.schedule _ (.resumption other)) =>
      if other = machine then some deferred else none
  | _, _ => none

end State

/-- What a machine has been suspended on, oldest first. -/
def suspensions (machine : Nat) (past : List State) : List Nat :=
  past.filterMap (State.suspended? machine)

/-- What a machine was suspended on when it was sent to its scheduler, oldest first. -/
def handOvers (machine : Nat) (past : List State) : List Nat :=
  past.filterMap (State.handedOver? machine)

/-- The batches that have come to a machine, oldest first. -/
def firings (machine : Nat) (past : List State) : List Nat :=
  past.filterMap (State.firing? machine)

/-! ## Suspensions and batches in the log -/

namespace State

/-- A machine is suspended where its step registers what hands it over. -/
theorem registers_of_suspended (suspended : state.suspended? machine = some deferred) :
    ∃ scheduler, state.effect = .registers deferred (.handOver scheduler machine) := by
  obtain ⟨world, stack, control⟩ := state
  unfold suspended? at suspended
  split at suspended
  · next other callers reply placed replies =>
      cases placed
      cases replies
      split at suspended
      · next same =>
          subst same
          split at suspended
          · next result =>
              split at suspended
              · cases suspended
              · next pending =>
                  cases suspended
                  refine ⟨((world.activations.get? other).map (·.scheduler)).getD .inline, ?_⟩
                  simp only [effect, result, if_neg pending]
          · cases suspended
      · cases suspended
  · cases suspended

/-- A machine is suspended where its step ends with the await of something pending. -/
theorem ends_of_suspended (suspended : state.suspended? machine = some deferred) :
    ∃ resumeAt callers, state.Ends machine (.returned (.await resumeAt deferred)) callers ∧
      state.world.isComplete deferred = false := by
  obtain ⟨scheduler, registers⟩ := registers_of_suspended suspended
  have exerts := state.exerts
  rw [registers] at exerts
  cases exerts with
  | suspends _ ends pending => exact ⟨_, _, ends, pending⟩

theorem suspended_of_registers
    (registers : state.effect = .registers deferred (.handOver scheduler machine)) :
    state.suspended? machine = some deferred := by
  have exerts := state.exerts
  rw [registers] at exerts
  cases exerts with
  | @suspends _ resumeAt _ callers _ ends pending =>
      obtain ⟨world, stack, control⟩ := state
      obtain ⟨placed, reply, replies, judged⟩ := ends
      cases placed
      cases replies
      have result : world.judge machine reply = .await resumeAt deferred := judged
      have incomplete : world.isComplete deferred = false := pending
      simp [suspended?, result, incomplete]

/-- A machine is suspended on a deferred when the deferred keeps what hands it over. -/
theorem suspended_iff :
    state.suspended? machine = some deferred ↔
      ∃ continuation, (state.noted? deferred).bind Entry.kept? = some continuation ∧
        continuation.handsOver machine = true := by
  constructor
  · intro suspended
    obtain ⟨scheduler, registers⟩ := registers_of_suspended suspended
    refine ⟨.handOver scheduler machine, ?_, by simp [Continuation.handsOver]⟩
    have exerts := state.exerts
    rw [registers] at exerts
    cases exerts with
    | suspends _ ends pending =>
        obtain ⟨found, lookup, incomplete⟩ : ∃ found,
            state.world.deferreds.get? deferred = some found ∧ found.isComplete = false := by
          cases lookup : state.world.deferreds.get? deferred with
          | none => simp [World.isComplete, lookup] at pending
          | some found =>
              exact ⟨found, rfl, by rwa [World.isComplete_of_get? lookup] at pending⟩
        obtain ⟨placed, reply, replies, -⟩ := ends
        have still : state.turned? deferred = none := by simp [turned?, placed, Frame.noted?]
        simp [noted?, still, lookup, registers, Effect.noted?, incomplete, Entry.kept?]
  · rintro ⟨continuation, noted, hands⟩
    obtain ⟨entry, happens, kept⟩ := Option.bind_eq_some_iff.mp noted
    cases happens_of_entry happens with
    | kept registers _ _ =>
        cases kept
        cases continuation with
        | handOver scheduler other =>
            cases beq_iff_eq.mp hands
            exact suspended_of_registers registers
        | _ => cases hands
    | published _ | fired _ _ | ran _ _ _ | broke _ _ => cases kept

/-- A batch comes to a machine when what hands it over has its turn. -/
theorem firing_iff :
    state.firing? machine = some deferred ↔
      ∃ continuation, (state.noted? deferred).bind Entry.fired? = some continuation ∧
        continuation.handsOver machine = true := by
  constructor
  · intro fires
    obtain ⟨world, stack, control⟩ := state
    unfold firing? at fires
    split at fires
    · next other first rest below reply placed replies =>
        cases placed
        cases replies
        split at fires
        · next hands =>
            cases fires
            exact ⟨first, by simp [noted?, turned?, Frame.noted?, Entry.fired?], hands⟩
        · cases fires
    · cases fires
  · rintro ⟨continuation, noted, hands⟩
    obtain ⟨entry, happens, fired⟩ := Option.bind_eq_some_iff.mp noted
    cases happens_of_entry happens with
    | fired placed replies =>
        cases fired
        simp [firing?, placed, replies, hands]
    | published _ | kept _ _ _ | ran _ _ _ | broke _ _ => cases fired

end State

/-- How often something is noted of one deferred and one machine. -/
theorem count_of_noted {noted : Option Nat} {entry : Option Entry}
    {pick : Entry → Option Continuation}
    (same : noted = some deferred ↔ ∃ continuation, entry.bind pick = some continuation ∧
      continuation.handsOver machine = true) :
    noted.toList.count deferred =
      (entry.toList.filterMap pick).countP (Continuation.handsOver machine) := by
  have picked : entry.toList.filterMap pick = (entry.bind pick).toList := by
    cases entry with
    | none => rfl
    | some entry => cases found : pick entry <;> simp [found]
  rw [picked]
  by_cases here : noted = some deferred
  · obtain ⟨continuation, found, hands⟩ := same.mp here
    simp [here, found, hands]
  · have none : noted.toList.count deferred = 0 := by
      cases noted with
      | none => rfl
      | some other =>
          have different : other ≠ deferred := by simpa using here
          simp [different]
    rw [none]
    cases found : entry.bind pick with
    | none => rfl
    | some continuation =>
        have silent : ¬ continuation.handsOver machine = true :=
          fun hands => here (same.mpr ⟨continuation, found, hands⟩)
        simp [silent]

theorem filterMap_cons_toList {α β : Type} (pick : α → Option β) (head : α) (rest : List α) :
    (head :: rest).filterMap pick = (pick head).toList ++ rest.filterMap pick := by
  cases found : pick head <;> simp [found]

/-- What a machine has been suspended on kept what hands the machine over. -/
theorem count_suspensions (machine deferred : Nat) (past : List State) :
    (suspensions machine past).count deferred =
      ((log deferred past).filterMap Entry.kept?).countP (Continuation.handsOver machine) := by
  induction past with
  | nil => rfl
  | cons state past ih =>
      simp only [suspensions, log] at ih ⊢
      rw [filterMap_cons_toList, List.count_append, ih, filterMap_cons_toList,
        List.filterMap_append, List.countP_append, count_of_noted State.suspended_iff]

/-- A batch that has come to a machine has fired what hands the machine over. -/
theorem count_firings (machine deferred : Nat) (past : List State) :
    (firings machine past).count deferred =
      ((log deferred past).filterMap Entry.fired?).countP (Continuation.handsOver machine) := by
  induction past with
  | nil => rfl
  | cons state past ih =>
      simp only [firings, log] at ih ⊢
      rw [filterMap_cons_toList, List.count_append, ih, filterMap_cons_toList,
        List.filterMap_append, List.countP_append, count_of_noted State.firing_iff]

/-- A panic has left a docket that is broken. -/
theorem Docket.Comes.broke {entries : List Entry} {docket : Docket} {left : List Continuation}
    (comes : (Docket.pending []).Comes entries docket) (broken : docket = .broken left) :
    .broke left ∈ entries := by
  induction comes with
  | here => cases broken
  | next _ turns ih =>
      cases turns with
      | broke =>
          cases broken
          exact List.mem_append_right _ (List.mem_singleton_self _)
      | still | ran _ _ => exact List.mem_append_left _ (ih broken)
      | kept _ | published | fired => cases broken

/-! ## From the batch to the scheduler -/

namespace World

variable {world : World} {continuation : Continuation}

theorem holds_of_loopQueue {loop : Nat} {left : List Continuation}
    (queued : world.loopQueue loop = continuation :: left) :
    world.ledger.Holds (.queued (.loop loop)) continuation := by
  cases lookup : world.loops.get? loop with
  | none => simp [loopQueue, lookup] at queued
  | some found =>
      simp only [loopQueue, lookup, Option.map_some, Option.getD_some] at queued
      exact ⟨found, lookup, by simp [queued]⟩

theorem holds_of_queued {queue index : Nat}
    (there : ((world.queues.get? queue).getD [])[index]? = some (some continuation)) :
    world.ledger.Holds (.queued (.queue queue)) continuation := by
  cases lookup : world.queues.get? queue with
  | none => simp [lookup] at there
  | some found =>
      simp only [lookup, Option.getD_some] at there
      exact ⟨found, lookup, List.mem_of_getElem? there⟩

end World

namespace Passes

/-- What hands a machine over runs only in its turn in a batch. -/
theorem fired_of_hands {continuation : Continuation} (passes : Passes past state)
    (runs : state.next.control = .task (.run continuation))
    (hands : continuation.handsOver machine = true) :
    ∃ deferred rest below reply, state.stack = .firing deferred (continuation :: rest) :: below ∧
      state.control = .reply reply ∧ state.next.stack = .firing deferred rest :: below := by
  obtain ⟨scheduler, rfl⟩ : ∃ scheduler, continuation = .handOver scheduler machine := by
    cases continuation with
    | handOver scheduler other => exact ⟨scheduler, by rw [beq_iff_eq.mp hands]⟩
    | _ => cases hands
  obtain ⟨callers, placed, begets⟩ := State.begets runs rfl
  have order := passes.reaches.inOrder
  have running (reason : Halt) : state.control ≠ .halted reason := by
    intro halts
    simp [State.next, halts] at runs
  have custody := order.custody running
  -- No scheduler is in the keeping of what hands a machine over.
  have unqueued (keeper : Scheduler)
      (holds : state.world.ledger.Holds (.queued keeper) (.handOver scheduler machine)) :
      False := custody.kept (.queued keeper) (.handOver scheduler machine) holds
  cases begets with
  | fired firing replies => exact ⟨_, _, _, _, firing, replies, placed⟩
  | registered registers complete =>
      have exerts := state.exerts
      rw [registers] at exerts
      cases exerts with
      | suspends _ _ pending => cases complete.symm.trans pending
  | @scheduled sent _ schedules _ =>
      rw [schedules] at custody
      exact (custody.rightful (.continuation (.sent sent) (.handOver scheduler machine))
        (List.mem_cons_self ..)).elim
  | @worked _ _ pool _ found _ _ _ lookup jobs =>
      exact (unqueued (.pool pool) ⟨found, lookup, by simp [jobs]⟩).elim
  | unqueued _ _ there => exact (unqueued _ (World.holds_of_queued there)).elim
  | driven queued _ => exact (unqueued _ (World.holds_of_loopQueue queued)).elim

end Passes

/-- A machine is sent to its scheduler just when what hands it over runs. -/
theorem State.schedules_iff :
    state.next.control = .task (.schedule scheduler (.resumption machine)) ↔
      state.control = .task (.run (.handOver scheduler machine)) := by
  constructor
  · intro schedules
    obtain ⟨callers, -, begets⟩ := State.begets schedules rfl
    cases begets with
    | handedOver runs => exact runs
  · intro runs
    obtain ⟨world, stack, control⟩ := state
    cases runs
    rfl

namespace Passes

/-- What hands a machine over runs beneath nothing but the rest of its batch, and so is the
machine sent to its scheduler. -/
theorem handing (passes : Passes past state)
    (hands : state.control = .task (.run (.handOver scheduler machine)) ∨
      state.control = .task (.schedule scheduler (.resumption machine))) :
    ∃ deferred rest below, state.stack = .firing deferred rest :: below := by
  induction passes generalizing scheduler with
  | begin _ => rcases hands with hands | hands <;> cases hands
  | again _ _ _ _ => rcases hands with hands | hands <;> cases hands
  | @next past state passes ih =>
      rcases hands with runs | schedules
      · obtain ⟨deferred, rest, below, _, -, -, placed⟩ :=
          passes.fired_of_hands runs (beq_self_eq_true machine)
        exact ⟨deferred, rest, below, placed⟩
      · have runs := State.schedules_iff.mp schedules
        obtain ⟨deferred, rest, below, placed⟩ := ih (.inl runs)
        refine ⟨deferred, rest, below, ?_⟩
        rw [← placed]
        obtain ⟨world, stack, control⟩ := state
        cases runs
        rfl

/-- A batch that hands a machine over is the innermost frame. -/
theorem hands_of_handing (handing : state.handing? machine = some deferred) :
    ∃ scheduler rest below, state.stack = .firing deferred rest :: below ∧
      (state.control = .task (.run (.handOver scheduler machine)) ∨
        state.control = .task (.schedule scheduler (.resumption machine))) := by
  obtain ⟨world, stack, control⟩ := state
  unfold State.handing? at handing
  split at handing
  · next other rest below continuation placed runs =>
      cases placed
      cases runs
      cases continuation with
      | handOver scheduler target =>
          simp only [Continuation.handsOver, beq_iff_eq] at handing
          split at handing
          · next same =>
              cases handing
              exact ⟨scheduler, rest, below, rfl, .inl (by rw [same])⟩
          · cases handing
      | _ => simp [Continuation.handsOver] at handing
  · next other rest below scheduler target placed schedules =>
      cases placed
      cases schedules
      split at handing
      · next same =>
          cases handing
          exact ⟨scheduler, rest, below, rfl, .inr (by rw [same])⟩
      · cases handing
  · cases handing

theorem handing_of_handedOver (handed : state.handedOver? machine = some deferred) :
    state.handing? machine = some deferred := by
  obtain ⟨world, stack, control⟩ := state
  unfold State.handedOver? at handed
  split at handed
  · next placed schedules =>
      cases placed
      cases schedules
      exact handed
  · cases handed

/-- No batch hands a machine over next, unless it has come to it or does so already. -/
theorem not_handing_next (passes : Passes past state) (unfired : state.firing? machine = none)
    (idle : ∀ scheduler, state.control ≠ .task (.run (.handOver scheduler machine))) :
    state.next.handing? machine = none := by
  refine Option.eq_none_iff_forall_ne_some.mpr fun deferred handing => ?_
  obtain ⟨scheduler, rest, below, -, runs | schedules⟩ := hands_of_handing handing
  · obtain ⟨_, _, _, _, placed, replies, -⟩ :=
      passes.fired_of_hands runs (beq_self_eq_true machine)
    simp [State.firing?, placed, replies, Continuation.handsOver] at unfired
  · exact idle scheduler (State.schedules_iff.mp schedules)

/-- A small step sends a machine to its scheduler, goes on to do so, or does nothing of it. -/
theorem handing_next (passes : Passes past state) (machine : Nat) :
    (state.handedOver? machine).toList ++ (state.next.handing? machine).toList =
      (state.handing? machine).toList ++ (state.firing? machine).toList := by
  cases fires : state.firing? machine with
  | some deferred =>
      obtain ⟨world, stack, control⟩ := state
      unfold State.firing? at fires
      split at fires
      · next other first rest below reply placed replies =>
          cases placed
          cases replies
          split at fires
          · next hands =>
              cases fires
              simp [State.handedOver?, State.handing?, State.next, State.returning, hands]
          · cases fires
      · cases fires
  | none =>
      by_cases runs : ∃ scheduler, state.control = .task (.run (.handOver scheduler machine))
      · obtain ⟨scheduler, runs⟩ := runs
        obtain ⟨deferred, rest, below, placed⟩ := passes.handing (.inl runs)
        obtain ⟨world, stack, control⟩ := state
        cases runs
        cases placed
        simp [State.handedOver?, State.handing?, State.next, State.carryingOut,
          State.runningContinuation, Continuation.handsOver]
      · have quiet := passes.not_handing_next fires (not_exists.mp runs)
        rw [quiet]
        cases handing : state.handing? machine with
        | some deferred =>
            obtain ⟨scheduler, rest, below, placed, again | schedules⟩ := hands_of_handing handing
            · exact absurd ⟨scheduler, again⟩ runs
            · simp [State.handedOver?, placed, schedules] at handing ⊢
        | none =>
            cases handed : state.handedOver? machine with
            | none => rfl
            | some deferred => cases handing.symm.trans (handing_of_handedOver handed)

/-- A machine has been sent to its scheduler each time a batch has come to it, but for the batch
that is about to do so. -/
theorem handOvers_append_handing (passes : Passes past state) (machine : Nat) :
    handOvers machine past ++ (state.handing? machine).toList = firings machine past := by
  induction passes with
  | begin _ => rfl
  | @again past state program passes ended ih =>
      have nothing : state.handing? machine = none := by
        simp [State.handing?, ended.1]
      rw [nothing] at ih
      exact ih
  | @next past state passes ih =>
      have before (pick : State → Option Nat) :
          (past ++ [state]).filterMap pick = past.filterMap pick ++ (pick state).toList := by
        cases found : pick state <;> simp [found]
      simp only [handOvers, firings, before] at ih ⊢
      rw [List.append_assoc, passes.handing_next, ← List.append_assoc, ih]

/-- What a machine has been suspended on has fired what hands the machine over, or keeps it. -/
theorem count_suspensions_docket {docket : Docket}
    (comes : (Docket.pending []).Comes (log deferred past) docket) (machine : Nat) :
    (firings machine past).count deferred +
        docket.left.countP (Continuation.handsOver machine) =
      (suspensions machine past).count deferred := by
  rw [count_firings, count_suspensions, ← List.countP_append]
  exact congrArg (List.countP (Continuation.handsOver machine)) comes.fired

/-- As long as a deferred is pending, it keeps what hands over each machine that is suspended on
it, and has handed none over. -/
theorem count_pending (passes : Passes past state) (machine : Nat)
    (incomplete : state.world.isComplete deferred = false) :
    ∃ found, state.world.deferreds.get? deferred = some found ∧
      (suspensions machine past).count deferred =
        found.continuations.countP (Continuation.handsOver machine) ∧
      (firings machine past).count deferred = 0 := by
  obtain ⟨docket, comes, accords⟩ := passes.accords deferred
  cases lookup : state.world.deferreds.get? deferred with
  | none => simp [World.isComplete, lookup] at incomplete
  | some found =>
      rw [World.isComplete_of_get? lookup] at incomplete
      cases docket with
      | complete _ | broken _ =>
          obtain ⟨other, present, complete, -⟩ := accords.1
          cases lookup.symm.trans present
          cases complete.symm.trans incomplete
      | pending kept =>
          have keeps := accords.2
          simp only [lookup] at keeps
          have whole := count_suspensions_docket comes machine
          have all : (suspensions machine past).count deferred =
              kept.countP (Continuation.handsOver machine) := by
            rw [count_suspensions, ← show _ = kept from comes.pending rfl]
            rfl
          refine ⟨found, rfl, by rw [keeps.2, all], ?_⟩
          simp only [Docket.left] at whole
          omega

/-- A machine that is about to be suspended on a deferred was not suspended on it before. -/
theorem count_of_suspended (passes : Passes past state)
    (suspended : state.suspended? machine = some deferred) :
    (suspensions machine past).count deferred = 0 := by
  obtain ⟨resumeAt, callers, ends, pending⟩ := State.ends_of_suspended suspended
  obtain ⟨found, lookup, counts, -⟩ := passes.count_pending machine pending
  rw [counts]
  refine Nat.eq_zero_of_not_pos fun positive => ?_
  obtain ⟨continuation, member, hands⟩ := List.countP_pos_iff.mp positive
  obtain ⟨other, rfl⟩ : ∃ other, continuation = .handOver other machine := by
    cases continuation with
    | handOver other target => exact ⟨other, by rw [beq_iff_eq.mp hands]⟩
    | _ => cases hands
  have kept : 0 < state.world.ledger.amount (.resumption machine) :=
    @Ledger.amount_pos_of_holds _ _ (.registered deferred) _ ⟨found, lookup, member⟩
      (List.mem_singleton_self _)
  -- The machine is at a step, so nothing is there to resume it.
  have order := passes.reaches.inOrder
  obtain ⟨world, stack, control⟩ := state
  obtain ⟨placed, reply, replies, -⟩ := ends
  cases placed
  cases replies
  have custody : Custody world.ledger _ [.stepping machine] _ := Custody.pop order
  obtain ⟨activation, claimed⟩ := custody.claimed machine rfl
  have none := claimed.resumptions
  rw [Ledger.total] at none
  have some : 0 < world.ledger.amount (.resumption machine) := kept
  omega

/-- A machine is suspended on a deferred once at most. -/
theorem nodup_suspensions (passes : Passes past state) (machine : Nat) :
    (suspensions machine past).Nodup := by
  induction passes with
  | begin _ => exact List.nodup_nil
  | again _ _ _ ih => exact ih
  | @next past state passes ih =>
      have longer : suspensions machine (past ++ [state]) =
          suspensions machine past ++ (state.suspended? machine).toList := by
        cases found : state.suspended? machine <;> simp [suspensions, found]
      rw [longer]
      cases suspended : state.suspended? machine with
      | none => simpa using ih
      | some deferred =>
          have fresh := List.count_eq_zero.mp (passes.count_of_suspended suspended)
          refine List.nodup_append.mpr ⟨ih, by simp, ?_⟩
          rintro other member _ among rfl
          exact fresh (List.mem_singleton.mp among ▸ member)

/-- A machine is sent to its scheduler once at most for each suspension. -/
theorem count_handOvers_le (passes : Passes past state) (machine deferred : Nat) :
    (handOvers machine past).count deferred ≤ (suspensions machine past).count deferred := by
  obtain ⟨docket, comes, -⟩ := passes.accords deferred
  have whole := count_suspensions_docket comes machine
  rw [← passes.handOvers_append_handing, List.count_append] at whole
  omega

theorem nodup_handOvers (passes : Passes past state) (machine : Nat) :
    (handOvers machine past).Nodup := by
  refine List.nodup_iff_count_le_one.mpr fun deferred => ?_
  exact Nat.le_trans (passes.count_handOvers_le machine deferred)
    (List.nodup_iff_count_le_one.mp (passes.nodup_suspensions machine) deferred)

theorem mem_suspensions_of_handOvers (passes : Passes past state)
    (handed : deferred ∈ handOvers machine past) : deferred ∈ suspensions machine past := by
  have bound := passes.count_handOvers_le machine deferred
  have positive := List.count_pos_iff.mpr handed
  exact List.count_pos_iff.mp (by omega)

/-- A machine that is being handed over was suspended on what is fired, and was not sent to its
scheduler for it before. -/
theorem fresh_of_handing (passes : Passes past state)
    (handing : state.handing? machine = some deferred) :
    deferred ∈ suspensions machine past ∧ deferred ∉ handOvers machine past := by
  obtain ⟨docket, comes, -⟩ := passes.accords deferred
  have whole := count_suspensions_docket comes machine
  have bound := List.nodup_iff_count_le_one.mp (passes.nodup_suspensions machine) deferred
  rw [← passes.handOvers_append_handing, handing, Option.toList_some, List.count_append,
    List.count_singleton_self] at whole
  exact ⟨List.count_pos_iff.mp (by omega), List.count_eq_zero.mp (by omega)⟩

/-- While nothing that a machine was suspended on is being fired, and no panic has left any of it,
the machine was sent to its scheduler for just those suspensions whose deferred is complete. -/
theorem handOvers_perm (passes : Passes past state)
    (unfired : ∀ deferred ∈ suspensions machine past, state.stack.rests deferred = [])
    (whole : ∀ deferred ∈ suspensions machine past, ∀ left, .broke left ∉ log deferred past) :
    (handOvers machine past).Perm
      ((suspensions machine past).filter state.world.isComplete) := by
  have idle : state.handing? machine = none := by
    refine Option.eq_none_iff_forall_ne_some.mpr fun deferred handing => ?_
    obtain ⟨scheduler, rest, below, placed, -⟩ := hands_of_handing handing
    have nothing := unfired deferred (passes.fresh_of_handing handing).1
    rw [placed, Stack.rests_firing, if_pos rfl] at nothing
    cases nothing
  have same := passes.handOvers_append_handing machine
  rw [idle, Option.toList_none, List.append_nil] at same
  refine List.perm_iff_count.mpr fun deferred => ?_
  rw [same]
  cases complete : state.world.isComplete deferred with
  | false =>
      obtain ⟨_, _, _, none⟩ := passes.count_pending machine complete
      rw [none, List.count_eq_zero.mpr fun member => by simp [complete] at member]
  | true =>
      rw [List.count_filter complete]
      obtain ⟨docket, comes, accords⟩ := passes.accords deferred
      have all := count_suspensions_docket comes machine
      by_cases suspended : deferred ∈ suspensions machine past
      · have empty : docket.left = [] := by
          cases docket with
          | pending _ =>
              have pending := accords.2
              cases lookup : state.world.deferreds.get? deferred with
              | none =>
                  simp only [lookup] at pending
                  exact pending
              | some found =>
                  simp only [lookup] at pending
                  rw [World.isComplete_of_get? lookup] at complete
                  cases pending.1.symm.trans complete
          | complete rest =>
              rcases accords.2 with one | ⟨none, -⟩
              · cases one.symm.trans (unfired deferred suspended)
              · exact none
          | broken left => exact absurd (comes.broke rfl) (whole deferred suspended left)
        rw [empty, List.countP_nil] at all
        exact all
      · rw [List.count_eq_zero.mpr suspended] at all ⊢
        omega

/-- A machine that is handed over is suspended on what is being fired. -/
theorem suspends_of_handing (passes : Passes past state)
    (handing : state.handing? machine = some deferred) :
    ∃ scheduler, state.world.ledger.Suspends machine scheduler deferred ∧
      state.world.ledger.Completed deferred := by
  induction passes generalizing deferred with
  | begin _ => cases handing
  | again _ _ _ _ => cases handing
  | @next past state passes ih =>
      obtain ⟨scheduler, rest, below, placed, runs | schedules⟩ := hands_of_handing handing
      · obtain ⟨other, left, beneath, reply, fires, replies, stacked⟩ :=
          passes.fired_of_hands runs (beq_self_eq_true machine)
        cases placed.symm.trans stacked
        have custody := passes.reaches.inOrder.custody (by simp [replies])
        have admits := custody.rightful
          (.continuation (.fired deferred) (.handOver scheduler machine))
          (by simp [fires, Frame.holdings])
        obtain ⟨world, stack, control⟩ := state
        cases fires
        cases replies
        exact ⟨scheduler, admits⟩
      · have runs := State.schedules_iff.mp schedules
        obtain ⟨world, stack, control⟩ := state
        cases runs
        cases placed
        exact ih (by simp [State.handing?, Continuation.handsOver])

/-- A machine is sent to its own scheduler, by the batch of what it is suspended on. -/
theorem suspends_of_schedules (passes : Passes past state)
    (schedules : state.control = .task (.schedule scheduler (.resumption machine))) :
    ∃ deferred rest below, state.stack = .firing deferred rest :: below ∧
      state.world.ledger.Suspends machine scheduler deferred ∧
      state.world.ledger.Completed deferred := by
  obtain ⟨deferred, rest, below, placed⟩ := passes.handing (.inr schedules)
  have handing : state.handing? machine = some deferred := by
    simp [State.handing?, placed, schedules]
  obtain ⟨own, ⟨found, lookup, -, pending⟩, completed⟩ := passes.suspends_of_handing handing
  have custody := passes.reaches.inOrder.custody (by simp [schedules])
  rw [schedules] at custody
  obtain ⟨_, ⟨other, again, same, -⟩, -⟩ :=
    custody.rightful (.continuation (.sent scheduler) (.resumption machine))
      (List.mem_cons_self ..)
  cases lookup.symm.trans again
  exact ⟨deferred, rest, below, placed, ⟨found, lookup, same, pending⟩, completed⟩

end Passes

/-! ## Within the call that completes a deferred -/

/-- A run is within a call that completes a deferred: the outcome was published, and what waits for
the call has not gone on since. -/
def Within (past : List State) (deferred : Nat) (below : Stack) : Prop :=
  ∃ older publisher newer outcome, past = older ++ publisher :: newer ∧
    publisher.control = .task (.publish deferred outcome) ∧ publisher.stack = below ∧
      ∀ visited ∈ newer, below.length < visited.stack.length

/-- A small step that leaves a batch to be fired completes a deferred, or fires the batch that was
there. -/
theorem State.leaves_cases {above below : Stack} {rest : List Continuation}
    (leaves : state.leaves? ≠ none)
    (placed : state.next.stack = above ++ .firing deferred rest :: below) :
    (∃ outcome, state.control = .task (.publish deferred outcome) ∧ state.stack = below) ∨
      ∃ more left, state.stack = more ++ .firing deferred left :: below := by
  obtain ⟨world, stack, control⟩ := state
  unfold leaves? at leaves
  split at leaves
  · next other outcome publishes =>
      cases publishes
      cases lookup : world.deferreds.get? other with
      | none => simp [lookup] at leaves
      | some found =>
          simp only [next, carryingOut, publishing, lookup] at placed
          cases above with
          | nil =>
              cases placed
              exact .inl ⟨outcome, rfl, rfl⟩
          | cons top above => exact .inr ⟨above, rest, (List.cons.inj placed).2⟩
  · next reply other first left callers replies fires =>
      cases replies
      cases fires
      simp only [next, returning] at placed
      cases above with
      | nil =>
          cases placed
          exact .inr ⟨[], _, rfl⟩
      | cons top above =>
          obtain ⟨-, same⟩ := List.cons.inj placed
          exact .inr ⟨.firing other (first :: left) :: above, rest, by simp [same]⟩
  · exact absurd rfl leaves

/-- The batch of a deferred was there before a small step, or the small step completes the
deferred. -/
theorem State.firing_before {trace : List Occurrence} {above below : Stack}
    {rest : List Continuation} (order : state.InOrder (.of trace))
    (placed : state.next.stack = above ++ .firing deferred rest :: below) :
    (∃ outcome, state.control = .task (.publish deferred outcome) ∧ state.stack = below) ∨
      ∃ more left, state.stack = more ++ .firing deferred left :: below := by
  obtain ⟨new, stacked⟩ := stack_next order
  obtain ⟨popped, split, -⟩ := exists_above_base state
  have kept {more : Stack} (beneath : state.base = more ++ .firing deferred rest :: below) :
      ∃ more left, state.stack = more ++ .firing deferred left :: below :=
    ⟨popped ++ more, rest, by rw [split, beneath, List.append_assoc]⟩
  rcases List.append_eq_append_iff.mp (placed.symm.trans stacked) with
    ⟨more, higher, beneath⟩ | ⟨more, -, beneath⟩
  · cases more with
    | nil => exact .inr (@kept [] beneath.symm)
    | cons frame more =>
        -- The batch is new, and the small step leaves one only where it says so.
        obtain ⟨rfl, rfl⟩ := List.cons.inj beneath
        have batches := state.takesEffect.batches
        rw [stacked, Stack.batches_append, higher] at batches
        have leaves := List.append_cancel_right batches
        rw [Stack.batches_append] at leaves
        have some : state.leaves? ≠ none := by
          intro none
          simp [none, Stack.batches, Frame.batch?] at leaves
        exact leaves_cases some placed
  · exact .inr (kept beneath)

/-- The batch of a deferred is fired within a call that completes the deferred. -/
theorem Passes.within {above below : Stack} {rest : List Continuation}
    (passes : Passes past state) (placed : state.stack = above ++ .firing deferred rest :: below) :
    Within past deferred below := by
  induction passes generalizing above rest with
  | begin _ | again _ _ _ _ =>
      have lengths := congrArg List.length placed
      simp [State.ofProgram] at lengths
  | @next past state passes ih =>
      rcases State.firing_before passes.reaches.inOrder placed with
        ⟨outcome, publishes, same⟩ | ⟨more, left, was⟩
      · exact ⟨past, state, [], outcome, rfl, publishes, same, by simp⟩
      · obtain ⟨older, publisher, newer, outcome, rfl, publishes, same, inside⟩ := ih was
        refine ⟨older, publisher, newer ++ [state], outcome, by simp, publishes, same, ?_⟩
        intro visited member
        rcases List.mem_append.mp member with before | now
        · exact inside visited before
        · rw [List.mem_singleton.mp now, was]
          simp
          omega

/-! ## Starts -/

/-- What a suspended machine awaits it was suspended on. -/
theorem Passes.mem_suspensions (passes : Passes past state)
    (running : ∀ reason, state.control ≠ .halted reason)
    (suspended : state.world.Suspended machine scheduler deferred) :
    deferred ∈ suspensions machine past := by
  induction passes with
  | begin _ =>
      obtain ⟨found, lookup, -⟩ := suspended
      cases lookup
  | again _ _ ended ih =>
      refine ih (fun reason halts => ?_) suspended
      rcases ended.2 with ⟨_, replies⟩ | ⟨_, unwinds⟩ <;> simp_all
  | @next past state passes ih =>
      have before := State.running_before running
      have longer : suspensions machine past ⊆ suspensions machine (past ++ [state]) := by
        rw [suspensions, suspensions, List.filterMap_append]
        exact List.subset_append_left ..
      rcases State.suspends_next passes.reaches.tidy suspended with was | pending
      · exact longer (ih before was)
      · have order := passes.next.reaches.inOrder
        obtain ⟨holds, -⟩ := State.registered_of_suspended order running suspended pending
        have incomplete := (order.custody running).isComplete_of_registered holds
        obtain ⟨found, lookup, counts, -⟩ := passes.next.count_pending machine incomplete
        obtain ⟨other, present, member⟩ := holds
        cases lookup.symm.trans present
        refine List.count_pos_iff.mp ?_
        rw [counts]
        exact List.countP_pos_iff.mpr ⟨_, member, beq_self_eq_true machine⟩

/-- A machine that was never suspended is finished when its start is over, unless it has broken the
protocol. -/
theorem Passes.finished_of_started {frame : Frame} {callers : Stack} (passes : Passes past state)
    (placed : state.stack = frame :: callers) (starts : frame.starts? = some machine)
    (ended : (∃ reply, state.control = .reply reply) ∨ ∃ payload, state.control = .unwind payload)
    (fresh : Holding.amount (.claim machine) (Stack.holdings callers) = 0)
    (ready : suspensions machine past = []) :
    state.world.isFinished machine = true ∨ (life machine past).Violated := by
  have running (reason : Halt) : state.control ≠ .halted reason := by
    rcases ended with ⟨reply, replies⟩ | ⟨payload, unwinds⟩ <;> simp_all
  have custody := passes.reaches.inOrder.custody running
  have empty : state.control.holdings = [] := by
    rcases ended with ⟨reply, replies⟩ | ⟨payload, unwinds⟩ <;>
      simp_all [Control.holdings]
  rw [empty] at custody
  obtain ⟨handle, unclaimed⟩ :
      state.HasHandle machine ∧ Holding.amount (.claim machine) frame.holdings = 0 := by
    have member : frame ∈ state.stack := by simp [placed]
    cases frame with
    | starting _ other =>
        cases starts
        exact ⟨.starting member, rfl⟩
    | blocking other _ _ =>
        cases starts
        exact ⟨.blocking member, rfl⟩
    | _ => cases starts
  have nobody : state.world.ledger.total [] state.stack (.claim machine) = 0 := by
    rw [Ledger.total, Ledger.unclaimed, placed]
    simp [Holding.amount_append, unclaimed, fresh]
  obtain ⟨found, lookup, -⟩ := custody.exists_of_handle handle
  obtain ⟨-, -, accords⟩ := custody.accords_of_lookup lookup
  simp only [Holding.amount_nil, Nat.add_zero] at accords
  cases status : found.status with
  | finished => simp [World.isFinished, lookup, Activation.isFinished, status]
  | running =>
      simp only [status] at accords
      exact .inr (accords.2.2.2.2 nobody)
  | idle =>
      simp only [status] at accords
      obtain ⟨deferred, pending, -⟩ := State.places_of_resumption custody lookup (by
        rw [accords.1]
        exact Nat.zero_lt_one)
      have member := passes.mem_suspensions running ⟨found, lookup, status, rfl, pending⟩
      simp [ready] at member

/-- A small step begins a request that starts a machine. -/
def State.Starts (state : State) (machine : Nat) : Prop :=
  ∃ request rest form observer, state.control = .program (.call request rest) ∧
    .started machine form observer ∈ state.world.requested request

/-- The start of a machine puts up the frame that waits for it, above what waits for the request.
The machine is new, and nothing beneath has a claim on it. -/
theorem State.next_of_starts (starts : state.Starts machine) :
    machine = state.world.activations.size ∧
      ∃ frame front, state.next.stack = frame :: (front ++ state.callers) ∧
        frame.starts? = some machine ∧
        Holding.amount (.claim machine) (Stack.holdings (front ++ state.callers)) =
          Holding.amount (.claim machine) (Stack.holdings state.stack) := by
  obtain ⟨request, rest, form, observer, calls, started⟩ := starts
  obtain ⟨world, stack, control⟩ := state
  cases calls
  cases request with
  | start handle _ scheduler _ =>
      cases List.mem_singleton.mp started
      exact ⟨rfl, .starting handle _, [], rfl, rfl, rfl⟩
  | startAwaitable handle _ scheduler receipt early =>
      cases List.mem_singleton.mp started
      cases early with
      | true => exact ⟨rfl, .starting handle _, [], rfl, rfl, rfl⟩
      | false =>
          refine ⟨rfl, .starting handle _, [.placing receipt false world.deferreds.size], rfl, rfl,
            ?_⟩
          simp [Frame.holdings, Holding.assets, callers]
  | run threadName runtime _ =>
      simp only [World.requested] at started
      cases named : world.runtimes.find? runtime with
      | none => simp [named] at started
      | some pool =>
          simp only [named] at started
          cases List.mem_singleton.mp started
          refine ⟨rfl, .blocking _ pool world.deferreds.size, [.thread world.thread], ?_, rfl, ?_⟩
          · simp only [next, requesting, withNamed, named]
            rfl
          · simp [Frame.holdings, callers]
  | cancel handle =>
      simp only [World.requested] at started
      split at started <;> simp at started
  | dispatch _ _ _ target work =>
      simp only [World.requested, World.dispatch] at started
      split at started
      · split at started <;> simp at started
      · cases started
  | _ => cases started

/-- Until the request that starts a machine is over, the start itself is; and if the machine was
never suspended, it is finished by then, unless it has broken the protocol. -/
theorem Passes.finished_of_starts {count : Nat} (passes : Passes past state)
    (starts : state.Starts machine) (leaves : state.next.Leaves state.callers count)
    (ready : suspensions machine (past ++ state.visits (count + 1)) = []) :
    ∃ fewer < count,
      (∃ frame below, (state.next.walk fewer).2.stack = frame :: below ∧
        frame.starts? = some machine) ∧
      ((state.next.walk fewer).2.world.isFinished machine = true ∨
        (life machine (past ++ state.visits (fewer + 1))).Violated) := by
  obtain ⟨rfl, frame, front, placed, waits, unclaimed⟩ := State.next_of_starts starts
  obtain ⟨fewer, bound, still, ended⟩ :=
    @State.Leaves.delivers_above _ _ _ [] _ _ front leaves passes.next.reaches placed
  have walked : Passes (past ++ state.visits (fewer + 1)) (state.next.walk fewer).2 :=
    passes.walk (fewer + 1)
  refine ⟨fewer, bound, ⟨frame, _, still, waits⟩,
    walked.finished_of_started still waits ended ?_ ?_⟩
  · rw [unclaimed]
    have absent : state.world.ledger.activations.get? state.world.activations.size = none := by
      simp [Store.get?, Store.size, World.ledger]
    obtain ⟨_, _, _, _, calls, -⟩ := starts
    have account := (passes.reaches.inOrder.custody (by simp [calls])).machines
      state.world.activations.size
    simp only [Ledger.MachineAccount, absent, Ledger.total, Holding.amount_append] at account
    omega
  · refine List.eq_nil_iff_forall_not_mem.mpr fun deferred member => ?_
    obtain ⟨visited, among, suspended⟩ := List.mem_filterMap.mp member
    have later : deferred ∈ suspensions state.world.activations.size
        (past ++ state.visits (count + 1)) := by
      refine List.mem_filterMap.mpr ⟨visited, ?_, suspended⟩
      rcases List.mem_append.mp among with before | now
      · exact List.mem_append_left _ before
      · exact List.mem_append_right _ (State.mem_visits_of_le (by omega) now)
    simp [ready] at later

/-! ## One hand-over for each suspension -/

/-- How a machine is handed to its scheduler. -/
structure OneHandOver (past : List State) (state : State) (machine : Nat) : Prop where
  /-- A machine is sent to its scheduler just when the continuation runs that its suspension has
  registered. -/
  reason : ∀ scheduler, state.next.control = .task (.schedule scheduler (.resumption machine)) ↔
    state.control = .task (.run (.handOver scheduler machine))
  /-- It is sent to its own scheduler, within the call that completes what it awaits, and was not
  sent for this suspension before. -/
  sent : ∀ scheduler, state.control = .task (.schedule scheduler (.resumption machine)) →
    ∃ deferred rest below, state.stack = .firing deferred rest :: below ∧
      Within past deferred below ∧
      state.world.ledger.Suspends machine scheduler deferred ∧
      state.world.ledger.Completed deferred ∧
      deferred ∈ suspensions machine past ∧ deferred ∉ handOvers machine past
  /-- A machine is suspended on a deferred once at most, and handed over once at most for each
  suspension and for nothing else. -/
  once : (suspensions machine past).Nodup ∧ (handOvers machine past).Nodup ∧
    handOvers machine past ⊆ suspensions machine past
  /-- Where nothing that it was suspended on is being fired, and no panic has left any of it, it
  was handed over for each suspension whose deferred is complete. -/
  settled : (∀ deferred ∈ suspensions machine past, state.stack.rests deferred = []) →
    (∀ deferred ∈ suspensions machine past, ∀ left, .broke left ∉ log deferred past) →
      (handOvers machine past).Perm
        ((suspensions machine past).filter state.world.isComplete)
  /-- A machine that is never suspended is finished before its start is over, unless it breaks the
  protocol, and is not handed over. -/
  immediate : ∀ count, state.Starts machine → state.next.Leaves state.callers count →
    suspensions machine (past ++ state.visits (count + 1)) = [] →
      handOvers machine (past ++ state.visits (count + 1)) = [] ∧
      ∃ fewer < count,
        (∃ frame below, (state.next.walk fewer).2.stack = frame :: below ∧
          frame.starts? = some machine) ∧
        ((state.next.walk fewer).2.world.isFinished machine = true ∨
          (life machine (past ++ state.visits (fewer + 1))).Violated)

/-- One hand-over for each suspension.  A machine is handed to its scheduler once for each step of
it that awaits something pending, within the call that completes what is awaited, and for no
other reason.  So where nothing is being fired it has been handed over as often as it was
suspended on what is complete; and a machine that finds ready whatever it awaits is finished by
its start, and is never handed over. -/
theorem one_hand_over (passes : Passes past state) (machine : Nat) :
    OneHandOver past state machine where
  reason := fun _ => State.schedules_iff
  sent := by
    intro scheduler schedules
    obtain ⟨deferred, rest, below, placed, suspends, completed⟩ :=
      passes.suspends_of_schedules schedules
    have handing : state.handing? machine = some deferred := by
      simp [State.handing?, placed, schedules]
    obtain ⟨suspended, fresh⟩ := passes.fresh_of_handing handing
    exact ⟨deferred, rest, below, placed, @Passes.within _ _ _ [] _ _ passes placed, suspends,
      completed, suspended, fresh⟩
  once := ⟨passes.nodup_suspensions machine, passes.nodup_handOvers machine,
    fun _ member => passes.mem_suspensions_of_handOvers member⟩
  settled := passes.handOvers_perm
  immediate := by
    intro count starts leaves ready
    have whole : Passes (past ++ state.visits (count + 1)) (state.walk (count + 1)).2 :=
      passes.walk (count + 1)
    refine ⟨List.eq_nil_iff_forall_not_mem.mpr fun deferred member => ?_,
      passes.finished_of_starts starts leaves ready⟩
    simpa [ready] using whole.mem_suspensions_of_handOvers member

/-- Start a machine that awaits two deferreds, one after the other, complete the first one, and
have the custom scheduler run what it was handed. -/
def Program.handing : Program :=
  .call (.pending (.shared "first") false (.shared "one")) fun _ =>
    .call (.pending (.shared "second") false (.shared "other")) fun _ =>
      .call (.newQueue (.shared "queue")) fun _ =>
        .call (.start (.shared "machine") (.custom fun
          | .notStarted => .call (.suspend (.shared "first") 0) .ret
          | .suspension 0 => .call (.suspend (.shared "second") 1) .ret
          | _ => .ret .done) (.queue 0) fun _ => .ret .done) fun _ =>
            .call (.complete (.shared "one") (.ok .null)) fun _ =>
              .call (.runQueued (.shared "queue") 0) .ret

/-- Whether a panic has left continuations. -/
def Entry.isBroken : Entry → Bool
  | .broke _ => true
  | _ => false

/-- The machine is handed over within the completing call, for the first deferred and not for the
second, which is pending; and a machine that completes at its first step is never handed over. -/
theorem one_hand_over_handing :
    (handOvers 0 ((State.ofProgram .initial .handing).visits 36)).Perm
      ([0, 1].filter ((State.ofProgram .initial .handing).walk 36).2.world.isComplete) ∧
    (∃ below, Within ((State.ofProgram .initial .handing).visits 20) 0 below) ∧
    handOvers 0 ((State.ofProgram .initial .completing).visits 11) = [] := by
  have handing := Passes.begin .handing
  have sent := one_hand_over (handing.walk 20) 0
  have whole (deferred : Nat) (unbroken : (log deferred
      ((State.ofProgram .initial .handing).visits 36)).any Entry.isBroken = false)
      (left : List Continuation) :
      .broke left ∉ log deferred ((State.ofProgram .initial .handing).visits 36) :=
    fun member => List.any_eq_false.mp unbroken _ member rfl
  refine ⟨(one_hand_over (handing.walk 36) 0).settled (fun _ _ => rfl) ?_, ?_, ?_⟩
  · rintro deferred member
    have among : deferred ∈ [0, 1] := member
    rcases List.mem_cons.mp among with rfl | last
    · exact whole 0 (by decide +kernel)
    · rw [List.mem_singleton.mp last]
      exact whole 1 (by decide +kernel)
  · obtain ⟨deferred, rest, below, placed, within, -⟩ := sent.sent (.queue 0) rfl
    cases placed
    exact ⟨_, within⟩
  · have starts : (State.ofProgram .initial .completing).Starts 0 :=
      ⟨_, _, _, _, rfl, List.mem_singleton_self _⟩
    exact ((one_hand_over (.begin .completing) 0).immediate 10 starts
      (.of_all (by decide +kernel) rfl) rfl).1

end Stepwise
