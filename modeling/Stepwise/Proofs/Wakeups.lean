import Stepwise.Proofs.Alarms.Locks
import Stepwise.Proofs.Continuations

/-!
# Wake-ups

Of all polls of a deferred that were answered pending, the waker of the latest is kept.  It is
woken when the batch of the deferred is through, and no other waker is woken, now or later; and
no poll is answered pending, or has its waker stored, once the outcome is published.
-/

namespace Stepwise

variable {trace : List Occurrence} {state later : State} {past more : List State}
  {deferred : Nat} {waker : Waker} {outcome : Outcome}

/-! ## Wakers are told apart by their numbers -/

/-- User code has, or had, a waker. -/
def Issued (past : List State) (state : State) (waker : Waker) : Prop :=
  ∃ visited ∈ past ++ [state], ∃ name, visited.world.wakers.find? name = some waker

/-- Wakers of one number are one. -/
structure Numbered (past : List State) (state : State) : Prop where
  bounded : ∀ waker, Issued past state waker → waker.identity < state.world.fresh
  single : ∀ waker other, Issued past state waker → Issued past state other →
    waker.identity = other.identity → waker = other

/-- A small step gives out a number at most, which was in use for no waker. -/
theorem State.Treats.numbers (treats : state.Treats) :
    (state.world.fresh ≤ state.next.world.fresh ∧
      state.next.world.wakers = state.world.wakers) ∨
    ∃ name body, state.next.world.fresh = state.world.fresh + 1 ∧
      state.next.world.wakers = state.world.wakers.insert name ⟨state.world.fresh, body⟩ := by
  cases treats with
  | spares undisturbed _ => exact .inl ⟨undisturbed.fresh, undisturbed.wakers⟩
  | @makes name body rest calls =>
      obtain ⟨world, stack, control⟩ := state
      subst calls
      exact .inr ⟨name, body, rfl, rfl⟩
  | sets _ _ _ _ _ stored =>
      rw [stored]
      exact .inl ⟨Nat.le_refl _, rfl⟩
  | rings _ _ _ rings =>
      rw [rings]
      exact .inl ⟨Nat.le_refl _, rfl⟩
  | returns placed replies =>
      obtain ⟨world, stack, control⟩ := state
      subst placed replies
      exact .inl ⟨Nat.le_refl _, rfl⟩
  | panics placed unwinds =>
      obtain ⟨world, stack, control⟩ := state
      subst placed unwinds
      exact .inl ⟨Nat.le_refl _, rfl⟩

namespace Numbered

/-- Nothing changes for wakers with the next program. -/
theorem congr (numbered : Numbered past state) (same : later.world = state.world) :
    Numbered past later := by
  have before {waker : Waker} (issued : Issued past later waker) :
      Issued past state waker := by
    obtain ⟨visited, member, name, kept⟩ := issued
    rcases List.mem_append.mp member with earlier | now
    · exact ⟨visited, List.mem_append_left _ earlier, name, kept⟩
    · rw [List.mem_singleton.mp now, same] at kept
      exact ⟨state, by simp, name, kept⟩
  refine ⟨fun waker issued => ?_, fun waker other first second =>
    numbered.single waker other (before first) (before second)⟩
  rw [same]
  exact numbered.bounded waker (before issued)

/-- A small step that gives out one more number keeps wakers apart. -/
theorem next (numbered : Numbered past state) (treats : state.Treats) :
    Numbered (past ++ [state]) state.next := by
  -- What is issued was issued before, or has the number that is given out now.
  have before {waker : Waker} (issued : Issued (past ++ [state]) state.next waker) :
      Issued past state waker ∨ ∃ name, state.next.world.wakers.find? name = some waker := by
    obtain ⟨visited, member, name, kept⟩ := issued
    rcases List.mem_append.mp member with earlier | now
    · exact .inl ⟨visited, earlier, name, kept⟩
    · rw [List.mem_singleton.mp now] at kept
      exact .inr ⟨name, kept⟩
  rcases treats.numbers with ⟨grown, same⟩ | ⟨made, body, grown, added⟩
  · have already {waker : Waker} (issued : Issued (past ++ [state]) state.next waker) :
        Issued past state waker := by
      rcases before issued with earlier | ⟨name, kept⟩
      · exact earlier
      · exact ⟨state, by simp, name, same ▸ kept⟩
    exact ⟨fun waker issued => Nat.lt_of_lt_of_le (numbered.bounded waker (already issued)) grown,
      fun waker other first second =>
        numbered.single waker other (already first) (already second)⟩
  · have already {waker : Waker} (issued : Issued (past ++ [state]) state.next waker) :
        Issued past state waker ∨ waker = ⟨state.world.fresh, body⟩ := by
      rcases before issued with earlier | ⟨name, kept⟩
      · exact .inl earlier
      · rw [added, Table.find?_insert] at kept
        split at kept
        · exact .inr (Option.some.inj kept).symm
        · exact .inl ⟨state, by simp, name, kept⟩
    refine ⟨fun waker issued => ?_, fun waker other first second same => ?_⟩
    · rw [grown]
      rcases already issued with earlier | rfl
      · exact Nat.lt_succ_of_lt (numbered.bounded waker earlier)
      · exact Nat.lt_succ_self _
    · rcases already first with earlier | rfl <;> rcases already second with before | rfl
      · exact numbered.single waker other earlier before same
      · have bound := numbered.bounded waker earlier
        simp only at same
        omega
      · have bound := numbered.bounded other before
        simp only at same
        omega
      · rfl

end Numbered

theorem Passes.numbered (passes : Passes past state) : Numbered past state := by
  induction passes with
  | begin program =>
      have none (waker : Waker) : ¬ Issued [] (.ofProgram .initial program) waker := by
        rintro ⟨visited, member, name, kept⟩
        cases List.mem_singleton.mp member
        simp [State.ofProgram, World.initial] at kept
      exact ⟨fun waker issued => absurd issued (none waker),
        fun waker _ issued => absurd issued (none waker)⟩
  | next passes ih => exact ih.next passes.reaches.treats
  | again program _ _ ih => exact ih.congr rfl

/-- The waker of a poll was issued. -/
theorem issued_of_pended {visited : State} (member : visited ∈ past ++ [state])
    (pends : visited.pended? deferred = some waker) : Issued past state waker := by
  unfold State.pended? at pends
  split at pends
  · split at pends
    · exact ⟨visited, member, _, pends⟩
    · cases pends
  · cases pends

/-! ## Before the batch is through -/

/-- The waker of the latest poll that was answered pending. -/
def lastPended (deferred : Nat) (past : List State) : Option Waker :=
  (past.filterMap (State.pended? deferred)).getLast?

theorem lastPended_snoc (deferred : Nat) (past : List State) (state : State) :
    lastPended deferred (past ++ [state]) =
      (state.pended? deferred).or (lastPended deferred past) := by
  cases pended : state.pended? deferred <;> simp [lastPended, pended]

/-- The wakers of a deferred that were woken, oldest first. -/
def woken (deferred : Nat) (past : List State) : List Waker :=
  past.filterMap (State.woken? deferred)

theorem woken_snoc (deferred : Nat) (past : List State) (state : State) :
    woken deferred (past ++ [state]) =
      woken deferred past ++ (state.woken? deferred).toList := by
  cases rings : state.woken? deferred <;> simp [woken, rings]

/-- The batch of a deferred is not through: the waker of the latest poll is kept, and none was
woken. -/
structure Dormant (past : List State) (deferred : Nat) (state : State) : Prop where
  waits : ∀ visited ∈ past, ¬ visited.ComesThrough deferred
  kept : state.world.alarm deferred = ⟨lastPended deferred past, .free⟩
  silent : state.stack.ringing deferred = 0
  unwoken : woken deferred past = []

/-- The batch of a deferred is through, and the waker of the latest poll was woken. -/
structure Rung (past : List State) (deferred : Nat) (state : State) : Prop where
  isOver : state.world.Over deferred
  unfired : state.stack.rests deferred = []
  once : woken deferred past = (lastPended deferred past).toList

namespace Dormant

/-- A poll that is answered pending has its waker kept in place of the one before. -/
theorem next (dormant : Dormant past deferred state) (numbered : Numbered past state)
    (tends : state.Tends deferred) (stays : ¬ state.ComesThrough deferred) :
    Dormant (past ++ [state]) deferred state.next := by
  have waits : ∀ visited ∈ past ++ [state], ¬ visited.ComesThrough deferred := by
    intro visited member
    rcases List.mem_append.mp member with earlier | now
    · exact dormant.waits visited earlier
    · rwa [List.mem_singleton.mp now]
  cases tends with
  | spares alarm ringing unpended =>
      refine ⟨waits, ?_, ringing.trans dormant.silent, ?_⟩
      · rw [alarm, dormant.kept, lastPended_snoc, unpended, Option.none_or]
      · rw [woken_snoc, dormant.unwoken, State.woken?_of_le (Nat.le_of_eq ringing)]
        rfl
  | @sets waker pended _ _ stored ringing =>
      refine ⟨waits, ?_, ringing.trans dormant.silent, ?_⟩
      · rw [stored, dormant.kept, lastPended_snoc, pended, Option.some_or]
        cases last : lastPended deferred past with
        | none => rfl
        | some current =>
            simp only [Alarm.set]
            split
            · next same =>
                obtain ⟨visited, member, earlier⟩ :=
                  List.mem_filterMap.mp (List.mem_of_getLast? last)
                rw [numbered.single current waker
                  (issued_of_pended (List.mem_append_left _ member) earlier)
                  (issued_of_pended (by simp) pended) same]
            · rfl
      · rw [woken_snoc, dormant.unwoken, State.woken?_of_le (Nat.le_of_eq ringing)]
        rfl
  | rings placed replies _ _ _ _ => exact absurd ⟨_, _, placed, replies⟩ stays
  | ends placed _ _ _ =>
      have silent := dormant.silent
      simp [placed, Frame.rings] at silent

/-- When the batch is through, the waker that is kept is woken. -/
theorem rung (dormant : Dormant past deferred state) (passes : Passes past state)
    (through : state.ComesThrough deferred) : Rung (past ++ [state]) deferred state.next := by
  obtain ⟨docket, -, accords⟩ := passes.accords deferred
  obtain ⟨below, reply, placed, replies⟩ := through
  rw [placed] at accords
  obtain ⟨-, isOver, nothing⟩ := accords.of_firing
  refine ⟨state.takesEffect.alters.over isOver, ?_, ?_⟩
  · have batches := state.takesEffect.batches
    have base : state.base = below := by simp [State.base, placed, replies]
    have none : state.leaves? = none := by simp [State.leaves?, placed, replies]
    rw [base, none] at batches
    simpa [Stack.rests, batches] using nothing
  · have unpended : state.pended? deferred = none :=
      State.pended?_of_control (by simp [replies])
    have goesOn : state.next = .awakening state.world below deferred := by
      obtain ⟨world, stack, control⟩ := state
      subst placed replies
      rfl
    rw [woken_snoc, dormant.unwoken, lastPended_snoc, unpended, Option.none_or, List.nil_append]
    rcases State.awakening_cases state.world below deferred with
      ⟨undisturbed, unkept⟩ | ⟨waker, alarm, rings⟩
    · have last := unkept (by rw [dormant.kept])
      rw [dormant.kept] at last
      have quiet : state.woken? deferred = none := by
        refine State.woken?_of_le (Nat.le_of_eq ?_)
        rw [goesOn, undisturbed.ringing, placed]
        rfl
      rw [quiet, show lastPended deferred past = none from last]
    · have last : lastPended deferred past = some waker :=
        congrArg Alarm.waker (dormant.kept.symm.trans alarm)
      have wakes : state.woken? deferred = some waker := by
        simp [State.woken?, goesOn, rings, placed, alarm, Frame.rings]
      rw [wakes, last]

end Dormant

/-- A deferred that is complete and has no batch on the stack gets none. -/
theorem Passes.rests_next (passes : Passes past state) (isOver : state.world.Over deferred)
    (unfired : state.stack.rests deferred = []) : state.next.stack.rests deferred = [] := by
  have still : state.turned? deferred = none := by
    refine Option.eq_none_iff_forall_not_mem.mpr fun entry turned => ?_
    obtain ⟨below, ⟨first, rest, -, placed, -⟩ | ⟨left, payload, -, placed, -⟩⟩ :=
      State.stack_of_turned turned
    all_goals simp [placed, Stack.rests_firing] at unfired
  have unpublished (outcome : Outcome) : state.control ≠ .task (.publish deferred outcome) :=
    fun publishes => passes.not_completed_of_publish publishes isOver.completed
  rcases state.rests_next still unpublished with same | popped
  · exact same.symm.trans unfired
  · cases popped.symm.trans unfired

theorem World.Over.isComplete {world : World} (isOver : world.Over deferred) :
    world.isComplete deferred = true := by
  obtain ⟨found, lookup, complete, -⟩ := isOver
  rw [World.isComplete_of_get? lookup, complete]

namespace Rung

/-- Once the batch is through, nobody is woken, and no waker is kept. -/
theorem next (rung : Rung past deferred state) (passes : Passes past state)
    (tends : state.Tends deferred) : Rung (past ++ [state]) deferred state.next := by
  refine ⟨state.takesEffect.alters.over rung.isOver, passes.rests_next rung.isOver rung.unfired,
    ?_⟩
  · rw [woken_snoc, lastPended_snoc, rung.once]
    cases tends with
    | spares _ ringing unpended => simp [State.woken?_of_le (Nat.le_of_eq ringing), unpended]
    | sets _ _ incomplete _ _ => cases incomplete.symm.trans rung.isOver.isComplete
    | rings placed _ _ _ _ _ =>
        have nothing := rung.unfired
        simp [placed, Stack.rests_firing] at nothing
    | ends placed how _ back =>
        have unpended : state.pended? deferred = none := by
          refine State.pended?_of_control fun _ _ _ => ?_
          rcases how with ⟨⟨reply, replies⟩, -⟩ | ⟨⟨payload, unwinds⟩, -⟩
          · simp [replies]
          · simp [unwinds]
        have quiet : state.woken? deferred = none := by
          refine State.woken?_of_le ?_
          rw [back, placed, Stack.ringing_cons]
          exact Nat.le_add_right _ _
        simp [unpended, quiet]

end Rung

/-- At all times the batch of a deferred is not through, and nobody was woken, or it is, and the
waker of the latest poll was. -/
theorem Passes.dormant_or_rung (passes : Passes past state) (deferred : Nat) :
    Dormant past deferred state ∨ Rung past deferred state := by
  induction passes with
  | begin program =>
      exact .inl ⟨by simp, by simp [State.ofProgram, World.initial, World.alarm, Alarm.unset,
        lastPended], rfl, rfl⟩
  | @next past state passes ih =>
      have tends := passes.reaches.treats.tends deferred
      rcases ih with dormant | rung
      · by_cases through : state.ComesThrough deferred
        · exact .inr (dormant.rung passes through)
        · exact .inl (dormant.next passes.numbered tends through)
      · exact .inr (rung.next passes tends)
  | again program _ ended ih =>
      rcases ih with ⟨waits, kept, -, unwoken⟩ | ⟨isOver, -, once⟩
      · exact .inl ⟨waits, kept, rfl, unwoken⟩
      · exact .inr ⟨isOver, rfl, once⟩

/-! ## The wake-up -/

/-- A run has come to each state that it has gone out of. -/
theorem Passes.of_split {whole before after : List State} {visited : State}
    (passes : Passes whole state) (split : whole = before ++ visited :: after) :
    Passes before visited := by
  induction passes generalizing after with
  | begin _ => simp at split
  | again _ _ _ ih => exact ih split
  | next passes ih =>
      rcases List.eq_nil_or_concat after with rfl | ⟨rest, final, rfl⟩
      · obtain ⟨rfl, same⟩ := List.append_inj' split rfl
        cases same
        exact passes
      · rw [List.concat_eq_append, ← List.cons_append, ← List.append_assoc] at split
        exact ih (List.append_inj' split rfl).1

/-- A waker runs as soon as it is woken, when the outcome is published and all continuations that
were registered have run. -/
theorem Passes.timely (passes : Passes past state)
    (wakes : state.woken? deferred = some waker) :
    state.next.control = .program waker.body ∧
      (∃ outcome, Published past deferred outcome) ∧ AllRun (log deferred past) := by
  have nobody {same : Prop} (fewer : state.next.stack.ringing deferred ≤
      state.stack.ringing deferred) : same := by
    rw [State.woken?_of_le fewer] at wakes
    cases wakes
  cases passes.reaches.treats.tends deferred with
  | spares _ ringing _ => exact nobody (Nat.le_of_eq ringing)
  | sets _ _ _ _ ringing => exact nobody (Nat.le_of_eq ringing)
  | ends placed _ _ back =>
      refine nobody ?_
      rw [back, placed, Stack.ringing_cons]
      exact Nat.le_add_right _ _
  | rings placed replies kept _ _ runs =>
      have same := wakes
      rw [State.woken?, kept] at same
      split at same
      · cases same
        obtain ⟨docket, comes, accords⟩ := passes.accords deferred
        rw [placed] at accords
        obtain ⟨rfl, isOver, -⟩ := accords.of_firing
        exact ⟨runs, passes.completed_iff_published.mp isOver.completed, comes.allRun rfl⟩
      · cases same

/-- A poll of a deferred whose outcome is published is not answered pending, and stores no
waker. -/
theorem Passes.ready_of_poll {receipt name : Name} {rest : Reply → Program}
    (passes : Passes past state)
    (polls : state.control = .program (.call (.poll receipt name) rest))
    (may : state.world.awaiter? receipt = some deferred)
    (published : Published past deferred outcome) :
    state.next.control ≠ .reply .notYet ∧
      state.next.world.alarm deferred = state.world.alarm deferred := by
  obtain ⟨found, present, complete⟩ := passes.completed_iff_published.mpr ⟨outcome, published⟩
  have lookup : state.world.deferreds.get? deferred = some found := present
  rw [State.next_of_poll polls may]
  cases state.world.wakers.find? name with
  | none => exact ⟨by simp [State.refusing], rfl⟩
  | some waker =>
      rcases State.polling_cases waker lookup with ⟨undisturbed, answered⟩ | ⟨-, pending, -⟩
      · exact ⟨answered, by rw [undisturbed.alarms]⟩
      · cases complete.symm.trans pending

/-- Of the polls of a deferred that were answered pending, the waker of the latest was woken once,
when the outcome was published and all continuations that were registered had run, and no other
waker was woken. -/
structure WokenOnce (past : List State) (deferred : Nat) : Prop where
  once : woken deferred past = (lastPended deferred past).toList
  timely : ∀ before visited after waker, past = before ++ visited :: after →
    visited.woken? deferred = some waker →
      visited.next.control = .program waker.body ∧
        (∃ outcome, Published before deferred outcome) ∧ AllRun (log deferred before)

/-- No wake-up is missed, and none is stale.  A poll after the publication is not answered
pending, and stores no waker.  When the completing call has returned, the waker of the latest
poll that was answered pending has been woken once, after the publication and after the
continuations, and nobody else has been or ever will be. -/
theorem latest_waker_woken (passes : Passes past state) (deferred : Nat) :
    (∀ receipt name rest outcome,
      state.control = .program (.call (.poll receipt name) rest) →
        state.world.awaiter? receipt = some deferred → Published past deferred outcome →
          state.next.control ≠ .reply .notYet ∧
            state.next.world.alarm deferred = state.world.alarm deferred) ∧
    ∀ outcome count more later, state.Completes deferred outcome →
      state.next.Leaves state.callers count →
      (∃ reply, (state.next.walk count).2.control = .reply reply) →
      (state.next.walk count).2.GoesOn more later →
        WokenOnce (past ++ state.visits (count + 1) ++ more) deferred := by
  refine ⟨fun _ _ _ _ polls may published => passes.ready_of_poll polls may published, ?_⟩
  rintro outcome count more later completes leaves ⟨reply, replies⟩ goesOn
  have whole : Passes (past ++ state.visits (count + 1) ++ more) later :=
    (passes.walk (count + 1)).goesOn goesOn
  have completing := (completes.completing passes).walk passes.next leaves.inside
  rw [List.append_assoc] at completing
  refine ⟨?_, fun before visited after waker split wakes => (whole.of_split split).timely wakes⟩
  obtain ⟨-, ⟨⟨visited, member, through⟩, -⟩ | ⟨doomed, -⟩⟩ :=
    completing.through_or_doomed leaves.back
  · rcases whole.dormant_or_rung deferred with dormant | rung
    · exact absurd through (dormant.waits visited (List.mem_append_left _ member))
    · exact rung.once
  · exact absurd replies (doomed.not_reply leaves.back)

/-- Poll a deferred with two wakers, one after the other, and complete it. -/
def Program.rousing : Program :=
  .call (.pending (.shared "result") false (.shared "writer")) fun _ =>
    .call (.newWaker (.shared "early") (.ret .done)) fun _ =>
      .call (.newWaker (.shared "late") (.ret .notYet)) fun _ =>
        .call (.poll (.shared "result") (.shared "early")) fun _ =>
          .call (.poll (.shared "result") (.shared "late")) fun _ =>
            .call (.complete (.shared "writer") (.ok .null)) fun _ =>
              .call (.poll (.shared "result") (.shared "early")) .ret

/-- The completing call is about to be made. -/
def State.rousing : State := ((State.ofProgram .initial .rousing).walk 10).2

/-- The later waker is woken, the earlier one is not, and a poll with it is not answered pending
afterwards. -/
theorem latest_waker_woken_rousing :
    (State.rousing.walk 7).2.next.control ≠ .reply .notYet ∧
    ∃ past, WokenOnce past 0 ∧ woken 0 past = [⟨2, .ret .notYet⟩] := by
  have passes : Passes ([] ++ (State.ofProgram .initial .rousing).visits 10) .rousing :=
    (Passes.begin .rousing).walk 10
  have leaves : State.rousing.next.Leaves State.rousing.callers 5 :=
    .of_all (by decide +kernel) rfl
  have published : Published (([] ++ (State.ofProgram .initial .rousing).visits 10) ++
      State.rousing.visits 7) 0 (.ok .null) :=
    ⟨State.rousing.next,
      List.mem_append_right _ (List.mem_cons_of_mem _ (List.mem_cons_self ..)), rfl⟩
  exact ⟨((latest_waker_woken (passes.walk 7) 0).1 _ _ _ _ rfl rfl published).1, _,
    (latest_waker_woken passes 0).2 (.ok .null) 5 _ _ (.completes rfl rfl) leaves ⟨_, rfl⟩
      (State.goesOn_walk _ 3), rfl⟩

end Stepwise
