import Stepwise.Proofs.Retrieval

/-!
# A deferred after its completion

When the call that completes a deferred is over, by a panic or not, the deferred is complete, its
batch is gone, and nobody holds its lock.  Continuations that panic leave it as usable as others
do: what is registered later runs at once, and the outcome is there to be retrieved.  A waker
that panics does not: it is woken under the lock, which is poisoned, and a poll panics from
then on.
-/

namespace Stepwise

variable {state later : State} {past more : List State} {deferred count : Nat}
  {outcome : Outcome}

/-! ## The publication -/

/-- A call that completes a deferred comes to the publication of the outcome before it is over. -/
theorem State.Completes.exists_publish (completes : state.Completes deferred outcome) :
    ∃ fewer, (state.walk fewer).2.control = .task (.publish deferred outcome) ∧
      ∀ count, state.next.Leaves state.callers count → fewer ≤ count := by
  have apart {reply : Reply} : .answering reply :: state.callers ≠ state.callers :=
    List.cons_ne_self _ _
  rcases completes.begins with ⟨publishes, -⟩ | ⟨placed, publishes | ⟨discards, rfl⟩⟩
  · exact ⟨0, publishes, fun _ _ => Nat.zero_le _⟩
  · refine ⟨1, publishes, fun count leaves => ?_⟩
    cases count with
    | zero => exact absurd (placed.symm.trans leaves.back) apart
    | succ count => omega
  · obtain ⟨still, publishes⟩ : state.next.next.stack = state.next.stack ∧
        state.next.next.control = .task (.publish deferred (.error .shutdown)) := by
      generalize state.next = begun at discards
      obtain ⟨world, stack, control⟩ := begun
      subst discards
      exact ⟨rfl, rfl⟩
    refine ⟨2, publishes, fun count leaves => ?_⟩
    rcases count with _ | _ | count
    · exact absurd (placed.symm.trans leaves.back) apart
    · exact absurd ((still.trans placed).symm.trans leaves.back) apart
    · omega

/-- What a call has completed when it is over is published. -/
theorem State.Completes.published (completes : state.Completes deferred outcome)
    (leaves : state.next.Leaves state.callers count) :
    Published (state.visits (count + 1)) deferred outcome := by
  obtain ⟨fewer, publishes, bound⟩ := completes.exists_publish
  exact ⟨_, State.walk_mem_visits (Nat.lt_succ_of_le (bound count leaves)), publishes⟩

/-- A call completes what was not complete. -/
theorem State.Completes.not_over (completes : state.Completes deferred outcome)
    (passes : Passes past state) : ¬ state.world.Over deferred := by
  intro isOver
  obtain ⟨earlier, published⟩ := passes.completed_iff_published.mp isOver.completed
  obtain ⟨fewer, publishes, -⟩ := completes.exists_publish
  have reached := passes.walk fewer
  exact reached.not_completed_of_publish publishes
    (reached.completed_iff_published.mpr ⟨earlier, published.mono (List.subset_append_left ..)⟩)

/-- A call wakes nobody beneath it that was not being woken before. -/
theorem State.Completes.ringing_callers (completes : state.Completes deferred outcome) :
    state.callers.ringing deferred = state.stack.ringing deferred := by
  cases completes with
  | publishes publishes => simp [State.callers, State.base, publishes]
  | completes calls _ | drops calls _ => simp [State.callers, calls, Frame.rings]

/-- Before the call the batch of the deferred is not through, and its lock is free. -/
theorem State.Completes.dormant (completes : state.Completes deferred outcome)
    (passes : Passes past state) : Dormant past deferred state := by
  rcases passes.dormant_or_rung deferred with dormant | rung
  · exact dormant
  · exact absurd rung.isOver (completes.not_over passes)

/-- No panic has poisoned the lock before the call. -/
theorem State.Completes.unspoiled (completes : state.Completes deferred outcome)
    (passes : Passes past state) : ∀ visited ∈ past, ¬ visited.Spoils deferred := by
  intro visited member spoils
  have poisoned := (passes.latched deferred).poisoned.mpr ⟨visited, member, spoils⟩
  rw [(completes.dormant passes).kept] at poisoned
  cases poisoned

/-! ## After the completing call -/

/-- A deferred is complete, its batch is through or lost to a panic, and its waker is not being
woken. -/
structure Retired (deferred : Nat) (state : State) : Prop where
  isOver : state.world.Over deferred
  unfired : state.stack.rests deferred = []
  silent : state.stack.ringing deferred = 0

namespace Retired

theorem next (retired : Retired deferred state) (passes : Passes past state) :
    Retired deferred state.next := by
  refine ⟨state.takesEffect.alters.over retired.isOver,
    passes.rests_next retired.isOver retired.unfired, ?_⟩
  cases passes.reaches.treats.tends deferred with
  | spares _ ringing _ => exact ringing.trans retired.silent
  | sets _ _ _ _ ringing => exact ringing.trans retired.silent
  | rings placed _ _ _ _ _ =>
      have nothing := retired.unfired
      simp [placed, Stack.rests_firing] at nothing
  | ends placed _ _ back =>
      have nobody := retired.silent
      simp [placed, Frame.rings] at nobody

/-- From then on the deferred stays so, and no panic poisons its lock. -/
theorem goesOn (retired : Retired deferred state) (passes : Passes past state)
    (goesOn : state.GoesOn more later) :
    Retired deferred later ∧ ∀ visited ∈ more, ¬ visited.Spoils deferred := by
  induction goesOn with
  | here => exact ⟨retired, by simp⟩
  | next goesOn ih =>
      obtain ⟨retired, unspoiled⟩ := ih
      refine ⟨retired.next (passes.goesOn goesOn), fun visited member => ?_⟩
      rcases List.mem_append.mp member with earlier | now
      · exact unspoiled visited earlier
      · rw [List.mem_singleton.mp now]
        exact State.not_spoils_of_silent retired.silent
  | again program _ ended ih => exact ⟨⟨ih.1.isOver, rfl, rfl⟩, ih.2⟩

end Retired

/-- When the call that completes a deferred is over, the deferred is retired. -/
theorem Passes.retired_of_leaves (passes : Passes past state)
    (completes : state.Completes deferred outcome)
    (leaves : state.next.Leaves state.callers count) :
    Retired deferred (state.next.walk count).2 := by
  have passed : Passes (past ++ state.visits (count + 1)) (state.next.walk count).2 :=
    passes.walk (count + 1)
  have completing := (completes.completing passes).walk passes.next leaves.inside
  rw [List.append_assoc] at completing
  obtain ⟨unfired, -⟩ := completing.through_or_doomed leaves.back
  obtain ⟨docket, -, accords, settled, -⟩ := completing.settled passed leaves.back
  refine ⟨accords.over settled, leaves.back ▸ unfired, ?_⟩
  rw [leaves.back, completes.ringing_callers]
  exact (completes.dormant passes).silent

/-- The lock is poisoned just when a waker has panicked in the call. -/
theorem Passes.poisoned_iff (passes : Passes past state)
    (completes : state.Completes deferred outcome)
    (leaves : state.next.Leaves state.callers count)
    (goesOn : (state.next.walk count).2.GoesOn more later) :
    (later.world.alarm deferred).lock = .poisoned ↔
      ∃ visited ∈ state.visits (count + 1), visited.Spoils deferred := by
  have passed : Passes (past ++ state.visits (count + 1)) (state.next.walk count).2 :=
    passes.walk (count + 1)
  obtain ⟨-, unspoiled⟩ := (passes.retired_of_leaves completes leaves).goesOn passed goesOn
  rw [((passed.goesOn goesOn).latched deferred).poisoned]
  constructor
  · rintro ⟨visited, member, spoils⟩
    rcases List.mem_append.mp member with earlier | after
    · rcases List.mem_append.mp earlier with first | within
      · exact absurd spoils (completes.unspoiled passes visited first)
      · exact ⟨visited, within, spoils⟩
    · exact absurd spoils (unspoiled visited after)
  · rintro ⟨visited, member, spoils⟩
    exact ⟨visited, by simp [member], spoils⟩

/-- What nobody has taken is what the call has completed the deferred with. -/
theorem Passes.retrieve_of_untaken (passes : Passes past state)
    (completes : state.Completes deferred outcome)
    (leaves : state.next.Leaves state.callers count)
    (goesOn : (state.next.walk count).2.GoesOn more later)
    (untaken : ¬ later.world.Taken deferred) :
    (later.world.retrieve deferred).2 = outcome := by
  have whole : Passes (past ++ state.visits (count + 1) ++ more) later :=
    (passes.walk (count + 1)).goesOn goesOn
  have published : Published (past ++ state.visits (count + 1) ++ more) deferred outcome :=
    (completes.published leaves).mono fun visited member => by simp [member]
  exact whole.published_unique (whole.published_of_retrieve
    (whole.completed_iff_published.mpr ⟨outcome, published⟩) untaken) published

/-- A deferred whose completing call is over: nobody holds its lock, which is poisoned just when
a waker has spoiled it; what is registered runs at once; and the outcome is there. -/
structure Survives (spoiled : Prop) (deferred : Nat) (outcome : Outcome) (state : State) :
    Prop where
  complete : state.world.isComplete deferred = true
  unheld : (state.world.alarm deferred).lock ≠ .held
  poisoned : (state.world.alarm deferred).lock = .poisoned ↔ spoiled
  runs : ∀ continuation, state.effect = .registers deferred continuation →
    state.RunsAtOnce deferred continuation
  retrieves : ∀ receipt rest, state.control = .program (.call (.retrieve receipt) rest) →
    state.world.awaiter? receipt = some deferred → ¬ state.world.Taken deferred →
      state.next.control = .reply (.outcome outcome)
  polls : ¬ spoiled → ∀ receipt name rest waker,
    state.control = .program (.call (.poll receipt name) rest) →
      state.world.awaiter? receipt = some deferred →
        state.world.wakers.find? name = some waker → ¬ state.world.Taken deferred →
          state.next.control = .reply (.outcome outcome)
  breaks : spoiled → ∀ receipt name rest waker,
    state.control = .program (.call (.poll receipt name) rest) →
      state.world.awaiter? receipt = some deferred →
        state.world.wakers.find? name = some waker →
          state.next.control = .unwind (.text State.awakening.poisonedMessage)

/-- When a call that completes a deferred is over, whatever has panicked in it, the deferred is
complete and its lock is free, what is registered later runs at once, and the outcome is there
for the next who asks or polls.  Only where the waker that was woken has panicked the lock is
poisoned, and a poll panics. -/
theorem deferred_survives (passes : Passes past state)
    (completes : state.Completes deferred outcome)
    (leaves : state.next.Leaves state.callers count)
    (goesOn : (state.next.walk count).2.GoesOn more later) :
    Survives (∃ visited ∈ state.visits (count + 1), visited.Spoils deferred) deferred outcome
      later := by
  have passed : Passes (past ++ state.visits (count + 1)) (state.next.walk count).2 :=
    passes.walk (count + 1)
  have whole := passed.goesOn goesOn
  obtain ⟨retired, -⟩ := (passes.retired_of_leaves completes leaves).goesOn passed goesOn
  have unheld := (whole.latched deferred).not_held retired.silent
  have poisoned := passes.poisoned_iff completes leaves goesOn
  have offers := passes.retrieve_of_untaken completes leaves goesOn
  obtain ⟨found, lookup, complete, -⟩ := retired.isOver
  have retrieved := World.retrieve_of_get? lookup
  have lock : (later.world.alarm deferred).lock = found.lock :=
    congrArg Alarm.lock (World.alarm_of_get? lookup)
  refine ⟨retired.isOver.isComplete, unheld, poisoned, fun _ registers =>
    whole.runsAtOnce registers retired.isOver.completed, ?_, ?_, ?_⟩
  · intro receipt rest asks may untaken
    rw [State.next_of_retrieve asks may, offers untaken]
  · intro unspoiled receipt name rest waker polls may kept untaken
    have free : found.lock = .free := by
      rw [← poisoned, lock] at unspoiled
      rw [lock] at unheld
      cases stands : found.lock with
      | free => rfl
      | held => exact absurd stands unheld
      | poisoned => exact absurd stands unspoiled
    rw [State.next_of_free_poll polls may kept lookup free, complete, ← retrieved, offers untaken]
    rfl
  · intro spoiled receipt name rest waker polls may kept
    have broken := poisoned.mpr spoiled
    rw [lock] at broken
    rw [State.next_of_poll polls may, kept]
    simp only [State.polling, lookup, broken]
    rfl

/-- Complete a deferred with a callback and a waker, register another callback, and poll. -/
def Program.enduring (callback waker : Program) : Program :=
  .call (.pending (.shared "result") false (.shared "writer")) fun _ =>
    .call (.onComplete (.shared "result") callback) fun _ =>
      .call (.newWaker (.shared "waker") waker) fun _ =>
        .call (.poll (.shared "result") (.shared "waker")) fun _ =>
          .call (.attempt (.call (.complete (.shared "writer") (.ok .null)) .ret)) fun _ =>
            .call (.onComplete (.shared "result") (.ret .done)) fun _ =>
              .call (.poll (.shared "result") (.shared "waker")) .ret

/-- The completing call is about to be made. -/
def State.enduring (callback waker : Program) : State :=
  ((State.ofProgram .initial (.enduring callback waker)).walk 10).2

/-- After the panic of a callback the next one runs at once, and the next poll is answered. -/
theorem deferred_survives_enduring :
    (((State.enduring (.panic (.text "boom")) (.ret .done)).next.walk 6).2.walk 3).2.RunsAtOnce 0
      (.callback (.ret .done)) ∧
    (((State.enduring (.panic (.text "boom")) (.ret .done)).next.walk 6).2.walk 8).2.next.control =
      .reply (.outcome (.ok .null)) := by
  have passes := (Passes.begin (.enduring (.panic (.text "boom")) (.ret .done))).walk 10
  have completes : (State.enduring (.panic (.text "boom")) (.ret .done)).Completes 0 (.ok .null) :=
    .completes rfl rfl
  have leaves : (State.enduring (.panic (.text "boom")) (.ret .done)).next.Leaves
      (State.enduring (.panic (.text "boom")) (.ret .done)).callers 6 :=
    .of_all (by decide +kernel) rfl
  have silent : ((State.enduring (.panic (.text "boom")) (.ret .done)).visits 7).all
      (fun visited => visited.stack.ringing 0 = 0) = true := by decide +kernel
  have survives (more : Nat) :=
    deferred_survives passes completes leaves (State.goesOn_walk _ more)
  refine ⟨(survives 3).runs _ rfl, (survives 8).polls ?_ (.shared "result") (.shared "waker") .ret
    _ rfl rfl rfl ?_⟩
  · rintro ⟨visited, member, spoils⟩
    exact State.not_spoils_of_silent
      (of_decide_eq_true (List.all_eq_true.mp silent visited member)) spoils
  · rintro ⟨found, lookup, taken⟩
    cases lookup
    cases taken

/-- Not every deferred survives: after the panic of its waker the next poll panics. -/
theorem deferred_survives_poisoned :
    ¬ ∀ past state deferred outcome count more later receipt name rest waker, Passes past state →
      state.Completes deferred outcome → state.next.Leaves state.callers count →
      (state.next.walk count).2.GoesOn more later →
      later.control = .program (.call (.poll receipt name) rest) →
      later.world.awaiter? receipt = some deferred →
      later.world.wakers.find? name = some waker → ¬ later.world.Taken deferred →
        later.next.control = .reply (.outcome outcome) := by
  intro honest
  have passes := (Passes.begin (.enduring (.ret .done) (.panic (.text "boom")))).walk 10
  have completes : (State.enduring (.ret .done) (.panic (.text "boom"))).Completes 0 (.ok .null) :=
    .completes rfl rfl
  have leaves : (State.enduring (.ret .done) (.panic (.text "boom"))).next.Leaves
      (State.enduring (.ret .done) (.panic (.text "boom"))).callers 8 :=
    .of_all (by decide +kernel) rfl
  have untaken : ¬ (((State.enduring (.ret .done) (.panic (.text "boom"))).next.walk 8).2.walk
      8).2.world.Taken 0 := by
    rintro ⟨found, lookup, taken⟩
    cases lookup
    cases taken
  have answered := honest _ _ 0 _ 8 _ _ (.shared "result") (.shared "waker") .ret _ passes
    completes leaves (State.goesOn_walk _ 8) rfl rfl rfl untaken
  cases answered

end Stepwise
