import Mathlib.Data.List.Chain
import Stepwise.Proofs.Promise

/-!
# Towers of machines

A machine can await what another one has promised, and end with whatever it retrieves.
Machines that do so one above the other make a tower.  The outcome of the innermost machine
passes through the tower unchanged, whichever schedulers the machines have, and whether each
finds the one beneath it finished or has to wait for it.
-/

namespace Stepwise

variable {past : List State} {state : State} {inner machine deferred : Nat} {outcome : Outcome}
  {earlier made : List (Move Nat)} {trace : List Occurrence}

/-! ## Machines that pass an outcome on -/

/-- How a step ends that settles an outcome. -/
def Ending.settle {ι : Type} : Outcome → Ending ι
  | .ok value => .complete value
  | .error error => .fail error

/-- What a machine may do next that awaits one deferred and ends with whatever it retrieves from
it: its steps await the deferred until one retrieves the result, and that one ends with it. -/
inductive Relaying (deferred : Nat) (earlier : List (Move Nat)) : Move Nat → Prop where
  | called {position : Position} : Relaying deferred earlier (.called position)
  | awaits {resumeAt : Nat} : ¬ Retrieved earlier deferred →
      Relaying deferred earlier (.ended (.await resumeAt deferred))
  | retrieves {result : Outcome} : Awaited earlier deferred → ¬ Retrieved earlier deferred →
      Relaying deferred earlier (.retrieved deferred result)
  | settles {result : Outcome} : .retrieved deferred result ∈ earlier →
      Relaying deferred earlier (.ended (.settle result))

/-- In the moves of a machine that passes an outcome on, a step that has ended awaits the deferred,
or settles what was retrieved from it. -/
theorem Relaying.ended {position : Position} {ending : Ending Nat}
    (relays : Unfolds (Relaying deferred) made)
    (stands : standing made = some (position, some ending)) :
    (∃ resumeAt, ending = .await resumeAt deferred) ∨
      ∃ result, ending = .settle result ∧ .retrieved deferred result ∈ made := by
  induction relays with
  | nil => cases stands
  | @snoc earlier last _ allowed ih =>
      rw [standing_snoc] at stands
      cases allowed with
      | called => cases stands
      | retrieves _ _ =>
          refine (ih stands).imp_right ?_
          rintro ⟨result, same, member⟩
          exact ⟨result, same, List.mem_append_left _ member⟩
      | @awaits resumeAt _ =>
          obtain ⟨step, -, same⟩ := Option.map_eq_some_iff.mp stands
          cases same
          exact .inl ⟨resumeAt, rfl⟩
      | @settles result member =>
          obtain ⟨step, -, same⟩ := Option.map_eq_some_iff.mp stands
          cases same
          exact .inr ⟨result, rfl, List.mem_append_left _ member⟩

theorem Move.map_id (made : List (Move Nat)) : made.map (Move.map id) = made := by
  have same (move : Move Nat) : move.map id = move := by
    cases move with
    | ended ending => cases ending <;> rfl
    | called _ | retrieved _ _ => rfl
  exact (List.map_congr_left fun move _ => same move).trans (List.map_id made)

/-- Where a step is called, whatever the machine awaits is complete. -/
theorem Passes.completed_of_calls {position last : Position} {resumeAt awaited : Nat}
    (passes : Passes past state) (calls : state.Calls machine position)
    (stands : standing (Stepwise.moves machine past) =
      some (last, some (.await resumeAt awaited))) :
    state.world.ledger.Completed awaited := by
  have named := (Move.map_id (Stepwise.moves machine past)).symm
  rcases (passes.reaches.ready_of_calls calls).2 with ⟨-, unstepped⟩ |
    ⟨_, other, found, -, ⟨_, ended⟩, there, complete⟩
  · cases stands.symm.trans (passes.standing_of_unstepped named unstepped)
  · obtain ⟨labelled, stood, same⟩ := passes.standing_of_ended named ended
    cases stands.symm.trans stood
    cases same
    exact ⟨found, there, complete⟩

/-- A machine that passes an outcome on takes it when it retrieves it, and gets what was
published. -/
theorem Passes.accounts_of_retrieval (passes : Passes past state)
    (accounts : Accounts (· = deferred) id state.world (Stepwise.moves machine past))
    (allowed : Relaying deferred (Stepwise.moves machine past) (.retrieved deferred outcome))
    (retrieves : state.retrieval? machine = some deferred) :
    Accounts (· = deferred) id state.next.world
        (Stepwise.moves machine past ++ [.retrieved deferred (state.world.retrieve deferred).2]) ∧
      Published past deferred (state.world.retrieve deferred).2 := by
  have order := passes.reaches.inOrder
  obtain ⟨awaited, fresh⟩ : Awaited (Stepwise.moves machine past) deferred ∧
      ¬ Retrieved (Stepwise.moves machine past) deferred := by
    cases allowed with
    | retrieves awaited fresh => exact ⟨awaited, fresh⟩
  obtain ⟨position, under⟩ := State.step_of_retrieval order retrieves
  have stands := passes.standing_of_step (Move.map_id (Stepwise.moves machine past)).symm under
  have completed : state.world.ledger.Completed deferred := by
    rcases accounts.completed deferred awaited with ⟨_, _, stood⟩ | completed
    · cases stands.symm.trans stood
    · exact completed
  refine ⟨accounts.retrieved (State.onward_next order) stands
    (State.taken_of_retrieval retrieves completed) ?_,
    passes.published_of_retrieve completed fun taken =>
      fresh ((accounts.taken deferred rfl).mp taken)⟩
  rintro label rfl different
  exact absurd rfl different

/-- A machine that passes an outcome on, and alone takes it from the deferred, has retrieved what
was published there. -/
theorem Passes.relays (passes : Passes past state)
    (relays : Unfolds (Relaying deferred) (Stepwise.moves machine past))
    (alone : ∀ visited ∈ past, ¬ visited.world.Taken deferred →
      visited.next.world.Taken deferred → visited.retrieval? machine = some deferred) :
    Accounts (· = deferred) id state.world (Stepwise.moves machine past) ∧
      ∀ result, .retrieved deferred result ∈ Stepwise.moves machine past →
        Published past deferred result := by
  induction passes with
  | begin program =>
      refine ⟨⟨fun _ awaits => awaits.elim fun _ => List.not_mem_nil.elim, ?_⟩,
        fun _ => List.not_mem_nil.elim⟩
      rintro label -
      constructor
      · rintro ⟨found, lookup, -⟩
        cases lookup
      · rintro ⟨_, member⟩
        cases member
  | again _ _ _ ih => exact ih relays alone
  | @next past state passed ih =>
      have named := (Move.map_id (Stepwise.moves machine past)).symm
      rw [moves_snoc] at relays ⊢
      obtain ⟨accounts, published⟩ := ih relays.of_append fun visited member =>
        alone visited (List.mem_append_left _ member)
      have onward := State.onward_next passed.reaches.inOrder
      have kept (result : Outcome)
          (member : .retrieved deferred result ∈ Stepwise.moves machine past) :
          Published (past ++ [state]) deferred result :=
        (published result member).mono (List.subset_append_left ..)
      -- What the machine does not retrieve in this small step, nobody takes.
      have quiet (silent : state.retrieval? machine = none) (label : Nat)
          (same : label = deferred) (untaken : ¬ state.world.Taken label) :
          ¬ state.next.world.Taken label := by
        subst same
        intro took
        cases silent.symm.trans (alone state (by simp) untaken took)
      rcases state.moves_cases machine with ⟨position, calls, -, moved, silent⟩ |
        ⟨ending, callers, ends, -, moved, silent⟩ | ⟨-, moved⟩
      · rw [moved]
        refine ⟨(accounts.called fun _ _ _ stands => passed.completed_of_calls calls stands).onward
          onward (quiet silent), fun result member => kept result (by simpa using member)⟩
      · obtain ⟨-, _, -, under⟩ := State.called_of_ends passed.reaches.inOrder ends
        rw [moved]
        exact ⟨(accounts.ended (passed.standing_of_step named under)).onward onward (quiet silent),
          fun result member => kept result (by simpa using member)⟩
      · cases retrieves : state.retrieval? machine with
        | none =>
            rw [moved, retrieves]
            simp only [Option.toList_none, List.map_nil, List.append_nil]
            exact ⟨accounts.onward onward (quiet retrieves), kept⟩
        | some other =>
            rw [moved, retrieves] at relays ⊢
            simp only [Option.toList_some, List.map_singleton] at relays ⊢
            obtain rfl : other = deferred := by
              cases relays.allows with
              | retrieves _ _ => rfl
            obtain ⟨later, given⟩ := passed.accounts_of_retrieval accounts relays.allows retrieves
            refine ⟨later, fun result member => ?_⟩
            rcases List.mem_append.mp member with before | now
            · exact kept result before
            · cases List.mem_singleton.mp now
              exact given.mono (List.subset_append_left ..)

/-! ## What was told before -/

/-- The end of a step that settles a result leaves no other outcome. -/
theorem StepEnd.eq_of_settle {ending : StepEnd} {result : Outcome} {position : Position}
    (settles : ending.ending = .settle result) (final : ending.outcome? position = some outcome) :
    result = outcome := by
  cases ending with
  | panicked payload => cases result <;> cases settles
  | returned step =>
      cases result with
      | ok value =>
          cases step <;> cases settles
          exact Option.some.inj final
      | error error =>
          cases step <;> cases settles
          simp only [outcome?] at final
          split at final
          · cases final
          · exact Option.some.inj final

namespace Chronicle

/-- A machine is cancelled, or has lost its resumption, only where that has happened. -/
theorem stopped_afterAll {chronicle : Chronicle} {occurrences : List Occurrence} :
    (((chronicle.afterAll occurrences).life machine).cancelled = true →
      (chronicle.life machine).cancelled = true ∨ .cancelled machine ∈ occurrences) ∧
    (((chronicle.afterAll occurrences).life machine).abandoned = true →
      (chronicle.life machine).abandoned = true ∨ .abandoned machine ∈ occurrences) := by
  induction occurrences generalizing chronicle with
  | nil => exact ⟨.inl, .inl⟩
  | cons occurrence rest ih =>
      have first : (((chronicle.after occurrence).life machine).cancelled = true →
            (chronicle.life machine).cancelled = true ∨ occurrence = .cancelled machine) ∧
          (((chronicle.after occurrence).life machine).abandoned = true →
            (chronicle.life machine).abandoned = true ∨ occurrence = .abandoned machine) := by
        cases occurrence with
        | started other _ _ | called other _ | ended other _ | cancelled other | abandoned other
        | told other _ =>
            by_cases here : machine = other <;> simp_all [after, Life.unborn]
        | _ => exact ⟨.inl, .inl⟩
      rw [afterAll_cons]
      constructor
      · intro asked
        rcases ih.1 asked with before | later
        · exact (first.1 before).imp_right fun same => by simp [same]
        · exact .inr (List.mem_cons_of_mem _ later)
      · intro lost
        rcases ih.2 lost with before | later
        · exact (first.2 before).imp_right fun same => by simp [same]
        · exact .inr (List.mem_cons_of_mem _ later)

end Chronicle

/-- Where a machine is told an outcome, nothing else happens. -/
theorem State.occurrences_of_told {chronicle : Chronicle} (order : state.InOrder chronicle)
    (told : .told machine outcome ∈ state.occurrences) :
    state.occurrences = [.told machine outcome] := by
  have finishes : state.control = .task (.finish machine outcome) :=
    drives_of_occurrences told rfl
  obtain ⟨world, stack, control⟩ := state
  subst finishes
  exact (tells_of_finish order).1

namespace Passes

variable {before after : List State} {visited : State}

/-- A machine that passes an outcome on, and is neither cancelled nor loses its resumption, is told
what it has retrieved. -/
theorem retrieved_of_told (passes : Passes past state)
    (relays : Unfolds (Relaying deferred) (Stepwise.moves machine past))
    (uncancelled : .cancelled machine ∉ past.flatMap State.occurrences)
    (kept : .abandoned machine ∉ past.flatMap State.occurrences)
    (told : .told machine outcome ∈ past.flatMap State.occurrences) :
    .retrieved deferred outcome ∈ Stepwise.moves machine past := by
  have named := (Move.map_id (Stepwise.moves machine past)).symm
  have settled {position : Position} {ending : StepEnd}
      (final : ending.outcome? position = some outcome)
      (ended : (life machine past).step = some (position, some ending)) :
      .retrieved deferred outcome ∈ Stepwise.moves machine past := by
    obtain ⟨labelled, stands, same⟩ := passes.standing_of_ended named ended
    rcases Relaying.ended relays stands with ⟨resumeAt, rfl⟩ | ⟨result, rfl, member⟩
    · cases ending with
      | panicked _ => cases same
      | returned result =>
          cases result <;> cases same
          cases final
    · have settles : ending.ending = .settle result := by cases result <;> exact same.symm
      rwa [← StepEnd.eq_of_settle settles final]
  cases passes.reaches.explains (passes.reaches.told_iff.mpr told) with
  | completed ended => exact settled rfl ended
  | failed ended ordinary => exact settled (by simp [StepEnd.outcome?, ordinary]) ended
  | panicked ended => exact settled rfl ended
  | cancelled asked _ =>
      exact absurd ((Chronicle.stopped_afterAll.1 asked).resolve_left Bool.false_ne_true) uncancelled
  | abandoned lost _ =>
      exact absurd ((Chronicle.stopped_afterAll.2 lost).resolve_left Bool.false_ne_true) kept

/-- Where a machine is told an outcome, the outcome is published next on what it has promised. -/
theorem publishes_of_told (passes : Passes past state)
    (promised : (life machine past).Promises deferred) (split : past = before ++ visited :: after)
    (told : .told machine outcome ∈ visited.occurrences) :
    visited.next.control = .task (.publish deferred outcome) := by
  have earlier := passes.of_split split
  have finishes : visited.control = .task (.finish machine outcome) :=
    State.drives_of_occurrences told rfl
  have order := earlier.reaches.inOrder
  have permitted := passes.reaches.permitsAll
  rw [life, split, List.flatMap_append, Chronicle.of_append] at promised
  rw [split, List.flatMap_append, Chronicle.permitsAll_append] at permitted
  obtain ⟨world, stack, control⟩ := visited
  subst finishes
  obtain ⟨-, ⟨observer, observes, calls⟩, -⟩ := State.tells_of_finish order
  -- The machine has had its observer ever since it was started.
  have born : (Chronicle.of (before.flatMap State.occurrences)).life machine ≠ .unborn := by
    intro unborn
    simp [unborn, Life.unborn] at observes
  have promises : some observer = some (.writer deferred) := by
    rw [← observes, ← promised]
    exact (Chronicle.observer_afterAll permitted.2 born).symm
  cases promises
  exact calls

/-- A machine is told once. -/
theorem told_once {other : Outcome} (passes : Passes past state)
    (split : past = before ++ visited :: after)
    (told : .told machine outcome ∈ visited.occurrences) :
    .told machine other ∉ before.flatMap State.occurrences ∧
      .told machine other ∉ after.flatMap State.occurrences := by
  have permitted := passes.reaches.permitsAll
  rw [split, List.flatMap_append, List.flatMap_cons, ← List.append_assoc] at permitted
  -- Whatever comes after the telling of a machine does not tell it.
  have later {first second : List Occurrence} {settled : Outcome}
      (permits : Chronicle.blank.PermitsAll (first ++ second))
      (member : .told machine settled ∈ first) (again : Outcome) :
      .told machine again ∉ second := by
    obtain ⟨older, newer, rfl⟩ := List.append_of_mem member
    rw [List.append_assoc, List.cons_append, Chronicle.permitsAll_append] at permits
    intro repeated
    exact (@Chronicle.settled_of_told _ machine settled _ permits.2.2 (by simp [Chronicle.after]) _
      (List.mem_append_right _ repeated)).1 again rfl
  constructor
  · intro member
    rw [List.append_assoc] at permitted
    exact later permitted member outcome (List.mem_append_left _ told)
  · exact later permitted (List.mem_append_right _ told) other

end Passes

/-- What ends a machine is no breach of protocol. -/
theorem Life.Explains.ordinary {life : Life} {error : Error}
    (explains : life.Explains (.error error)) : error.isFatal = false := by
  cases explains with
  | failed _ ordinary => exact ordinary
  | panicked _ | cancelled _ _ | abandoned _ _ => rfl

/-! ## Storeys -/

/-- A machine awaits what another one has promised, and passes on whatever it retrieves from it.
It alone takes the result, it is not cancelled, and nothing that resumes it is dropped. -/
structure Storey (past : List State) (inner machine deferred : Nat) : Prop where
  promised : ∃ form, .started inner form (.writer deferred) ∈ past.flatMap State.occurrences
  started : ∃ form observer, .started machine form observer ∈ past.flatMap State.occurrences
  relays : Unfolds (Relaying deferred) (moves machine past)
  alone : ∀ visited ∈ past, ¬ visited.world.Taken deferred →
    visited.next.world.Taken deferred → visited.retrieval? machine = some deferred
  uncancelled : .cancelled machine ∉ past.flatMap State.occurrences
  kept : .abandoned machine ∉ past.flatMap State.occurrences

/-- What resumes a machine has run: it is neither being fired, nor with a scheduler, nor being
dropped, and no call works on the machine. -/
structure State.AtRest (state : State) (machine : Nat) : Prop where
  isOpen : state.isOpen = true
  unclaimed : Holding.amount (.claim machine) (Stack.holdings state.stack) = 0
  unfired : Holding.amount (.resumption machine) (Stack.holdings state.stack) = 0
  unqueued : ∀ keeper, ¬ state.world.ledger.Holds (.queued keeper) (.resumption machine)

/-- When all code has ended and nothing is queued, what resumes any machine has run. -/
theorem State.atRest_of_drained (ended : state.hasEnded)
    (drained : state.world.isDrained = true) (machine : Nat) : state.AtRest machine where
  isOpen := isOpen_of_hasEnded ended
  unclaimed := by simp [ended.1, Stack.holdings]
  unfired := by simp [ended.1, Stack.holdings]
  unqueued := by
    intro keeper holds
    obtain ⟨_, same⟩ := holds.registered drained
    cases same

/-- A machine at rest that is suspended awaits something incomplete. -/
theorem State.AtRest.incomplete {chronicle : Chronicle} {found : Activation}
    (rests : state.AtRest machine) (custody : Custody state.world.ledger chronicle [] state.stack)
    (lookup : state.world.activations.get? machine = some found)
    (one : state.world.ledger.total [] state.stack (.resumption machine) = 1) :
    ∃ awaited, found.pending = some awaited ∧ state.world.isComplete awaited = false := by
  have unheld {site : Site} {continuation : Continuation}
      (held : .continuation site continuation ∈ Stack.holdings state.stack)
      (carried : .resumption machine ∈ continuation.assets) : False := by
    have positive := Holding.amount_pos_of_mem held carried
    rw [rests.unfired] at positive
    exact Nat.lt_irrefl 0 positive
  obtain ⟨awaited, pending, places⟩ :=
    State.places_of_resumption custody lookup (by rw [one]; exact Nat.one_pos)
  refine ⟨awaited, pending, ?_⟩
  cases places with
  | registered _ incomplete => exact incomplete
  | fired where_ _ =>
      rcases where_ with ⟨rest, among, member⟩ | drops
      · exact (unheld (List.mem_flatMap.mpr ⟨_, among,
          List.mem_map.mpr ⟨_, member, rfl⟩⟩) (List.mem_singleton_self _)).elim
      · exact (unheld drops.mem_holdings (List.mem_singleton_self _)).elim
  | handedOver where_ _ =>
      rcases where_ with holds | drops
      · exact (rests.unqueued _ holds).elim
      · exact (unheld drops.mem_holdings (List.mem_singleton_self _)).elim

namespace Storey

variable {before after : List State} {visited : State} {other : Outcome}

/-- Whatever a machine was told that passes an outcome on was published before on what it
awaits. -/
theorem published (storey : Storey past inner machine deferred) (passes : Passes past state)
    (split : past = before ++ visited :: after)
    (told : .told machine other ∈ visited.occurrences) : Published before deferred other := by
  have through := (passes.of_split split).next
  have longer : past = (before ++ [visited]) ++ after := by simp [split]
  have inside {occurrence : Occurrence}
      (absent : occurrence ∉ past.flatMap State.occurrences) :
      occurrence ∉ (before ++ [visited]).flatMap State.occurrences := by
    rw [longer, List.flatMap_append] at absent
    exact fun member => absent (List.mem_append_left _ member)
  have relays : Unfolds (Relaying deferred) (moves machine (before ++ [visited])) := by
    have whole := storey.relays
    rw [longer, moves, List.flatMap_append] at whole
    exact whole.of_append
  obtain ⟨-, published⟩ := through.relays relays fun earlier member =>
    storey.alone earlier (longer ▸ List.mem_append_left _ member)
  obtain ⟨publisher, member, publishes⟩ := published other (through.retrieved_of_told relays
    (inside storey.uncancelled) (inside storey.kept) (by simp [told]))
  rcases List.mem_append.mp member with earlier | now
  · exact ⟨publisher, earlier, publishes⟩
  · have finishes : visited.control = .task (.finish machine other) :=
      State.drives_of_occurrences told rfl
    rw [List.mem_singleton.mp now, finishes] at publishes
    cases publishes

/-- The machine above is told what the one beneath was told, and later. -/
theorem told_before (storey : Storey past inner machine deferred) (passes : Passes past state)
    (innermost : .told inner outcome ∈ past.flatMap State.occurrences)
    (split : past = before ++ visited :: after)
    (told : .told machine other ∈ visited.occurrences) :
    other = outcome ∧ .told inner outcome ∈ before.flatMap State.occurrences := by
  have published := storey.published passes split told
  obtain ⟨form, started⟩ := storey.promised
  have promised : (life inner past).Promises deferred := passes.reaches.promises_of_started started
  refine ⟨passes.eq_of_told promised innermost
    (published.mono (split ▸ List.subset_append_left ..)), ?_⟩
  obtain ⟨teller, member, tells⟩ := List.mem_flatMap.mp innermost
  obtain ⟨older, newer, divided⟩ := List.append_of_mem member
  by_cases early : teller ∈ before
  · exact List.mem_flatMap.mpr ⟨teller, early, tells⟩
  -- Otherwise the outcome was published before it was settled.
  exfalso
  have publishes := passes.publishes_of_told promised divided tells
  have through := (passes.of_split divided).next
  refine through.not_completed_of_publish publishes
    (through.completed_iff_published.mpr ⟨other, published.mono fun earlier among => ?_⟩)
  rcases List.append_eq_append_iff.mp (split.symm.trans divided) with
    ⟨more, longer, -⟩ | ⟨more, longer, rest⟩
  · simp [longer, among]
  · cases more with
    | nil => simp_all
    | cons first more =>
        obtain ⟨rfl, -⟩ := List.cons.inj rest
        simp [longer] at early

/-- A step of the machine that has ended awaits the deferred, or settles what was published. -/
theorem relayed {position : Position} {ending : StepEnd}
    (storey : Storey past inner machine deferred) (passes : Passes past state)
    (ended : (life machine past).step = some (position, some ending)) :
    (∃ resumeAt, ending.ending = .await resumeAt deferred) ∨
      ∃ result, ending.ending = .settle result ∧ Published past deferred result := by
  obtain ⟨labelled, stands, same⟩ :=
    passes.standing_of_ended (Move.map_id (moves machine past)).symm ended
  rcases Relaying.ended storey.relays stands with ⟨resumeAt, rfl⟩ | ⟨result, rfl, member⟩
  · exact .inl ⟨resumeAt, same.symm⟩
  · refine .inr ⟨result, by cases result <;> exact same.symm, ?_⟩
    exact (passes.relays storey.relays storey.alone).2 result member

/-- Once the machine beneath was told its outcome, what it has promised is complete. -/
theorem completed (storey : Storey past inner machine deferred) (passes : Passes past state)
    (innermost : .told inner outcome ∈ past.flatMap State.occurrences)
    (isOpen : state.isOpen = true) : state.world.ledger.Completed deferred := by
  obtain ⟨form, promises⟩ := storey.promised
  rcases passes.published_of_told (passes.reaches.told_iff.mpr innermost)
      (passes.reaches.promises_of_started promises) with published | publishes
  · exact passes.completed_iff_published.mpr ⟨outcome, published⟩
  · simp [State.isOpen, publishes] at isOpen

/-- The machine is there. -/
theorem exists_activation (storey : Storey past inner machine deferred)
    (passes : Passes past state) {inHand : List Holding}
    (custody : Custody state.world.ledger (.of (past.flatMap State.occurrences)) inHand
      state.stack) :
    ∃ found, state.world.activations.get? machine = some found := by
  obtain ⟨_, observer, started⟩ := storey.started
  have observed := passes.reaches.observer_of_started started
  have account := custody.machines machine
  cases lookup : state.world.ledger.activations.get? machine with
  | some found => exact ⟨found, lookup⟩
  | none =>
      simp only [Ledger.MachineAccount, lookup] at account
      simp [account.2.2.2, Life.unborn] at observed

/-- A step of the machine that has ended breaks no protocol. -/
theorem not_fatal {position : Position} {error : Error}
    (storey : Storey past inner machine deferred) (passes : Passes past state)
    (innermost : .told inner outcome ∈ past.flatMap State.occurrences)
    (ended : (life machine past).step = some (position, some (.returned (.fail error)))) :
    error.isFatal = false := by
  rcases storey.relayed passes ended with ⟨_, awaits⟩ | ⟨result, settles, published⟩
  · cases awaits
  · -- It ends with the outcome of the machine beneath.
    obtain ⟨form, promises⟩ := storey.promised
    cases result <;> cases settles
    cases passes.eq_of_told (passes.reaches.promises_of_started promises) innermost published
    exact (passes.reaches.explains (passes.reaches.told_iff.mpr innermost)).ordinary

/-- Once what resumes the machine above has run, it was told what the one beneath was told. -/
theorem tells (storey : Storey past inner machine deferred) (passes : Passes past state)
    (innermost : .told inner outcome ∈ past.flatMap State.occurrences)
    (rests : state.AtRest machine) : .told machine outcome ∈ past.flatMap State.occurrences := by
  obtain ⟨-, custody⟩ := State.custody_of_isOpen passes.reaches.inOrder rests.isOpen
  obtain ⟨found, lookup⟩ := storey.exists_activation passes custody
  obtain ⟨-, -, accords⟩ := custody.accords_of_lookup lookup
  simp only [Holding.amount_nil, Nat.add_zero] at accords
  cases status : found.status with
  | idle =>
      simp only [status] at accords
      obtain ⟨one, -, -, -, waits⟩ := accords
      obtain ⟨awaited, pending, incomplete⟩ := rests.incomplete custody lookup one
      rcases waits with ⟨absent, -⟩ | ⟨resumeAt, other, same, -, position, ended⟩
      · cases absent.symm.trans pending
      cases same.symm.trans pending
      rcases storey.relayed passes ended with ⟨_, awaits⟩ | ⟨result, settles, -⟩
      · cases awaits
        have completed := storey.completed passes innermost rests.isOpen
        rw [State.isComplete_of_completed completed] at incomplete
        cases incomplete
      · cases result <;> cases settles
  | running =>
      simp only [status] at accords
      have unclaimed : state.world.ledger.total [] state.stack (.claim machine) = 0 := by
        simp [Ledger.total, Ledger.unclaimed, rests.unclaimed]
      obtain ⟨position, error, ended, fatal⟩ := accords.2.2.2.2 unclaimed
      cases fatal.symm.trans (storey.not_fatal passes innermost ended)
  | finished =>
      simp only [status] at accords
      obtain ⟨settled, told⟩ := Option.isSome_iff_exists.mp accords.2.2.1
      have member := passes.reaches.told_iff.mp told
      obtain ⟨visited, among, tells⟩ := List.mem_flatMap.mp member
      obtain ⟨before, after, split⟩ := List.append_of_mem among
      cases (storey.told_before passes innermost split tells).1
      exact member

end Storey

/-! ## Towers -/

/-- Each machine of a list passes on the outcome of the one before it. -/
def Tower (past : List State) (machines : List Nat) : Prop :=
  machines.IsChain fun inner machine => ∃ deferred, Storey past inner machine deferred

/-- Which machines of a list were told an outcome, in the order in which they were told, and
what they were told. -/
def tellings (machines : List Nat) (past : List State) : List (Nat × Outcome) :=
  (past.flatMap State.occurrences).filterMap fun
    | .told machine outcome => if machine ∈ machines then some (machine, outcome) else none
    | _ => none

section

variable {machines outer : List Nat}

theorem tellings_append (machines : List Nat) (past more : List State) :
    tellings machines (past ++ more) = tellings machines past ++ tellings machines more := by
  simp [tellings]

theorem tellings_eq_nil
    (untold : ∀ machine ∈ machines, ∀ outcome,
      .told machine outcome ∉ past.flatMap State.occurrences) : tellings machines past = [] := by
  refine List.filterMap_eq_nil_iff.mpr fun occurrence member => ?_
  cases occurrence with
  | told machine outcome =>
      exact if_neg fun among => untold machine among outcome member
  | _ => rfl

/-- A machine that was told nothing makes no difference to what the others were told. -/
theorem tellings_cons (untold : ∀ outcome, .told inner outcome ∉ past.flatMap State.occurrences) :
    tellings (inner :: outer) past = tellings outer past := by
  refine List.filterMap_congr fun occurrence member => ?_
  cases occurrence with
  | told machine outcome =>
      have different : machine ≠ inner := by
        rintro rfl
        exact untold outcome member
      simp [different]
  | _ => rfl

namespace Tower

/-- When what resumes the machines above has run, all machines were told what the innermost one
was told. -/
theorem told (tower : Tower past (inner :: outer)) (passes : Passes past state)
    (innermost : .told inner outcome ∈ past.flatMap State.occurrences)
    (rests : ∀ machine ∈ outer, state.AtRest machine) :
    ∀ machine ∈ inner :: outer, .told machine outcome ∈ past.flatMap State.occurrences := by
  induction outer generalizing inner with
  | nil => simpa using innermost
  | cons next rest ih =>
      obtain ⟨⟨deferred, storey⟩, above⟩ := List.isChain_cons_cons.mp tower
      have nextTold := storey.tells passes innermost (rests next (List.mem_cons_self ..))
      have higher := ih above nextTold fun machine member =>
        rests machine (List.mem_cons_of_mem _ member)
      exact List.forall_mem_cons.mpr ⟨innermost, higher⟩

/-- When a machine above is told, the innermost one was told before. -/
theorem told_before {before after : List State} {visited : State} {other : Outcome}
    (tower : Tower past (inner :: outer)) (passes : Passes past state)
    (told : ∀ machine ∈ inner :: outer, .told machine outcome ∈ past.flatMap State.occurrences)
    (above : machine ∈ outer) (split : past = before ++ visited :: after)
    (tells : .told machine other ∈ visited.occurrences) :
    .told inner outcome ∈ before.flatMap State.occurrences := by
  induction outer generalizing inner with
  | nil => cases above
  | cons next rest ih =>
      obtain ⟨⟨deferred, storey⟩, higher⟩ := List.isChain_cons_cons.mp tower
      have innermost := told inner (List.mem_cons_self ..)
      rcases List.mem_cons.mp above with rfl | above
      · exact (storey.told_before passes innermost split tells).2
      · have nextTold := ih higher (fun machine member => told machine
          (List.mem_cons_of_mem _ member)) above
        obtain ⟨teller, member, tellsNext⟩ := List.mem_flatMap.mp nextTold
        obtain ⟨older, newer, rfl⟩ := List.append_of_mem member
        rw [List.append_assoc, List.cons_append] at split
        rw [List.flatMap_append]
        exact List.mem_append_left _ (storey.told_before passes innermost split tellsNext).2

/-- Machines that were all told the same were told one after the other. -/
theorem tellings_eq (tower : Tower past machines) (passes : Passes past state)
    (told : ∀ machine ∈ machines, .told machine outcome ∈ past.flatMap State.occurrences) :
    tellings machines past = machines.map fun machine => (machine, outcome) := by
  induction machines with
  | nil => exact tellings_eq_nil nofun
  | cons inner outer ih =>
      have higher := ih (List.IsChain.of_cons tower)
        fun machine member => told machine (List.mem_cons_of_mem _ member)
      obtain ⟨visited, member, tells⟩ := List.mem_flatMap.mp (told inner (List.mem_cons_self ..))
      obtain ⟨before, after, split⟩ := List.append_of_mem member
      have single := State.occurrences_of_told (passes.of_split split).reaches.inOrder tells
      have once (other : Outcome) := @Passes.told_once _ _ _ _ _ _ _ other passes split tells
      -- Nothing of the tower is told before the innermost machine.
      have untold (machine : Nat) (above : machine ∈ outer) (other : Outcome) :
          .told machine other ∉ before.flatMap State.occurrences := by
        intro early
        obtain ⟨teller, among, tellsToo⟩ := List.mem_flatMap.mp early
        obtain ⟨older, newer, rfl⟩ := List.append_of_mem among
        rw [List.append_assoc, List.cons_append] at split
        have earlier := tower.told_before passes told above split tellsToo
        refine (once outcome).1 ?_
        rw [List.flatMap_append]
        exact List.mem_append_left _ earlier
      have fresh : inner ∉ outer := fun above =>
        (once outcome).1 (tower.told_before passes told above split tells)
      have first : tellings (inner :: outer) before = [] := by
        refine tellings_eq_nil fun machine among other => ?_
        rcases List.mem_cons.mp among with rfl | above
        · exact (once other).1
        · exact untold machine above other
      have parts (machines : List Nat) : tellings machines past =
          tellings machines before ++ (tellings machines [visited] ++ tellings machines after) := by
        rw [split, ← List.singleton_append, tellings_append, tellings_append]
      rw [parts, tellings_eq_nil untold] at higher
      rw [parts, first, tellings_cons fun other => (once other).2, List.map_cons, ← higher]
      simp [tellings, single, fresh]

end Tower

/-- Outcomes rise through towers unchanged.  When the innermost machine was told an outcome and
what resumes the machines above it has run, each machine of the tower was told once, in order
from the innermost outwards, and was told that outcome. -/
theorem outcome_rises (passes : Passes past state) (tower : Tower past (inner :: outer))
    (innermost : .told inner outcome ∈ past.flatMap State.occurrences)
    (rests : ∀ machine ∈ outer, state.AtRest machine) :
    tellings (inner :: outer) past = (inner :: outer).map (fun machine => (machine, outcome)) ∧
      ∀ machine ∈ outer, state.world.isFinished machine = true := by
  have told := tower.told passes innermost rests
  refine ⟨tower.tellings_eq passes told, fun machine member => ?_⟩
  have running (reason : Halt) : state.control ≠ .halted reason := by
    intro halts
    have isOpen := (rests machine member).isOpen
    simp [State.isOpen, halts] at isOpen
  exact (passes.reaches.isFinished_iff running).mpr
    ⟨outcome, passes.reaches.told_iff.mpr (told machine (List.mem_cons_of_mem _ member))⟩

end

/-! ## A tower of three machines -/

/-- Await what a receipt is for, and end with its result. -/
def Program.relay (receipt : Name) : Position → Program
  | .notStarted => .call (.suspend receipt 0) .ret
  | _ => .call (.retrieve receipt) .ret

/-- Start three such machines one above the other: the lowest is resumed inline, the middle one by
a custom scheduler, and the highest finds finished what it awaits. -/
def Program.towering : Program :=
  .call (.pending (.shared "ground") false (.shared "writer")) fun _ =>
    .call (.newQueue (.shared "queue")) fun _ =>
      .call (.startAwaitable (.shared "lowest") (.custom (.relay (.shared "ground"))) .inline
          (.shared "lower") false) fun _ =>
        .call (.startAwaitable (.shared "middle") (.custom (.relay (.shared "lower"))) (.queue 0)
            (.shared "upper") false) fun _ =>
          .call (.complete (.shared "writer") (.ok .null)) fun _ =>
            .call (.runQueued (.shared "queue") 0) fun _ =>
              .call (.start (.shared "highest") (.custom (.relay (.shared "upper"))) .inline
                fun _ => .ret .done) .ret

/-- The moves of such a machine pass on what it retrieves. -/
theorem unfolds_relay (deferred : Nat) :
    Unfolds (Relaying deferred)
      [.called .notStarted, .ended (.await 0 deferred), .called (.suspension 0),
        .retrieved deferred (.ok .null), .ended (.complete .null)] := by
  have awaited : Unfolds (Relaying deferred) [.called .notStarted, .ended (.await 0 deferred)] :=
    (Unfolds.nil.snoc .called).snoc (.awaits (by simp [Retrieved]))
  have retrieved := (awaited.snoc (@Relaying.called _ _ (.suspension 0))).snoc
    (@Relaying.retrieves _ _ (.ok .null) ⟨0, by simp⟩ (by simp [Retrieved]))
  exact retrieved.snoc (@Relaying.settles _ _ (.ok .null) (by simp))

/-- Whether anything stops a machine. -/
def Occurrence.stops : Occurrence → Bool
  | .cancelled _ => true
  | .abandoned _ => true
  | _ => false

/-- A machine of that run that makes those moves, and alone takes what it awaits, is a storey. -/
theorem storey_towering {form : Machine}
    (promised : .started inner form (.writer deferred) ∈
      ((State.ofProgram .initial .towering).visits 87).flatMap State.occurrences)
    (started : ∃ form observer, .started machine form observer ∈
      ((State.ofProgram .initial .towering).visits 87).flatMap State.occurrences)
    (named : moves machine ((State.ofProgram .initial .towering).visits 87) =
      [.called .notStarted, .ended (.await 0 deferred), .called (.suspension 0),
        .retrieved deferred (.ok .null), .ended (.complete .null)])
    (minds : ((State.ofProgram .initial .towering).visits 87).all
      (State.minds machine deferred) = true) :
    Storey ((State.ofProgram .initial .towering).visits 87) inner machine deferred where
  promised := ⟨form, promised⟩
  started := started
  relays := named ▸ unfolds_relay deferred
  alone := by
    intro visited member untaken taken
    have minded := List.all_eq_true.mp minds visited member
    rw [World.taken_iff] at untaken taken
    simpa [State.minds, untaken, taken] using (Bool.and_eq_true_iff.mp minded).2
  uncancelled := fun member => absurd (List.any_eq_true.mpr ⟨_, member, rfl⟩ :
    (((State.ofProgram .initial .towering).visits 87).flatMap State.occurrences).any
      Occurrence.stops = true) (by decide +kernel)
  kept := fun member => absurd (List.any_eq_true.mpr ⟨_, member, rfl⟩ :
    (((State.ofProgram .initial .towering).visits 87).flatMap State.occurrences).any
      Occurrence.stops = true) (by decide +kernel)

set_option maxRecDepth 1024 in
/-- The three machines are told one after the other, and all are told the same. -/
theorem outcome_rises_towering :
    tellings [0, 1, 2] ((State.ofProgram .initial .towering).visits 87) =
        [(0, .ok .null), (1, .ok .null), (2, .ok .null)] ∧
      ∀ machine ∈ [1, 2],
        ((State.ofProgram .initial .towering).walk 87).2.world.isFinished machine = true := by
  have lower : Storey ((State.ofProgram .initial .towering).visits 87) 0 1 1 :=
    storey_towering (.head _) ⟨_, _, .tail _ (.tail _ (.tail _ (.head _)))⟩ rfl
      (by decide +kernel)
  have upper : Storey ((State.ofProgram .initial .towering).visits 87) 1 2 2 :=
    storey_towering (.tail _ (.tail _ (.tail _ (.head _))))
      ⟨.custom (.relay (.shared "upper")), .callback fun _ => .ret .done,
        List.mem_flatMap.mpr ⟨_, @State.walk_mem_visits _ 66 87 (by decide), .head _⟩⟩
      rfl (by decide +kernel)
  have tower : Tower ((State.ofProgram .initial .towering).visits 87) [0, 1, 2] :=
    .cons_cons ⟨1, lower⟩ (.cons_cons ⟨2, upper⟩ (.singleton 2))
  have ended : ((State.ofProgram .initial .towering).walk 87).2.hasEnded :=
    ⟨rfl, .inl ⟨_, rfl⟩⟩
  have passes : Passes ((State.ofProgram .initial .towering).visits 87)
      ((State.ofProgram .initial .towering).walk 87).2 := (Passes.begin .towering).walk 87
  have innermost : .told 0 (.ok .null) ∈
      ((State.ofProgram .initial .towering).visits 87).flatMap State.occurrences :=
    passes.reaches.told_iff.mp rfl
  exact outcome_rises passes tower innermost fun machine _ =>
    State.atRest_of_drained ended (by decide +kernel) machine

end Stepwise
