import Stepwise.Proofs.Conduct
import Stepwise.Proofs.Protocol
import Stepwise.Proofs.Resumption

/-!
# The moves of a machine

What can be seen of a machine in a run: its steps are called, retrieve results, and end.  A
result is retrieved by the machine whose step runs the code that asks for it, and whoever
asks later finds it taken.
-/

namespace Stepwise

/-- The end of a step, where what it awaits is its number. -/
def StepEnd.ending : StepEnd → Ending Nat
  | .returned (.await resumeAt deferred) => .await resumeAt deferred
  | .returned (.complete value) => .complete value
  | .returned (.fail error) => .fail error
  | .panicked payload => .panicked payload

/-- A call or the end of a step as a move. -/
def Mark.move : Mark → Move Nat
  | .called position => .called position
  | .ended ending => .ended ending.ending

/-- The machine whose step runs the code in control: only the rest of a program, a catch, a
call inside a runtime, another thread or a hook of the machine is between them. -/
def Stack.actor? : Stack → Option Nat
  | [] => none
  | .stepping machine :: _ => some machine
  | .program _ :: rest => Stack.actor? rest
  | .attempting :: rest => Stack.actor? rest
  | .context _ _ :: rest => Stack.actor? rest
  | .thread _ :: rest => Stack.actor? rest
  | .inspected _ _ _ :: rest => Stack.actor? rest
  | .announced _ _ :: rest => Stack.actor? rest
  | _ :: _ => none

/-- The deferred that a receipt can be used to retrieve from. -/
def World.awaiter? (world : World) (receipt : Name) : Option Nat :=
  match world.receipts.find? receipt with
  | some found => if found.raw then none else some found.deferred
  | none => none

/-- The deferred that a request retrieves from. -/
def World.asks (world : World) : Request → Option Nat
  | .retrieve receipt => world.awaiter? receipt
  | .poll receipt waker =>
      match world.wakers.find? waker, world.awaiter? receipt with
      | some _, some deferred =>
          match world.deferreds.get? deferred with
          | some found => if found.lock = .free ∧ found.isComplete then some deferred else none
          | none => none
      | _, _ => none
  | .collect waiter =>
      match world.waiters.get? waiter with
      | some found => if found.signal = .woken then some found.deferred else none
      | none => none
  | _ => none

/-- The deferred that the step of a library machine retrieves from. -/
def Body.asks : Body → Position → Option Nat
  | .pipeline stages, .suspension _ => stages.awaited
  | .cubeRoot demo, .suspension 0 => demo.awaitedCube
  | .cubeRoot demo, .suspension 1 => demo.awaitedRoot
  | _, _ => none

namespace State

/-- The deferred that a small step retrieves from. -/
def asks (state : State) : Option Nat :=
  match state.control with
  | .program (.call request _) => state.world.asks request
  | .task (.step place position) =>
      match state.world.body? place with
      | some body => body.asks position
      | none => none
  | _ => none

/-- The deferred that the step of a machine retrieves from. -/
def retrieval? (machine : Nat) (state : State) : Option Nat :=
  if state.stack.actor? = some machine then state.asks else none

/-- What can be seen of a machine in a small step. -/
def moves (machine : Nat) (state : State) : List (Move Nat) :=
  (marks machine state.occurrences).map Mark.move ++
    (state.retrieval? machine).toList.map fun deferred =>
      .retrieved deferred (state.world.retrieve deferred).2

end State

/-- What can be seen of a machine in the small steps of a run. -/
def moves (machine : Nat) (past : List State) : List (Move Nat) :=
  past.flatMap (State.moves machine)

variable {past : List State} {trace : List Occurrence} {state : State}
  {machine deferred : Nat}

/-- Code run by the step of a machine runs above the frame that waits for its end. -/
theorem Stack.stepping_mem_of_actor {stack : Stack} (acts : stack.actor? = some machine) :
    Frame.stepping machine ∈ stack := by
  induction stack with
  | nil => cases acts
  | cons frame rest ih =>
      cases frame with
      | stepping other =>
          cases acts
          exact List.mem_cons_self ..
      | program _ | attempting | context _ _ | thread _ | inspected _ _ _ | announced _ _ =>
          exact List.mem_cons_of_mem _ (ih acts)
      | _ => cases acts

namespace World

variable {world : World} {found : Deferred}

theorem get?_retrieve (present : world.deferreds.get? deferred = some found) :
    (world.retrieve deferred).1.deferreds.get? deferred = some found.afterRetrieval := by
  simp [retrieve, present, modifyDeferred]

/-- A receipt that can be retrieved from is used. -/
theorem withAwaiter_of_awaiter {stack : Stack} {receipt : Name} {use : Nat → State}
    (may : world.awaiter? receipt = some deferred) :
    State.withAwaiter world stack receipt use = use deferred := by
  unfold awaiter? at may
  split at may
  · next given kept =>
      split at may
      · cases may
      · next awaitable =>
          cases may
          simp [State.withAwaiter, State.withReceipt, kept, awaitable]
  · cases may

/-- A request that retrieves leaves nothing to retrieve. -/
theorem get?_requesting {stack : Stack} {request : Request}
    (asks : world.asks request = some deferred)
    (present : world.deferreds.get? deferred = some found) :
    (State.requesting world stack request).world.deferreds.get? deferred =
      some found.afterRetrieval := by
  cases request with
  | retrieve receipt =>
      simp [State.requesting, withAwaiter_of_awaiter asks, State.replying,
        get?_retrieve present]
  | poll receipt waker =>
      simp only [World.asks] at asks
      split at asks
      · next awakened awaited named may =>
          split at asks
          · next there lookup =>
              split at asks
              · next ready =>
                  cases asks
                  simp [State.requesting, State.withNamed, named, withAwaiter_of_awaiter may,
                    State.polling, lookup, ready, State.replying, get?_retrieve present]
              · cases asks
          · cases asks
      · cases asks
  | collect waiter =>
      simp only [World.asks] at asks
      split at asks
      · next waits lookup =>
          split at asks
          · next woken =>
              cases asks
              have released (change : Waiter → Waiter) :=
                @get?_retrieve _ (world.modifyWaiter waiter change) _ present
              simp only [State.requesting, State.collecting, lookup, woken]
              unfold State.disposing
              split <;> exact released _
          · cases asks
      · cases asks
  | _ => cases asks

/-- The step of a library machine that retrieves leaves nothing to retrieve. -/
theorem get?_runningStep {stack : Stack} {place : Place} {position : Position} {body : Body}
    (there : world.body? place = some body) (asks : body.asks position = some deferred)
    (present : world.deferreds.get? deferred = some found) :
    (State.runningStep world stack place position).world.deferreds.get? deferred =
      some found.afterRetrieval := by
  have moved (change : Body → Body) :=
    @get?_retrieve _ (world.modifyBody place change) _ (by simpa using present)
  cases body with
  | custom step => cases asks
  | pipeline stages =>
      cases position with
      | notStarted | finished => cases asks
      | suspension number =>
          replace asks : stages.awaited = some deferred := asks
          simp only [State.runningStep, there, State.steppingPipeline, asks,
            State.takingAwaited]
          split <;> exact moved _
  | cubeRoot demo =>
      cases position with
      | notStarted | finished => cases asks
      | suspension number =>
          rcases number with _ | _ | _
          · replace asks : demo.awaitedCube = some deferred := asks
            simp only [State.runningStep, there, State.steppingCubeRoot, asks,
              State.takingAwaited]
            split
            · simpa [State.announcing] using moved _
            · exact moved _
          · replace asks : demo.awaitedRoot = some deferred := asks
            simp only [State.runningStep, there, State.steppingCubeRoot, asks,
              State.takingAwaited]
            split
            · simpa [State.announcing] using moved _
            · exact moved _
          · cases asks

end World

/-- A small step that retrieves leaves nothing to retrieve. -/
theorem State.get?_of_asks {found : Deferred} (asks : state.asks = some deferred)
    (present : state.world.deferreds.get? deferred = some found) :
    state.next.world.deferreds.get? deferred = some found.afterRetrieval := by
  obtain ⟨world, stack, control⟩ := state
  simp only [State.asks] at asks
  split at asks
  · exact World.get?_requesting asks present
  · split at asks
    · next body there => exact World.get?_runningStep there asks present
    · cases asks
  · cases asks

namespace State

/-- Where something is retrieved, user code is open to run, and nothing is on its way. -/
theorem isOpen_of_asks (asks : state.asks = some deferred) : state.isOpen = true := by
  obtain ⟨world, stack, control⟩ := state
  simp only [State.asks] at asks
  split at asks
  · rfl
  · rfl
  · cases asks

/-- The step of a machine that retrieves is under way. -/
theorem step_of_retrieval (order : state.InOrder (.of trace))
    (retrieves : state.retrieval? machine = some deferred) :
    ∃ position, ((Chronicle.of trace).life machine).step = some (position, none) := by
  unfold retrieval? at retrieves
  split at retrieves
  · next acts =>
      obtain ⟨-, custody⟩ := custody_of_isOpen order (isOpen_of_asks retrieves)
      obtain ⟨found, -, under⟩ := custody.step_of_stepping (Stack.stepping_mem_of_actor acts)
      exact ⟨found.position, under⟩
  · cases retrieves

/-- What was complete is taken by a step that retrieves it. -/
theorem taken_of_retrieval (retrieves : state.retrieval? machine = some deferred)
    (completed : state.world.ledger.Completed deferred) : state.next.world.Taken deferred := by
  unfold retrieval? at retrieves
  split at retrieves
  · obtain ⟨found, lookup, complete⟩ := completed
    refine ⟨_, get?_of_asks retrieves lookup, ?_⟩
    cases progress : found.progress <;>
      simp_all [Deferred.isComplete, Deferred.afterRetrieval]
  · cases retrieves

/-- A small step calls a step of the machine, or ends one, or retrieves at most. -/
theorem moves_cases (state : State) (machine : Nat) :
    (∃ position, state.Calls machine position ∧
      state.occurrences = [.called machine position] ∧
      state.moves machine = [.called position] ∧ state.retrieval? machine = none) ∨
    (∃ ending callers, state.Ends machine ending callers ∧
      state.occurrences = [.ended machine ending] ∧
      state.moves machine = [.ended ending.ending] ∧ state.retrieval? machine = none) ∨
    (marks machine state.occurrences = [] ∧
      state.moves machine = (state.retrieval? machine).toList.map fun deferred =>
        .retrieved deferred (state.world.retrieve deferred).2) := by
  by_cases called : ∃ position, .called machine position ∈ state.occurrences
  · left
    obtain ⟨position, called⟩ := called
    obtain ⟨control, found, lookup, uncancelled, same⟩ :=
      (drives_of_occurrences called rfl : state.Calls machine position)
    have alone : state.occurrences = [.called machine position] := by
      simp [occurrences, control, World.performed, lookup, uncancelled, same]
    have quiet : state.retrieval? machine = none := by simp [retrieval?, asks, control]
    exact ⟨position, ⟨control, found, lookup, uncancelled, same⟩, alone,
      by simp [moves, alone, marks, Occurrence.mark?, Mark.move, quiet], quiet⟩
  · right
    by_cases ended : ∃ ending, .ended machine ending ∈ state.occurrences
    · left
      obtain ⟨ending, ended⟩ := ended
      have alone := occurrences_of_ended ended
      obtain ⟨callers, ends⟩ := drives_of_occurrences ended rfl
      have quiet : state.retrieval? machine = none := by
        cases ending with
        | panicked payload => simp [retrieval?, asks, ends.2]
        | returned result =>
            obtain ⟨reply, replies, -⟩ := ends.2
            simp [retrieval?, asks, replies]
      exact ⟨ending, callers, ends, alone,
        by simp [moves, alone, marks, Occurrence.mark?, Mark.move, quiet], quiet⟩
    · right
      have unmarked : marks machine state.occurrences = [] := by
        refine List.filterMap_eq_nil_iff.mpr fun occurrence member => ?_
        cases occurrence with
        | called other position =>
            have different : other ≠ machine := fun same => called ⟨position, same ▸ member⟩
            simp [Occurrence.mark?, different]
        | ended other ending =>
            have different : other ≠ machine := fun same => ended ⟨ending, same ▸ member⟩
            simp [Occurrence.mark?, different]
        | _ => rfl
      exact ⟨unmarked, by simp [moves, unmarked]⟩

end State

/-- Occurrences without a mark leave the last step of a machine as it was. -/
theorem Chronicle.step_of_unmarkedAll {chronicle : Chronicle} {occurrences : List Occurrence}
    (permitted : chronicle.PermitsAll occurrences)
    (unmarked : marks machine occurrences = []) :
    ((chronicle.afterAll occurrences).life machine).step = (chronicle.life machine).step := by
  induction occurrences generalizing chronicle with
  | nil => rfl
  | cons occurrence rest ih =>
      obtain ⟨allowed, later⟩ := permitted
      have none : ∀ among ∈ occurrence :: rest, among.mark? machine = none :=
        List.filterMap_eq_nil_iff.mp unmarked
      rw [afterAll_cons, ih later (List.filterMap_eq_nil_iff.mpr fun among member =>
        none among (List.mem_cons_of_mem _ member))]
      exact step_of_unmarked allowed (none occurrence (List.mem_cons_self ..))

theorem moves_snoc (machine : Nat) (past : List State) (state : State) :
    moves machine (past ++ [state]) = moves machine past ++ state.moves machine := by
  simp [moves]

/-- A machine stands where its moves have led it. -/
theorem Passes.standing_moves (passes : Passes past state) (machine : Nat) :
    standing (moves machine past) =
      ((Chronicle.of (past.flatMap State.occurrences)).life machine).step.map fun step =>
        (step.1, step.2.map StepEnd.ending) := by
  induction passes with
  | begin program => rfl
  | again program _ _ ih => exact ih
  | @next past state passed ih =>
      have order := passed.reaches.inOrder
      have grown : (past ++ [state]).flatMap State.occurrences =
          past.flatMap State.occurrences ++ state.occurrences := by simp
      rw [moves_snoc, grown, Chronicle.of_append]
      rcases state.moves_cases machine with ⟨position, -, happens, moves, -⟩ |
        ⟨ending, callers, -, happens, moves, -⟩ | ⟨unmarked, moves⟩
      · rw [moves, happens, standing_snoc]
        simp [Move.after, Chronicle.after]
      · rw [moves, happens, standing_snoc, ih]
        simp only [Move.after, Chronicle.afterAll_cons, Chronicle.afterAll_nil, Chronicle.after,
          Chronicle.life_onLife, if_true, Option.map_map]
        rfl
      · rw [Chronicle.step_of_unmarkedAll (State.permits_occurrences order) unmarked, ← ih,
          moves]
        cases state.retrieval? machine with
        | none => simp
        | some deferred =>
            rw [Option.toList_some, List.map_singleton, standing_snoc]
            rfl

namespace Passes

variable {ι : Type} {number : ι → Nat} {made : List (Move ι)} {position : Position}

/-- Before its first step a machine stands nowhere. -/
theorem standing_of_unstepped (passes : Passes past state)
    (named : Stepwise.moves machine past = made.map (Move.map number))
    (unstepped : ((Chronicle.of (past.flatMap State.occurrences)).life machine).step = none) :
    standing made = none := by
  have stands := passes.standing_moves machine
  rw [named, standing_map, unstepped] at stands
  simpa using stands

/-- A machine whose step is under way stands there. -/
theorem standing_of_step (passes : Passes past state)
    (named : Stepwise.moves machine past = made.map (Move.map number))
    (under : ((Chronicle.of (past.flatMap State.occurrences)).life machine).step =
      some (position, none)) :
    standing made = some (position, none) := by
  have stands := passes.standing_moves machine
  rw [named, standing_map, under] at stands
  cases last : standing made with
  | none => simp [last] at stands
  | some step =>
      obtain ⟨at_, ending⟩ := step
      simpa [last] using stands

/-- A machine whose step has ended stands there, with its labels for what it awaits. -/
theorem standing_of_ended {ending : StepEnd} (passes : Passes past state)
    (named : Stepwise.moves machine past = made.map (Move.map number))
    (ended : ((Chronicle.of (past.flatMap State.occurrences)).life machine).step =
      some (position, some ending)) :
    ∃ labelled, standing made = some (position, some labelled) ∧
      labelled.map number = ending.ending := by
  have stands := passes.standing_moves machine
  rw [named, standing_map, ended] at stands
  cases last : standing made with
  | none => simp [last] at stands
  | some step =>
      obtain ⟨at_, labelled⟩ := step
      cases labelled with
      | none => simp [last] at stands
      | some labelled =>
          simp only [last, Option.map_some, Option.some.injEq, Prod.mk.injEq] at stands
          exact ⟨labelled, by rw [stands.1], stands.2⟩

end Passes

end Stepwise
