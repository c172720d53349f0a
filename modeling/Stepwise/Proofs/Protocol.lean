import Stepwise.Proofs.Course.Standing

/-!
# The protocol of steps

The history of a machine's steps alternates between calls and their ends.  The first call
is made before the machine has started; each later one is made at the suspension that the
end of the last call names, once what the machine awaits there is complete.
-/

namespace Stepwise

/-- What the steps of a machine leave in a history: a call at a position, or the end of the
last call. -/
inductive Mark where
  | called (position : Position)
  | ended (ending : StepEnd)

/-- The mark that an occurrence leaves for a machine. -/
def Occurrence.mark? (machine : Nat) : Occurrence → Option Mark
  | .called other position => if other = machine then some (.called position) else none
  | .ended other ending => if other = machine then some (.ended ending) else none
  | _ => none

/-- The marks of a machine in what has happened, oldest first. -/
def marks (machine : Nat) (trace : List Occurrence) : List Mark :=
  trace.filterMap (Occurrence.mark? machine)

/-- What the marks of a machine look like. -/
inductive Protocol : List Mark → Prop where
  | idle : Protocol []
  /-- The first call is made before the machine has started. -/
  | first : Protocol [.called .notStarted]
  /-- A call that has been made may end in any way. -/
  | ended {earlier : List Mark} {position : Position} {ending : StepEnd} :
      Protocol (earlier ++ [.called position]) →
        Protocol (earlier ++ [.called position, .ended ending])
  /-- Only a call that ended with a suspension is followed by another, made there. -/
  | resumed {earlier : List Mark} {position : Position} {resumeAt deferred : Nat} :
      Protocol (earlier ++ [.called position, .ended (.returned (.await resumeAt deferred))]) →
        Protocol (earlier ++ [.called position,
          .ended (.returned (.await resumeAt deferred)), .called (.suspension resumeAt)])

variable {trace : List Occurrence} {state : State} {machine : Nat}

theorem marks_append (machine : Nat) (trace more : List Occurrence) :
    marks machine (trace ++ more) = marks machine trace ++ marks machine more :=
  List.filterMap_append

/-- What the last step of a machine came to so far is what its last marks say. -/
def Life.Shows (life : Life) (marks : List Mark) : Prop :=
  match life.step with
  | none => marks = []
  | some (position, none) => ∃ earlier, marks = earlier ++ [.called position]
  | some (position, some ending) =>
      ∃ earlier, marks = earlier ++ [.called position, .ended ending]

/-- An occurrence without a mark leaves the last step as it was. -/
theorem Chronicle.step_of_unmarked {chronicle : Chronicle} {occurrence : Occurrence}
    (permitted : chronicle.Permits occurrence) (unmarked : occurrence.mark? machine = none) :
    ((chronicle.after occurrence).life machine).step = (chronicle.life machine).step := by
  by_cases here : occurrence.place? = some (.started machine)
  · cases occurrence with
    | started other _ _ =>
        cases here
        have unborn : chronicle.life machine = .unborn := permitted
        simp [Chronicle.after, unborn, Life.unborn]
    | called other _ | ended other _ =>
        cases here
        simp [Occurrence.mark?] at unmarked
    | _ => first | rfl | cases here
  · exact (Chronicle.step_after here).1

/-- The steps of a machine have obeyed the protocol, and the last one stands as the marks
show. -/
structure Obeys (machine : Nat) (trace : List Occurrence) : Prop where
  protocol : Protocol (marks machine trace)
  shows : ((Chronicle.of trace).life machine).Shows (marks machine trace)

namespace Obeys

/-- The protocol is obeyed by what is permitted next. -/
theorem snoc {occurrence : Occurrence} (obeys : Obeys machine trace)
    (permitted : (Chronicle.of trace).Permits occurrence) :
    Obeys machine (trace ++ [occurrence]) := by
  obtain ⟨protocol, shows⟩ := obeys
  have marked : marks machine (trace ++ [occurrence]) =
      marks machine trace ++ (occurrence.mark? machine).toList := by
    rw [marks_append]
    cases mark : occurrence.mark? machine <;> simp [marks, mark]
  cases mark : occurrence.mark? machine with
  | none =>
      have same := Chronicle.step_of_unmarked permitted mark
      rw [mark, Option.toList_none, List.append_nil] at marked
      refine ⟨by rwa [marked], ?_⟩
      rw [marked, Chronicle.of_snoc]
      simpa only [Life.Shows, same] using shows
  | some left =>
      rw [mark, Option.toList_some] at marked
      cases occurrence with
      | called other position =>
          simp only [Occurrence.mark?] at mark
          split at mark
          · next same =>
              subst same
              cases mark
              constructor
              · rw [marked]
                obtain ⟨-, -, ⟨rfl, unstepped⟩ | ⟨resumeAt, deferred, rfl, last, awaits⟩⟩ :=
                  permitted
                · simp only [Life.Shows, unstepped] at shows
                  rw [shows]
                  exact .first
                · simp only [Life.Shows, awaits] at shows
                  obtain ⟨earlier, before⟩ := shows
                  rw [before] at protocol ⊢
                  simpa using .resumed protocol
              · simp only [Life.Shows, Chronicle.of_snoc, Chronicle.after,
                  Chronicle.life_onLife, if_true]
                exact ⟨marks other trace, marked⟩
          · cases mark
      | ended other ending =>
          simp only [Occurrence.mark?] at mark
          split at mark
          · next same =>
              subst same
              cases mark
              obtain ⟨-, position, under⟩ := permitted
              simp only [Life.Shows, under] at shows
              obtain ⟨earlier, before⟩ := shows
              rw [before] at protocol marked
              rw [List.append_assoc] at marked
              constructor
              · rw [marked]
                exact .ended protocol
              · simp only [Life.Shows, Chronicle.of_snoc, Chronicle.after,
                  Chronicle.life_onLife, if_true, under, Option.map_some]
                exact ⟨earlier, marked⟩
          · cases mark
      | _ => cases mark

/-- The protocol is obeyed by everything that is permitted. -/
theorem append {more : List Occurrence} (obeys : Obeys machine trace)
    (permitted : (Chronicle.of trace).PermitsAll more) : Obeys machine (trace ++ more) := by
  induction more generalizing trace with
  | nil => simpa using obeys
  | cons occurrence rest ih =>
      obtain ⟨allowed, later⟩ := permitted
      rw [← Chronicle.of_snoc] at later
      simpa using ih (obeys.snoc allowed) later

end Obeys

/-- The steps of every machine obey the protocol in every run. -/
theorem Reaches.obeys (reaches : Reaches trace state) (machine : Nat) :
    Obeys machine trace := by
  have nothing : Obeys machine [] := ⟨.idle, rfl⟩
  exact nothing.append reaches.permitsAll

/-! ## What is awaited -/

/-- A machine awaits a deferred only if it did before, or its step ends so just now. -/
theorem Chronicle.awaits_before {chronicle : Chronicle} {occurrences : List Occurrence}
    {resumeAt deferred : Nat}
    (quiet : ∀ ending, Occurrence.ended machine ending ∉ occurrences)
    (awaits : ((chronicle.afterAll occurrences).life machine).Awaits resumeAt deferred) :
    (chronicle.life machine).Awaits resumeAt deferred := by
  induction occurrences generalizing chronicle with
  | nil => exact awaits
  | cons occurrence rest ih =>
      have later := ih (fun ending member => quiet ending (List.mem_cons_of_mem _ member)) awaits
      by_cases here : occurrence.place? = some (.started machine)
      · cases occurrence with
        | started other _ _ | called other _ =>
            cases here
            simp [Life.Awaits, Chronicle.after, Life.unborn] at later
        | ended other ending =>
            cases here
            exact absurd (List.mem_cons_self ..) (quiet ending)
        | shown _ _ _ | announced _ _ | interrupted _ | dispatched _ _ _ => exact later
        | _ => cases here
      · simpa only [Life.Awaits, (Chronicle.step_after here).1] using later

/-- What a step can await is there. -/
theorem Reaches.present_of_mayAwait (reaches : Reaches trace state) {deferred : Nat}
    {inHand : List Holding}
    (custody : Custody state.world.ledger (.of trace) inHand state.stack)
    (allowed : state.world.mayAwait machine deferred = true) :
    (state.world.deferreds.get? deferred).isSome = true := by
  obtain ⟨seated, secluded⟩ := reaches.seated_secluded
  simp only [World.mayAwait, Bool.or_eq_true, List.contains_iff_mem] at allowed
  rcases allowed with given | own
  · exact (secluded.given deferred given).1
  · cases body : state.world.body? (.started machine) with
    | none => simp [body] at own
    | some found =>
        have awaited : deferred ∈ found.awaited := by simpa [body] using own
        obtain ⟨work, number, recorded, -⟩ :=
          seated.seated.grounded.awaits _ found deferred body awaited
        have account := custody.deferreds deferred
        cases lookup : state.world.deferreds.get? deferred with
        | some _ => rfl
        | none =>
            have absent : state.world.ledger.deferreds.get? deferred = none := lookup
            simp only [Ledger.DeferredAccount, absent, recorded] at account
            cases account.2

/-- What a machine awaits is there. -/
theorem Reaches.present_of_awaits (reaches : Reaches trace state) {resumeAt deferred : Nat}
    (awaits : ((Chronicle.of trace).life machine).Awaits resumeAt deferred) :
    (state.world.deferreds.get? deferred).isSome = true := by
  induction reaches with
  | begin program =>
      obtain ⟨position, unstepped⟩ := awaits
      cases unstepped
  | again program reached ended ih => exact ih awaits
  | @next trace state reached ih =>
      have still (present : (state.world.deferreds.get? deferred).isSome = true) :
          (state.next.world.deferreds.get? deferred).isSome = true :=
        (State.advances_next reached.inOrder).changed.grown deferred present
      rw [Chronicle.of_append] at awaits
      by_cases happens : ∃ ending, .ended machine ending ∈ state.occurrences
      · -- The step ends just now, so what it awaits it may await.
        obtain ⟨ending, happens⟩ := happens
        rw [State.occurrences_of_ended happens] at awaits
        obtain ⟨callers, placed, how⟩ := State.drives_of_occurrences happens rfl
        cases ending with
        | panicked payload => simp [Life.Awaits, Chronicle.after] at awaits
        | returned result =>
            obtain ⟨reply, replies, judged⟩ := how
            have awaited : result = .await resumeAt deferred := by
              obtain ⟨position, ended⟩ := awaits
              simp only [Chronicle.afterAll_cons, Chronicle.afterAll_nil, Chronicle.after,
                Chronicle.life_onLife, if_true, Option.map_eq_some_iff] at ended
              obtain ⟨step, -, same⟩ := ended
              cases same
              rfl
            have custody := reached.inOrder.custody (by simp [replies])
            exact still (reached.present_of_mayAwait custody
              (World.mayAwait_of_judge (judged.trans awaited)))
      · exact still (ih (Chronicle.awaits_before (not_exists.mp happens) awaits))

/-- Whenever a step is called, none of its machine is under way, and what the machine awaits
is complete. -/
theorem Reaches.ready_of_calls (reaches : Reaches trace state) {position : Position}
    (calls : state.Calls machine position) :
    Frame.stepping machine ∉ state.stack ∧
      ((position = .notStarted ∧ ((Chronicle.of trace).life machine).step = none) ∨
        ∃ resumeAt deferred found, position = .suspension resumeAt ∧
          ((Chronicle.of trace).life machine).Awaits resumeAt deferred ∧
          state.world.deferreds.get? deferred = some found ∧ found.isComplete = true) := by
  obtain ⟨control, found, lookup, -, rfl⟩ := calls
  have custody := reaches.inOrder.custody (by simp [control])
  rw [control] at custody
  obtain ⟨again, claimed⟩ := custody.claimed machine rfl
  refine ⟨Custody.stepping_notMem claimed.claims, ?_⟩
  obtain ⟨same, lookupSame, ready⟩ := custody.rightful_head
  cases lookup.symm.trans lookupSame
  rcases ready with ⟨position, -, unstepped⟩ | ⟨resumeAt, deferred, position, awaits, complete⟩
  · exact .inl ⟨position, unstepped⟩
  · obtain ⟨awaited, there⟩ := Option.isSome_iff_exists.mp (reaches.present_of_awaits awaits)
    have lookup : state.world.ledger.deferreds.get? deferred = some awaited := there
    exact .inr ⟨resumeAt, deferred, awaited, position, awaits, there,
      by simpa [lookup] using complete⟩

/-! ## Wanderers -/

/-- The position at which a mark calls a step. -/
def Mark.position? : Mark → Option Position
  | .called position => some position
  | .ended _ => none

/-- Where the steps of a machine were called, in order. -/
def itinerary (machine : Nat) (trace : List Occurrence) : List Position :=
  (marks machine trace).filterMap Mark.position?

/-- Some number of small steps leads from one state to another, and this happens on the
way. -/
def State.Walks (state : State) (happened : List Occurrence) (later : State) : Prop :=
  ∃ count, state.walk count = (happened, later)

namespace State.Walks

variable {middle later : State} {happened more : List Occurrence}

theorem one (happens : state.occurrences = happened) (goes : state.next = later) :
    state.Walks happened later := by
  refine ⟨1, ?_⟩
  simp [State.walk, happens, goes]

theorem trans (first : state.Walks happened middle) (second : middle.Walks more later) :
    state.Walks (happened ++ more) later := by
  obtain ⟨count, walk⟩ := first
  obtain ⟨further, goesOn⟩ := second
  refine ⟨count + further, ?_⟩
  induction count generalizing state happened with
  | zero =>
      cases walk
      simpa using goesOn
  | succ count ih =>
      simp only [State.walk, Prod.mk.injEq] at walk
      obtain ⟨rfl, leads⟩ := walk
      rw [Nat.add_right_comm, State.walk, ih (Prod.ext rfl leads)]
      simp

/-- Where a walk leads, the run comes to. -/
theorem reaches (walks : state.Walks happened later) (reaches : Reaches trace state) :
    Reaches (trace ++ happened) later := by
  obtain ⟨count, walk⟩ := walks
  have reached := reaches.walk count
  rwa [walk] at reached

end State.Walks

/-- Suspend at the first of some numbers, awaiting what is complete already, and leave the
others in memory; end when there are none. -/
def Program.wanderOn : Reply → Program
  | .outcome (.ok (.list (.int number :: rest))) =>
      .call (.store (.shared "numbers") (.ok (.list rest))) fun _ =>
        .call (.suspend (.shared "ready") number.toNat) .ret
  | reply => .ret reply

/-- Wander along the numbers in memory. -/
def Program.wander : Program := .call (.load (.shared "numbers")) .wanderOn

/-- A list of numbers in memory. -/
def Value.numbers (numbers : List Nat) : Value :=
  .list (numbers.map fun number : Nat => .int number)

/-- Start a machine that wanders along a list of numbers. -/
def Program.wandering (numbers : List Nat) : Program :=
  .call (.ready (.shared "ready") false (.ok .null)) fun _ =>
    .call (.store (.shared "numbers") (.ok (.numbers numbers))) fun _ =>
      .call (.start (.shared "wanderer") (.custom fun _ => .wander) .inline fun _ =>
        .ret .done) .ret

/-- A wanderer is about to be called at a position, with numbers to go. -/
structure State.Wanders (state : State) (position : Position) (numbers : List Nat) : Prop where
  control : state.control = .task (.advance 0)
  machine : ∃ found, state.world.activations.get? 0 = some found ∧ found.cancelled = false ∧
    found.position = position ∧ found.body = .custom fun _ => .wander
  numbers : state.world.memory.find? (.shared "numbers") =
    some (.ok (.numbers numbers))
  receipt : state.world.receipts.find? (.shared "ready") = some ⟨0, false⟩
  given : state.world.given.contains 0 = true
  ready : ∃ found, state.world.deferreds.get? 0 = some found ∧ found.isComplete = true

/-- The call of a wanderer is a call at its position. -/
theorem State.Wanders.occurrences {position : Position} {numbers : List Nat}
    (wanders : state.Wanders position numbers) :
    state.occurrences = [.called 0 position] := by
  obtain ⟨world, stack, control⟩ := state
  obtain ⟨rfl, ⟨found, lookup, uncancelled, rfl, -⟩, -, -, -, -⟩ := wanders
  have present : world.activations.get? 0 = some found := lookup
  simp [State.occurrences, World.performed, present, uncancelled]

/-- A wanderer suspends at its next number, and is about to be called there. -/
theorem State.Wanders.walks {position : Position} {number : Nat} {rest : List Nat}
    (wanders : state.Wanders position (number :: rest)) :
    ∃ happened later, state.Walks happened later ∧
      marks 0 happened = [.called position, .ended (.returned (.await number 0))] ∧
      later.Wanders (.suspension number) rest := by
  obtain ⟨world, stack, control⟩ := state
  obtain ⟨rfl, ⟨found, lookup, uncancelled, rfl, body⟩, numbers, receipt, given, done, ready,
    complete⟩ := wanders
  have present : world.activations.get? 0 = some found := lookup
  have stored : world.memory.find? (.shared "numbers") = some (.ok (.numbers (number :: rest))) :=
    numbers
  have held : world.receipts.find? (.shared "ready") = some ⟨0, false⟩ := receipt
  have known : 0 ∈ world.given := List.contains_iff_mem.mp given
  have settled : world.deferreds.get? 0 = some done := ready
  let called := world.record (.runningStep 0 found.position)
  let passed := { called with
    memory := called.memory.insert (.shared "numbers") (.ok (.numbers rest)) }
  have calls : State.Walks ⟨world, stack, .task (.advance 0)⟩ [.called 0 found.position]
      ⟨called, .stepping 0 :: stack, .task (.step (.started 0) found.position)⟩ :=
    .one (by simp [State.occurrences, World.performed, present, uncancelled])
      (by simp [State.next, State.carryingOut, State.advancing, present, uncancelled, called])
  have steps : State.Walks
      ⟨called, .stepping 0 :: stack, .task (.step (.started 0) found.position)⟩ []
      ⟨called, .stepping 0 :: stack, .program .wander⟩ := by
    have stepped : called.body? (.started 0) = some (.custom fun _ => .wander) := by
      simp [World.body?, called, World.record, present, body]
    exact .one (by simp [State.occurrences, World.performed, World.stepped, stepped])
      (by simp [State.next, State.carryingOut, State.runningStep, stepped])
  have loads : State.Walks ⟨called, .stepping 0 :: stack, .program .wander⟩ []
      ⟨called, .program .wanderOn :: .stepping 0 :: stack,
        .reply (.outcome (.ok (.numbers (number :: rest))))⟩ :=
    .one rfl (by
      simp [State.next, Program.wander, State.requesting, State.withNamed, called, World.record,
        stored, State.replying])
  have stores : State.Walks
      ⟨called, .program .wanderOn :: .stepping 0 :: stack,
        .reply (.outcome (.ok (.numbers (number :: rest))))⟩ []
      ⟨passed, .stepping 0 :: stack, .program (.call (.suspend (.shared "ready") number) .ret)⟩ :=
    ⟨3, rfl⟩
  have suspends : State.Walks
      ⟨passed, .stepping 0 :: stack, .program (.call (.suspend (.shared "ready") number) .ret)⟩ []
      ⟨passed, .program .ret :: .stepping 0 :: stack, .reply (.suspended number 0)⟩ :=
    .one rfl (by
      simp [State.next, State.requesting, State.withAwaiter, State.withReceipt, passed, called,
        World.record, held, State.replying])
  have replies : State.Walks
      ⟨passed, .program .ret :: .stepping 0 :: stack, .reply (.suspended number 0)⟩ []
      ⟨passed, .stepping 0 :: stack, .reply (.suspended number 0)⟩ := ⟨2, rfl⟩
  -- What the step awaits is complete, so the machine is called again at once.
  have judged : passed.judge 0 (.suspended number 0) = .await number 0 := by
    simp [World.judge, Reply.asStep, World.mayAwait, passed, called, World.record, known]
  have ready : passed.isComplete 0 = true := by
    simp [World.isComplete, passed, called, World.record, settled, complete]
  have returns := @State.Walks.one ⟨passed, .stepping 0 :: stack, .reply (.suspended number 0)⟩
    _ _ rfl rfl
  refine ⟨_, _, calls.trans (steps.trans (loads.trans (stores.trans (suspends.trans
    (replies.trans returns))))), ?_, ?_⟩
  · simp [marks, Occurrence.mark?, State.occurrences, World.returned, judged]
  · simp only [State.next, State.returning, judged, State.stepped, ready, if_true]
    refine ⟨rfl, ⟨{ found with position := .suspension number }, ?_, uncancelled, rfl, body⟩,
      ?_, held, given, done, settled, complete⟩
    · simp [World.record, World.modifyActivation, passed, called, present]
    · simp [World.record, World.modifyActivation, passed]

/-- A wanderer is called at every number that it has to go. -/
theorem State.Wanders.exists_itinerary {position : Position} {numbers : List Nat}
    (wanders : state.Wanders position numbers) :
    ∃ happened later, state.Walks happened later ∧
      itinerary 0 happened = position :: numbers.map .suspension := by
  induction numbers generalizing state position with
  | nil =>
      refine ⟨_, _, .one wanders.occurrences rfl, ?_⟩
      simp [itinerary, marks, Occurrence.mark?, Mark.position?]
  | cons number rest ih =>
      obtain ⟨happened, later, walks, left, goesOn⟩ := wanders.walks
      obtain ⟨further, last, walksOn, rests⟩ := ih goesOn
      refine ⟨_, _, walks.trans walksOn, ?_⟩
      simp only [itinerary] at rests ⊢
      rw [marks_append, List.filterMap_append, rests, left]
      simp [Mark.position?]

/-- A machine that is started to wander is about to be called for the first time. -/
theorem State.wanders_wandering (numbers : List Nat) :
    ∃ happened later, (State.ofProgram .initial (.wandering numbers)).Walks happened later ∧
      marks 0 happened = [] ∧ later.Wanders .notStarted numbers := by
  refine ⟨_, _, ⟨10, Prod.ext rfl rfl⟩, ?_, ?_, ?_, ?_, ?_, ?_, ?_⟩
  all_goals
    simp [State.walk, State.next, State.ofProgram, Program.wandering, State.requesting,
      State.makingReady, World.newDeferred, State.carryingOut, State.publishing, World.initial,
      World.modifyDeferred, World.record, State.returning, State.awakening, Deferred.publish,
      Deferred.fresh, Deferred.isComplete, State.replying, State.starting, World.newActivation,
      State.resuming, World.modifyActivation, Activation.fresh, Machine.body, World.putReceipt,
      Store.size, Store.empty, marks, State.occurrences, World.requested, World.performed,
      World.returned, Occurrence.mark?]

/-- The protocol of steps.  In every run, the marks of a machine obey the protocol.  Whenever
a step is called, it runs next, none of the machine is under way, and what the machine awaits
is complete.  Apart from that the suspensions may come in any order, and as often as they
like. -/
theorem step_protocol :
    (∀ trace state, Reaches trace state → ∀ machine,
      Protocol (marks machine trace) ∧
      ∀ position, .called machine position ∈ state.occurrences →
        state.next.control = .task (.step (.started machine) position) ∧
        Frame.stepping machine ∉ state.stack ∧
        ((position = .notStarted ∧ marks machine trace = []) ∨
          ∃ earlier resumeAt deferred found, position = .suspension resumeAt ∧
            marks machine trace =
              earlier ++ [.ended (.returned (.await resumeAt deferred))] ∧
            state.world.deferreds.get? deferred = some found ∧ found.isComplete = true)) ∧
    ∀ numbers : List Nat, ∃ trace state, Reaches trace state ∧
      itinerary 0 trace = .notStarted :: numbers.map .suspension := by
  constructor
  · intro trace state reaches machine
    obtain ⟨protocol, shows⟩ := reaches.obeys machine
    refine ⟨protocol, ?_⟩
    intro position called
    have calls : state.Calls machine position := State.drives_of_occurrences called rfl
    obtain ⟨alone, ready⟩ := reaches.ready_of_calls calls
    refine ⟨(State.next_of_calls calls).1, alone, ?_⟩
    rcases ready with ⟨position, unstepped⟩ |
      ⟨resumeAt, deferred, found, position, ⟨last, ended⟩, there, settled⟩
    · left
      simp only [Life.Shows, unstepped] at shows
      exact ⟨position, shows⟩
    · right
      simp only [Life.Shows, ended] at shows
      obtain ⟨earlier, before⟩ := shows
      exact ⟨earlier ++ [.called last], resumeAt, deferred, found, position, by simp [before],
        there, settled⟩
  · intro numbers
    obtain ⟨happened, middle, walks, unmarked, wanders⟩ := State.wanders_wandering numbers
    obtain ⟨further, last, walksOn, visits⟩ := wanders.exists_itinerary
    refine ⟨_, _, walksOn.reaches (walks.reaches (.begin _)), ?_⟩
    simp only [itinerary] at visits ⊢
    rw [marks_append, List.nil_append, unmarked, List.nil_append, visits]

/-- A wanderer steps back and forth. -/
theorem step_protocol_wandering :
    (Protocol (marks 0 ((State.ofProgram .initial (.wandering [1, 0])).walk 20).1) ∧
      Frame.stepping 0 ∉ ((State.ofProgram .initial (.wandering [1, 0])).walk 20).2.stack) ∧
    ∃ trace state, Reaches trace state ∧
      itinerary 0 trace = [.notStarted, .suspension 1, .suspension 0] := by
  have reaches := (Reaches.begin (.wandering [1, 0])).walk 20
  obtain ⟨protocol, calls⟩ := step_protocol.1 _ _ reaches 0
  exact ⟨⟨protocol, (calls (.suspension 1) (List.mem_singleton.mpr rfl)).2.1⟩,
    step_protocol.2 [1, 0]⟩

end Stepwise
