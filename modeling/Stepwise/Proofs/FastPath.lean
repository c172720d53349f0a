import Stepwise.Proofs.Moves
import Stepwise.Proofs.Outcome
import Stepwise.Proofs.Quiescence

/-!
# The fast path

A step that awaits what is complete already is followed by the next one at once, inside the
same resumption; otherwise the machine is suspended, and its resumption goes through the
deferred and a scheduler.  A machine cannot tell.  Whatever is complete when it is awaited,
its moves are the play of its conduct with the outcomes that it retrieves.
-/

namespace Stepwise

variable {past : List State} {state : State} {machine deferred : Nat}

/-! ## Governed machines -/

/-- An outcome is there to be retrieved. -/
def World.Offers (world : World) (deferred : Nat) (outcome : Outcome) : Prop :=
  ∃ found, world.deferreds.get? deferred = some found ∧ found.progress = .complete outcome

/-- A machine goes about as a conduct says in a run in which each label has a deferred: of
its own accord it makes the moves that are intended.  What it awaits comes to the outcome of
its label, if to any, and nobody else retrieves it. -/
structure Governed {σ ι : Type} (conduct : Conduct σ ι) (outcomes : ι → Outcome)
    (machine : Nat) (number : ι → Nat) (past : List State) (state : State)
    (made : List (Move ι)) : Prop where
  passes : Passes past state
  injective : ∀ label other, number label = number other → label = other
  moves : moves machine past = made.map (Move.map number)
  follows : conduct.Follows made
  settled : ∀ label, Awaited made label → ∀ visited ∈ past ++ [state], ∀ outcome,
    visited.world.Offers (number label) outcome → outcome = outcomes label
  exclusive : ∀ label, Awaited made label → ∀ visited ∈ past,
    ¬ visited.world.Taken (number label) → visited.next.world.Taken (number label) →
      visited.retrieval? machine = some (number label)

variable {σ ι : Type} {conduct : Conduct σ ι} {outcomes : ι → Outcome} {number : ι → Nat}
  {among : ι → Prop} {made : List (Move ι)} {world later : World}

/-- How the deferreds of labels stand after some moves: what was awaited is complete, unless
it is awaited right now, and what has been taken is what the machine has retrieved. -/
structure Accounts (among : ι → Prop) (number : ι → Nat) (world : World)
    (made : List (Move ι)) : Prop where
  completed : ∀ label, Awaited made label →
    (∃ position resumeAt, standing made = some (position, some (.await resumeAt label))) ∨
      world.ledger.Completed (number label)
  taken : ∀ label, among label → (world.Taken (number label) ↔ Retrieved made label)

/-- What has been taken stays so. -/
theorem World.Onward.taken (onward : world.Onward later) (taken : world.Taken deferred) :
    later.Taken deferred := by
  obtain ⟨found, lookup, took⟩ := taken
  obtain ⟨changed, still, came⟩ := onward deferred found lookup
  rw [took] at came
  generalize progress : changed.progress = now at came
  cases came
  exact ⟨changed, still, progress⟩

/-- A label is awaited after one more move only if it was, or is awaited by that move. -/
theorem awaited_snoc {move : Move ι} {label : ι} :
    Awaited (made ++ [move]) label ↔
      Awaited made label ∨ ∃ resumeAt, move = .ended (.await resumeAt label) := by
  simp [Awaited, exists_or, eq_comm]

/-- A label is retrieved after one more move only if it was, or is retrieved by that move. -/
theorem retrieved_snoc {move : Move ι} {label : ι} :
    Retrieved (made ++ [move]) label ↔
      Retrieved made label ∨ ∃ result, move = .retrieved label result := by
  simp [Retrieved, exists_or, eq_comm]

namespace Accounts

variable {position : Position}

/-- The world goes on, and nothing of the labels is taken. -/
theorem onward (accounts : Accounts among number world made) (onward : world.Onward later)
    (quiet : ∀ label, among label → ¬ world.Taken (number label) →
      ¬ later.Taken (number label)) : Accounts among number later made where
  completed := fun label awaited =>
    (accounts.completed label awaited).imp_right fun completed => onward.completed completed
  taken := by
    intro label member
    rw [← accounts.taken label member]
    constructor
    · intro taken
      by_cases before : world.Taken (number label)
      · exact before
      · exact absurd taken (quiet label member before)
    · exact fun taken => onward.taken taken

/-- A step is called, when what the machine awaits is complete. -/
theorem called (accounts : Accounts among number world made)
    (ready : ∀ last resumeAt label,
      standing made = some (last, some (.await resumeAt label)) →
        world.ledger.Completed (number label)) :
    Accounts among number world (made ++ [.called position]) where
  completed := by
    intro label awaited
    right
    rcases awaited_snoc.mp awaited with before | ⟨_, same⟩
    · rcases accounts.completed label before with ⟨last, resumeAt, stands⟩ | completed
      · exact ready last resumeAt label stands
      · exact completed
    · cases same
  taken := fun label member => by simp [accounts.taken label member, retrieved_snoc]

/-- A step that is under way ends. -/
theorem ended {ending : Ending ι} (accounts : Accounts among number world made)
    (under : standing made = some (position, none)) :
    Accounts among number world (made ++ [.ended ending]) where
  completed := by
    intro label awaited
    rcases awaited_snoc.mp awaited with before | ⟨resumeAt, same⟩
    · rcases accounts.completed label before with ⟨_, _, stands⟩ | completed
      · cases under.symm.trans stands
      · exact .inr completed
    · cases same
      exact .inl ⟨position, resumeAt, by simp [standing_snoc, under, Move.after]⟩
  taken := fun label member => by simp [accounts.taken label member, retrieved_snoc]

/-- The result of a label is retrieved by a step that is under way. -/
theorem retrieved {label : ι} {result : Outcome} (accounts : Accounts among number world made)
    (onward : world.Onward later) (under : standing made = some (position, none))
    (took : later.Taken (number label))
    (quiet : ∀ other, among other → other ≠ label → ¬ world.Taken (number other) →
      ¬ later.Taken (number other)) :
    Accounts among number later (made ++ [.retrieved label result]) where
  completed := by
    intro other awaited
    rcases awaited_snoc.mp awaited with before | ⟨_, same⟩
    · rcases accounts.completed other before with ⟨_, _, stands⟩ | completed
      · cases under.symm.trans stands
      · exact .inr (onward.completed completed)
    · cases same
  taken := by
    intro other member
    rw [retrieved_snoc, ← accounts.taken other member]
    constructor
    · intro taken
      by_cases before : world.Taken (number other)
      · exact .inl before
      · by_cases same : other = label
        · exact .inr ⟨result, by rw [same]⟩
        · exact absurd taken (quiet other member same before)
    · rintro (before | ⟨_, same⟩)
      · exact onward.taken before
      · cases same
        exact took

end Accounts

/-- A step that retrieves what is complete gets the outcome, the first time. -/
theorem Accounts.next_of_retrieved {position : Position} {label : ι} {found : Deferred}
    (accounts : Accounts among number world made) (member : among label)
    (under : standing made = some (position, none))
    (intent : conduct.intent (conduct.snapshot made) = .retrieve label)
    (lookup : world.deferreds.get? (number label) = some found)
    (complete : found.isComplete = true)
    (settled : ∀ outcome, world.Offers (number label) outcome → outcome = outcomes label) :
    conduct.Next outcomes made (.retrieved label found.retrieved) := by
  cases progress : found.progress with
  | pending => simp [Deferred.isComplete, progress] at complete
  | complete outcome =>
      have untaken : ¬ Retrieved made label := by
        rw [← accounts.taken label member]
        rintro ⟨other, again, took⟩
        cases lookup.symm.trans again
        cases progress.symm.trans took
      have first : found.retrieved = outcomes label := by
        simp [Deferred.retrieved, progress, settled outcome ⟨found, lookup, progress⟩]
      rw [first]
      exact .takes under intent untaken
  | taken =>
      have retrieved := (accounts.taken label member).mp ⟨found, lookup, progress⟩
      have again : found.retrieved = .error (.invalid .alreadyTaken) := by
        simp [Deferred.retrieved, progress]
      rw [again]
      exact .retakes under intent retrieved

namespace Passes

/-- A step is called where the conduct's play goes on. -/
theorem call {position : Position} (passes : Passes past state)
    (named : Stepwise.moves machine past = made.map (Move.map number))
    (accounts : Accounts among number state.world made)
    (calls : state.Calls machine position) :
    conduct.Next outcomes made (.called position) ∧
      Accounts among number state.world (made ++ [.called position]) := by
  obtain ⟨-, ready⟩ := passes.reaches.ready_of_calls calls
  rcases ready with ⟨rfl, unstepped⟩ |
    ⟨resumeAt, deferred, found, rfl, ⟨last, ended⟩, there, complete⟩
  · have stands := passes.standing_of_unstepped named unstepped
    exact ⟨.starts stands, accounts.called (by simp [stands])⟩
  · obtain ⟨labelled, stands, same⟩ := passes.standing_of_ended named ended
    cases labelled with
    | complete _ | fail _ | panicked _ => cases same
    | await _ label =>
        cases same
        refine ⟨.resumes stands, accounts.called ?_⟩
        intro last resumeAt other again
        cases stands.symm.trans again
        exact ⟨found, there, complete⟩

/-- A step ends where the conduct's play goes on. -/
theorem finish {ending : StepEnd} {callers : Stack} {labelled : Ending ι}
    (passes : Passes past state)
    (named : Stepwise.moves machine past = made.map (Move.map number))
    (accounts : Accounts among number state.world made)
    (ends : state.Ends machine ending callers)
    (intends : conduct.Intends made (.ended labelled)) :
    conduct.Next outcomes made (.ended labelled) ∧
      Accounts among number state.world (made ++ [.ended labelled]) := by
  obtain ⟨-, found, -, under⟩ := State.called_of_ends passes.reaches.inOrder ends
  have stands := passes.standing_of_step named under
  exact ⟨.finishes stands intends, accounts.ended stands⟩

/-- A step retrieves a result where the conduct's play goes on, when the small step takes
that of no other label. -/
theorem retrieve {label : ι} {result : Outcome} (passes : Passes past state)
    (named : Stepwise.moves machine past = made.map (Move.map number))
    (accounts : Accounts among number state.world made) (member : among label)
    (retrieves : state.retrieval? machine = some (number label))
    (got : (state.world.retrieve (number label)).2 = result)
    (intends : conduct.Intends made (.retrieved label result))
    (settled : ∀ outcome, state.world.Offers (number label) outcome → outcome = outcomes label)
    (others : ∀ other, among other → other ≠ label → ¬ state.world.Taken (number other) →
      ¬ state.next.world.Taken (number other)) :
    conduct.Next outcomes made (.retrieved label result) ∧
      Accounts among number state.next.world (made ++ [.retrieved label result]) := by
  have order := passes.reaches.inOrder
  obtain ⟨position, under⟩ := State.step_of_retrieval order retrieves
  have stands := passes.standing_of_step named under
  obtain ⟨intent, awaited⟩ := intends
  have completed : state.world.ledger.Completed (number label) := by
    rcases accounts.completed label awaited with ⟨_, _, stood⟩ | completed
    · cases stands.symm.trans stood
    · exact completed
  obtain ⟨found, lookup, complete⟩ := completed
  have present : state.world.deferreds.get? (number label) = some found := lookup
  have same : found.retrieved = result := by simpa [World.retrieve, present] using got
  rw [← same]
  exact ⟨accounts.next_of_retrieved member stands intent lookup complete settled,
    accounts.retrieved (State.onward_next order) stands
      (State.taken_of_retrieval retrieves ⟨found, lookup, complete⟩) others⟩

/-- The moves that can be seen of a governed machine are a play of its conduct. -/
theorem plays (passes : Passes past state)
    (injective : ∀ label other, number label = number other → label = other)
    (named : Stepwise.moves machine past = made.map (Move.map number))
    (follows : conduct.Follows made) (awaited : ∀ label, Awaited made label → among label)
    (settled : ∀ label, among label → ∀ visited ∈ past ++ [state], ∀ outcome,
      visited.world.Offers (number label) outcome → outcome = outcomes label)
    (exclusive : ∀ label, among label → ∀ visited ∈ past,
      ¬ visited.world.Taken (number label) → visited.next.world.Taken (number label) →
        visited.retrieval? machine = some (number label)) :
    conduct.Plays outcomes made ∧ Accounts among number state.world made := by
  induction passes generalizing made with
  | begin program =>
      cases List.map_eq_nil_iff.mp named.symm
      refine ⟨.nil, ⟨fun _ awaits => awaits.elim fun _ => List.not_mem_nil.elim, ?_⟩⟩
      intro label _
      constructor
      · rintro ⟨found, lookup, -⟩
        simp [State.ofProgram, World.initial] at lookup
      · rintro ⟨_, member⟩
        cases member
  | @again past state program _ _ ih =>
      refine ih named follows awaited ?_ exclusive
      intro label member visited visit
      rcases List.mem_append.mp visit with before | now
      · exact settled label member visited (List.mem_append_left _ before)
      · rw [List.mem_singleton.mp now]
        exact settled label member (.ofProgram state.world program) (by simp)
  | @next past state passed ih =>
      rw [moves_snoc] at named
      obtain ⟨earlier, more, rfl, before, now⟩ := List.map_eq_append_iff.mp named.symm
      obtain ⟨plays, accounts⟩ := ih before.symm follows.of_append
        (fun label awaits => awaited label (awaits.imp fun _ => List.mem_append_left _))
        (fun label member visited visit => settled label member visited
          (List.mem_append_left _ visit))
        (fun label member visited visit => exclusive label member visited
          (List.mem_append_left _ visit))
      -- What the machine does not retrieve in this small step, nobody takes.
      have onward := State.onward_next passed.reaches.inOrder
      have others (label : ι) (member : among label)
          (apart : state.retrieval? machine ≠ some (number label))
          (untaken : ¬ state.world.Taken (number label)) :
          ¬ state.next.world.Taken (number label) :=
        fun took => apart (exclusive label member state (by simp) untaken took)
      have quiet (silent : state.retrieval? machine = none) (label : ι)
          (member : among label) := others label member (by simp [silent])
      rcases state.moves_cases machine with ⟨position, calls, -, moved, silent⟩ |
        ⟨ending, callers, ends, -, moved, silent⟩ | ⟨-, moved⟩
      · obtain ⟨move, rfl, same⟩ := List.map_eq_singleton_iff.mp (now.trans moved)
        cases move with
        | retrieved _ _ | ended _ => cases same
        | called _ =>
            cases same
            obtain ⟨next, counted⟩ := passed.call before.symm accounts calls
            exact ⟨.snoc plays next, counted.onward onward (quiet silent)⟩
      · obtain ⟨move, rfl, same⟩ := List.map_eq_singleton_iff.mp (now.trans moved)
        cases move with
        | retrieved _ _ | called _ => cases same
        | ended labelled =>
            obtain ⟨next, counted⟩ := passed.finish before.symm accounts ends follows.allows
            exact ⟨.snoc plays next, counted.onward onward (quiet silent)⟩
      · cases retrieves : state.retrieval? machine with
        | none =>
            rw [moved, retrieves] at now
            cases List.map_eq_nil_iff.mp now
            rw [List.append_nil]
            exact ⟨plays, accounts.onward onward (quiet retrieves)⟩
        | some deferred =>
            rw [moved, retrieves] at now
            obtain ⟨move, rfl, same⟩ := List.map_eq_singleton_iff.mp now
            cases move with
            | called _ | ended _ => cases same
            | retrieved label result =>
                cases same
                have intends := follows.allows
                have member := awaited label (awaited_snoc.mpr (.inl intends.2))
                obtain ⟨next, counted⟩ := passed.retrieve before.symm accounts member retrieves
                  rfl intends (settled label member state (by simp))
                  fun other there different => others other there fun same =>
                    different (injective _ _ (Option.some.inj (same.symm.trans retrieves)))
                exact ⟨.snoc plays next, counted⟩

end Passes

/-! ## The end of a machine -/

/-- What has happened to a machine in the small steps of a run. -/
def life (machine : Nat) (past : List State) : Life :=
  (Chronicle.of (past.flatMap State.occurrences)).life machine

/-- A machine died of a breach of protocol. -/
def Life.BrokenBy (life : Life) (error : Error) : Prop :=
  error.isFatal = true ∧
    ∃ position, life.step = some (position, some (.returned (.fail error)))

/-- A machine that was started has been resumed as often as it could be: no code is left, and
none of its resumptions.  It was not cancelled, and none of them was dropped. -/
structure RunOut (machine : Nat) (past : List State) (state : State) : Prop where
  ended : state.hasEnded
  started : (state.world.activations.get? machine).isSome = true
  resumed : state.resumptions machine = 0
  uncancelled : (life machine past).cancelled = false
  kept : (life machine past).abandoned = false

/-- The outcome that the end of a step settles, whatever labels there are. -/
def Ending.outcome? (position : Position) : Ending ι → Option Outcome
  | .await _ _ => none
  | .complete value => some (.ok value)
  | .fail error => if error.isFatal then none else some (.error error)
  | .panicked payload => some (.error (.stepPanicked position payload.message))

/-- A machine that has run out has ended its last step otherwise than by awaiting, and was
told the outcome that this settles. -/
theorem Passes.ends (passes : Passes past state) (runOut : RunOut machine past state) :
    ∃ position ending, (life machine past).step = some (position, some ending) ∧
      (∀ resumeAt deferred, ending ≠ .returned (.await resumeAt deferred)) ∧
      (life machine past).told = ending.outcome? position := by
  obtain ⟨ended, started, resumed, uncancelled, kept⟩ := runOut
  obtain ⟨activation, present⟩ := Option.isSome_iff_exists.mp started
  obtain ⟨_, -, -, accords⟩ := State.accords_of_hasEnded passes.reaches.inOrder ended present
  rw [resumed] at accords
  cases status : activation.status with
  | idle => simp [status] at accords
  | running =>
      simp only [status] at accords
      obtain ⟨-, -, untold, -, violated⟩ := accords
      obtain ⟨position, error, broke, fatal⟩ := violated trivial
      exact ⟨position, _, broke, by simp, by simp [life, untold, StepEnd.outcome?, fatal]⟩
  | finished =>
      simp only [status] at accords
      obtain ⟨-, -, told, -⟩ := accords
      obtain ⟨outcome, told⟩ := Option.isSome_iff_exists.mp told
      cases passes.reaches.explains told with
      | completed ended =>
          exact ⟨_, _, ended, by simp, by simp [life, told, StepEnd.outcome?]⟩
      | failed ended ordinary =>
          exact ⟨_, _, ended, by simp, by simp [life, told, StepEnd.outcome?, ordinary]⟩
      | panicked ended => exact ⟨_, _, ended, by simp, by simp [life, told, StepEnd.outcome?]⟩
      | cancelled asked _ => cases uncancelled.symm.trans asked
      | abandoned lost _ => cases kept.symm.trans lost

/-- What a machine was told, or died of, can be seen from where its moves have led it. -/
theorem Governed.ends (governed : Governed conduct outcomes machine number past state made)
    (runOut : RunOut machine past state) :
    ∃ position ending, standing made = some (position, some ending) ∧
      (∀ resumeAt label, ending ≠ .await resumeAt label) ∧
      (life machine past).told = ending.outcome? position ∧
      ∀ error, (life machine past).BrokenBy error ↔
        error.isFatal = true ∧ ending = .fail error := by
  obtain ⟨position, ending, ended, goesOn, told⟩ := governed.passes.ends runOut
  obtain ⟨labelled, stands, same⟩ := governed.passes.standing_of_ended governed.moves ended
  have broken (error : Error) : (life machine past).BrokenBy error ↔
      error.isFatal = true ∧ ending = .returned (.fail error) := by
    simp [Life.BrokenBy, ended]
  refine ⟨position, labelled, stands, ?_⟩
  match ending with
  | .returned (.await resumeAt deferred) => exact absurd rfl (goesOn resumeAt deferred)
  | .returned (.complete value) | .returned (.fail error) | .panicked payload =>
      cases labelled <;> cases same
      exact ⟨by simp, told, fun _ => by simp [broken]⟩

/-- Fast-path equivalence.  In any two runs of a machine in which what it awaits comes to the
same outcomes, it makes the same moves, as far as both have come: its steps are called at the
same positions and retrieve the same results.  When it has run out in both, it has been told
the same outcome, or has died of the same breach of protocol.  It does not matter which of
the deferreds are complete when they are awaited, and which schedulers resume the machine. -/
theorem fast_path_equivalence {first second : Nat} {number renumber : ι → Nat}
    {past others : List State} {state other : State} {made remade : List (Move ι)}
    (governed : Governed conduct outcomes first number past state made)
    (again : Governed conduct outcomes second renumber others other remade) :
    (made <+: remade ∨ remade <+: made) ∧
      (RunOut first past state → RunOut second others other →
        made = remade ∧ (life first past).told = (life second others).told ∧
          ∀ error, (life first past).BrokenBy error ↔ (life second others).BrokenBy error) := by
  obtain ⟨plays, -⟩ := governed.passes.plays governed.injective governed.moves governed.follows
    (fun _ awaited => awaited) governed.settled governed.exclusive
  obtain ⟨replays, -⟩ := again.passes.plays again.injective again.moves again.follows
    (fun _ awaited => awaited) again.settled again.exclusive
  have comparable := plays.comparable replays
  refine ⟨comparable, fun runOut runOutToo => ?_⟩
  obtain ⟨position, ending, stands, stops, told, broken⟩ := governed.ends runOut
  obtain ⟨_, _, standsToo, stopsToo, toldToo, brokenToo⟩ := again.ends runOutToo
  have same : made = remade := by
    rcases comparable with shorter | shorter
    · exact replays.eq_of_prefix shorter stands stops
    · exact (plays.eq_of_prefix shorter standsToo stopsToo).symm
  subst same
  cases stands.symm.trans standsToo
  exact ⟨rfl, told.trans toldToo.symm,
    fun error => (broken error).trans (brokenToo error).symm⟩

/-! ## A machine on either path -/

/-- Await what is left and then what is right, and end with the result of the latter. -/
def Program.pairwise : Position → Program
  | .notStarted => .call (.suspend (.shared "left") 0) .ret
  | .suspension 0 =>
      .call (.retrieve (.shared "left")) fun _ => .call (.suspend (.shared "right") 1) .ret
  | _ => .call (.retrieve (.shared "right")) .ret

/-- Start that machine when both are complete. -/
def Program.early : Program :=
  .call (.ready (.shared "left") false (.ok .null)) fun _ =>
    .call (.ready (.shared "right") false (.ok .null)) fun _ =>
      .call (.start (.shared "machine") (.custom .pairwise) .inline fun _ => .ret .done) .ret

/-- Complete what is left only when the machine awaits it. -/
def Program.late : Program :=
  .call (.ready (.shared "right") false (.ok .null)) fun _ =>
    .call (.pending (.shared "left") false (.shared "writer")) fun _ =>
      .call (.start (.shared "machine") (.custom .pairwise) .inline fun _ => .ret .done) fun _ =>
        .call (.complete (.shared "writer") (.ok .null)) .ret

/-- What that machine does depends on where it was called and what it has retrieved since;
what is left has the label of truth. -/
def Conduct.pairwise : Conduct (Position × Option Outcome) Bool where
  start := (.notStarted, none)
  enter _ position := (position, none)
  learn snapshot result := (snapshot.1, some result)
  intent
    | (.notStarted, _) => .finish (.await 0 true)
    | (.suspension 0, none) => .retrieve true
    | (.suspension 0, some _) => .finish (.await 1 false)
    | (_, none) => .retrieve false
    | (_, some (.ok value)) => .finish (.complete value)
    | (_, some (.error error)) => .finish (.fail error)

/-- The moves of that machine. -/
def pairs : List (Move Bool) :=
  [.called .notStarted, .ended (.await 0 true), .called (.suspension 0),
    .retrieved true (.ok .null), .ended (.await 1 false), .called (.suspension 1),
    .retrieved false (.ok .null), .ended (.complete .null)]

theorem follows_pairs : Conduct.pairwise.Follows pairs := by
  have first : Conduct.pairwise.Follows (pairs.take 3) :=
    ((Unfolds.nil.snoc trivial).snoc rfl).snoc trivial
  have second : Conduct.pairwise.Follows (pairs.take 6) :=
    ((first.snoc (by exact ⟨rfl, 0, by simp [pairs]⟩)).snoc (by rfl)).snoc (by trivial)
  exact (second.snoc (by exact ⟨rfl, 1, by simp [pairs]⟩)).snoc (by rfl)

/-- Whether the result of a deferred has been taken. -/
def World.hasTaken (world : World) (deferred : Nat) : Bool :=
  match world.deferreds.get? deferred with
  | some ⟨.taken, _, _, _⟩ => true
  | _ => false

/-- Whether a deferred offers null, if anything, and nobody but a machine takes it. -/
def State.minds (machine deferred : Nat) (state : State) : Bool :=
  (match state.world.deferreds.get? deferred with
    | some ⟨.complete (.ok .null), _, _, _⟩ => true
    | some ⟨.complete _, _, _, _⟩ => false
    | _ => true) &&
  (state.world.hasTaken deferred || !state.next.world.hasTaken deferred ||
    state.retrieval? machine == some deferred)

theorem World.taken_iff : world.Taken deferred ↔ world.hasTaken deferred = true := by
  unfold Taken hasTaken
  cases world.deferreds.get? deferred with
  | none => simp
  | some found => cases found with | mk progress _ _ _ => cases progress <;> simp

/-- A machine that makes those moves is governed, when it alone minds what it awaits. -/
theorem governed_of_minds {program : Program} {count : Nat} {number : Bool → Nat}
    (injective : ∀ label other, number label = number other → label = other)
    (named : moves 0 ((State.ofProgram .initial program).visits count) =
      pairs.map (Move.map number))
    (minds : ∀ label, ((State.ofProgram .initial program).visits count ++
      [((State.ofProgram .initial program).walk count).2]).all
        (State.minds 0 (number label)) = true) :
    Governed Conduct.pairwise (fun _ => .ok .null) 0 number
      ((State.ofProgram .initial program).visits count)
      ((State.ofProgram .initial program).walk count).2 pairs where
  passes := (Passes.begin program).walk count
  injective := injective
  moves := named
  follows := follows_pairs
  settled := by
    rintro label - visited member outcome ⟨found, lookup, offers⟩
    have minded := List.all_eq_true.mp (minds label) visited member
    obtain ⟨progress, _, _, _⟩ := found
    subst offers
    simp only [State.minds, lookup, Bool.and_eq_true] at minded
    obtain ⟨null, -⟩ := minded
    split at null
    · next same =>
        cases same
        rfl
    · cases null
    · next pending => exact (pending _ _ _ _ rfl).elim
  exclusive := by
    intro label _ visited member untaken taken
    have minded := List.all_eq_true.mp (minds label) visited (List.mem_append_left _ member)
    rw [World.taken_iff] at untaken taken
    simpa [State.minds, untaken, taken] using (Bool.and_eq_true_iff.mp minded).2

/-- The machine is told the same in both runs. -/
theorem fast_path_equivalence_pairwise :
    RunOut 0 ((State.ofProgram .initial .early).visits 41)
        ((State.ofProgram .initial .early).walk 41).2 ∧
      RunOut 0 ((State.ofProgram .initial .late).visits 47)
        ((State.ofProgram .initial .late).walk 47).2 ∧
      (life 0 ((State.ofProgram .initial .early).visits 41)).told =
        (life 0 ((State.ofProgram .initial .late).visits 47)).told := by
  have early : Governed Conduct.pairwise (fun _ => .ok .null) 0
      (fun left => if left then 0 else 1) ((State.ofProgram .initial .early).visits 41)
      ((State.ofProgram .initial .early).walk 41).2 pairs :=
    governed_of_minds (by decide) rfl (by rintro (_ | _) <;> rfl)
  have late : Governed Conduct.pairwise (fun _ => .ok .null) 0
      (fun left => if left then 1 else 0) ((State.ofProgram .initial .late).visits 47)
      ((State.ofProgram .initial .late).walk 47).2 pairs :=
    governed_of_minds (by decide) rfl (by rintro (_ | _) <;> rfl)
  have soon : RunOut 0 ((State.ofProgram .initial .early).visits 41)
      ((State.ofProgram .initial .early).walk 41).2 :=
    ⟨⟨rfl, .inl ⟨_, rfl⟩⟩, rfl, rfl, rfl, rfl⟩
  have eventually : RunOut 0 ((State.ofProgram .initial .late).visits 47)
      ((State.ofProgram .initial .late).walk 47).2 :=
    ⟨⟨rfl, .inl ⟨_, rfl⟩⟩, rfl, rfl, rfl, rfl⟩
  exact ⟨soon, eventually, ((fast_path_equivalence early late).2 soon eventually).2.1⟩

end Stepwise
