import Mathlib.Data.List.Forall2
import Stepwise.Proofs.Docket
import Stepwise.Proofs.Stains.Runs

/-!
# Cancellation

A request to cancel a machine marks it, and does nothing else.  No step of a marked machine is
called: its observer is told of the cancellation where the next step would have been called,
unless the step in progress settles an outcome, or the resumption is dropped.  Until the machine
would be called, the run goes on as it would without the request; a finished machine is never
called again.
-/

namespace Stepwise

variable {trace : List Occurrence} {state later : State} {past more : List State}
  {machine : Nat} {outcome : Outcome}

/-! ## The life of a cancelled machine -/

/-- What a cancelled machine's life is still like, that was such a life before: no step has been
called since. -/
structure Life.Dwindles (life later : Life) : Prop where
  cancelled : later.cancelled = true
  observer : later.observer = life.observer
  step : ∀ position, later.step = some (position, none) → life.step = some (position, none)
  awaits : ∀ resumeAt deferred, life.Awaits resumeAt deferred → later.Awaits resumeAt deferred

theorem Life.Dwindles.trans {life middle later : Life} (first : life.Dwindles middle)
    (second : middle.Dwindles later) : life.Dwindles later where
  cancelled := second.cancelled
  observer := second.observer.trans first.observer
  step := fun position under => first.step position (second.step position under)
  awaits := fun resumeAt deferred waits =>
    second.awaits resumeAt deferred (first.awaits resumeAt deferred waits)

namespace Chronicle

variable {chronicle : Chronicle}

/-- What happens leaves the life of a cancelled machine as it is, but for the end of its step, the
loss of its resumption, and what its observer is told. -/
theorem dwindles_after {occurrence : Occurrence} (permitted : chronicle.Permits occurrence)
    (cancelled : (chronicle.life machine).cancelled = true) :
    (chronicle.life machine).Dwindles ((chronicle.after occurrence).life machine) := by
  cases occurrence with
  | started other form observer =>
      have different : machine ≠ other := by
        rintro rfl
        have unborn : chronicle.life machine = .unborn := permitted
        simp [unborn, Life.unborn] at cancelled
      refine ⟨?_, ?_, ?_, ?_⟩ <;> simp [after, different, cancelled]
  | called other position =>
      have different : machine ≠ other := by
        rintro rfl
        have uncancelled := permitted.2.1
        simp [cancelled] at uncancelled
      refine ⟨?_, ?_, ?_, ?_⟩ <;> simp [after, different, cancelled]
  | ended other ending =>
      by_cases same : machine = other
      · subst same
        obtain ⟨-, position, under⟩ := permitted
        refine ⟨?_, ?_, ?_, ?_⟩
        · simp [after, cancelled]
        · simp [after]
        · simp [after, under]
        · rintro resumeAt deferred ⟨other, awaits⟩
          cases under.symm.trans awaits
      · refine ⟨?_, ?_, ?_, ?_⟩ <;> simp [after, same, cancelled]
  | cancelled other | abandoned other | told other _ =>
      by_cases same : machine = other
      · subst same
        refine ⟨?_, ?_, ?_, ?_⟩ <;> simp [after, cancelled, Life.Awaits]
      · refine ⟨?_, ?_, ?_, ?_⟩ <;> simp [after, same, cancelled]
  | dispatched _ _ _ | began _ _ | worked _ _ | discarded _ | shown _ _ _ | announced _ _
  | interrupted _ =>
      exact ⟨cancelled, rfl, fun _ under => under, fun _ _ waits => waits⟩

theorem dwindles_afterAll {occurrences : List Occurrence}
    (permitted : chronicle.PermitsAll occurrences)
    (cancelled : (chronicle.life machine).cancelled = true) :
    (chronicle.life machine).Dwindles ((chronicle.afterAll occurrences).life machine) := by
  induction occurrences generalizing chronicle with
  | nil => exact ⟨cancelled, rfl, fun _ under => under, fun _ _ waits => waits⟩
  | cons occurrence rest ih =>
      have first := dwindles_after permitted.1 cancelled
      exact first.trans (ih permitted.2 first.cancelled)

/-- What was told stays told. -/
theorem told_afterAll {occurrences : List Occurrence}
    (permitted : chronicle.PermitsAll occurrences)
    (told : (chronicle.life machine).told = some outcome) :
    ((chronicle.afterAll occurrences).life machine).told = some outcome := by
  induction occurrences generalizing chronicle with
  | nil => exact told
  | cons occurrence rest ih => exact ih permitted.2 (told_after permitted.1 told)

/-- An observer that had not been told anything is told now what it has been told later. -/
theorem told_afterAll_iff {occurrences : List Occurrence}
    (permitted : chronicle.PermitsAll occurrences)
    (untold : (chronicle.life machine).told = none) :
    (∃ outcome, ((chronicle.afterAll occurrences).life machine).told = some outcome) ↔
      ∃ outcome, .told machine outcome ∈ occurrences := by
  constructor
  · rintro ⟨outcome, told⟩
    refine Classical.byContradiction fun never => ?_
    obtain ⟨before, -⟩ := told_before (not_exists.mp never) told
    cases untold.symm.trans before
  · rintro ⟨outcome, member⟩
    obtain ⟨older, newer, rfl⟩ := List.append_of_mem member
    obtain ⟨-, -, allowed⟩ := (permitsAll_append _ _ _).mp permitted
    have told : ((((chronicle.afterAll older).after (.told machine outcome)).afterAll newer).life
        machine).told = some outcome := told_afterAll allowed (by simp [after])
    refine ⟨outcome, ?_⟩
    rw [afterAll, List.foldl_append]
    exact told

end Chronicle

/-- A machine is finished when its observer has been told. -/
theorem Reaches.isFinished_iff (reaches : Reaches trace state)
    (running : ∀ reason, state.control ≠ .halted reason) :
    state.world.isFinished machine = true ↔
      ∃ outcome, ((Chronicle.of trace).life machine).told = some outcome := by
  have account := (reaches.inOrder.custody running).machines machine
  cases lookup : state.world.activations.get? machine with
  | none =>
      have absent : state.world.ledger.activations.get? machine = none := lookup
      simp only [Ledger.MachineAccount, absent] at account
      simp [World.isFinished, lookup, account.2.2.2, Life.unborn]
  | some found =>
      have present : state.world.ledger.activations.get? machine = some found := lookup
      simp only [Ledger.MachineAccount, present] at account
      obtain ⟨-, -, accords⟩ := account
      rw [← Option.isSome_iff_exists]
      cases status : found.status <;> simp only [status] at accords
      · simp [World.isFinished, lookup, Activation.isFinished, status, accords.2.2.2.1]
      · simp [World.isFinished, lookup, Activation.isFinished, status, accords.2.2.1]
      · simp [World.isFinished, lookup, Activation.isFinished, status, accords.2.2.1]

/-- What happens after a request to cancel a machine is permitted by what happened up to it. -/
theorem Passes.permits_of_cancelled (passes : Passes past state)
    (happens : state.occurrences = [.cancelled machine]) (goesOn : state.next.GoesOn more later) :
    Chronicle.of ((past ++ [state] ++ more).flatMap State.occurrences) =
        ((Chronicle.of (past.flatMap State.occurrences)).after (.cancelled machine)).afterAll
          (more.flatMap State.occurrences) ∧
      ((Chronicle.of (past.flatMap State.occurrences)).after (.cancelled machine)).PermitsAll
        (more.flatMap State.occurrences) := by
  have permitted := (passes.next.goesOn goesOn).reaches.permitsAll
  simp only [List.flatMap_append, List.flatMap_cons, happens, List.append_assoc,
    List.singleton_append] at permitted ⊢
  exact ⟨Chronicle.of_append _ _, ((Chronicle.permitsAll_append _ _ _).mp permitted).2.2⟩

/-- After a request to cancel it, no step of a machine is called. -/
theorem Passes.dwindles (passes : Passes past state)
    (happens : state.occurrences = [.cancelled machine]) (goesOn : state.next.GoesOn more later) :
    ((Chronicle.of (past.flatMap State.occurrences)).life machine).Dwindles
      ((Chronicle.of ((past ++ [state] ++ more).flatMap State.occurrences)).life machine) := by
  obtain ⟨same, allowed⟩ := passes.permits_of_cancelled happens goesOn
  have dwindles := @Chronicle.dwindles_afterAll machine _ _ allowed (by simp [Chronicle.after])
  rw [same]
  refine ⟨dwindles.cancelled, dwindles.observer.trans ?_, fun position under => ?_,
    fun resumeAt deferred waits => dwindles.awaits resumeAt deferred ?_⟩
  · simp [Chronicle.after]
  · simpa [Chronicle.after] using dwindles.step position under
  · simpa [Chronicle.after, Life.Awaits] using waits

/-! ## What happens on the way -/

namespace State.GoesOn

variable {visited : State}

/-- A state on the way is come to. -/
theorem exists_of_mem (goesOn : state.GoesOn more later) (member : visited ∈ more) :
    ∃ first rest, more = first ++ visited :: rest ∧ state.GoesOn first visited := by
  induction goesOn with
  | here => cases member
  | again program _ _ ih => exact ih member
  | @next more later goesOn ih =>
      rcases List.mem_append.mp member with before | last
      · obtain ⟨first, rest, rfl, comes⟩ := ih before
        exact ⟨first, rest ++ [later], by simp, comes⟩
      · rw [List.mem_singleton.mp last]
        exact ⟨more, [], rfl, goesOn⟩

/-- The library has something to do next only by the small step before. -/
theorem exists_before {task : Task} (goesOn : state.GoesOn more later)
    (does : later.control = .task task) (idle : state.control ≠ .task task) :
    ∃ first before, more = first ++ [before] ∧ state.GoesOn first before ∧
      before.next = later := by
  cases goesOn with
  | here => exact absurd does idle
  | again program _ _ => cases does
  | next goesOn => exact ⟨_, _, rfl, goesOn, rfl⟩

end State.GoesOn

/-! ## How the outcome comes to be told -/

namespace State

variable {chronicle : Chronicle} {visited : State}

/-- A cancelled machine that would be called has its observer told by the next small step. -/
theorem tells_of_advance (order : state.InOrder chronicle)
    (advances : state.control = .task (.advance machine))
    (cancelled : (chronicle.life machine).cancelled = true) :
    state.occurrences = [] ∧
      state.next.Tells machine (chronicle.life machine).observer (.error .cancelled) := by
  obtain ⟨world, stack, control⟩ := state
  subst advances
  have custody : Custody world.ledger chronicle [.advancing machine] stack := order
  obtain ⟨found, claimed⟩ := custody.claimed machine rfl
  have present : world.activations.get? machine = some found := claimed.lookup
  have asked : found.cancelled = true := claimed.cancelled.trans cancelled
  have nothing : State.occurrences ⟨world, stack, .task (.advance machine)⟩ = [] := by
    simp [occurrences, World.performed, present, asked]
  refine ⟨nothing, tells_next order ?_ (by rw [nothing]; rfl)⟩
  simp [next, carryingOut, advancing, present, asked]

/-- What has the observer of a machine told, whose life was such when it was cancelled: what
happens in one state, the state where the observer is told of it, and the outcome. -/
inductive Closes (life : Life) (machine : Nat) (visited : State) : State → Outcome → Prop where
  /-- The resumption of the machine runs. -/
  | resumes : visited.control = .task (.resume machine) →
      Closes life machine visited (visited.walk 2).2 (.error .cancelled)
  /-- The step of the machine ends, and what it awaits is complete. -/
  | goesOn {resumeAt deferred : Nat} {callers : Stack} :
      visited.Ends machine (.returned (.await resumeAt deferred)) callers →
        visited.world.isComplete deferred = true →
          Closes life machine visited (visited.walk 2).2 (.error .cancelled)
  /-- The step that was in progress ends, and settles an outcome. -/
  | settles {position : Position} {ending : StepEnd} {callers : Stack} {outcome : Outcome} :
      life.step = some (position, none) → visited.Ends machine ending callers →
        ending.outcome? position = some outcome → Closes life machine visited visited.next outcome
  /-- The resumption of the machine is dropped. -/
  | abandons : visited.Abandons machine →
      Closes life machine visited visited.next (.error .shutdown)

/-- Whatever closes a cancelled machine has its observer told. -/
theorem Closes.tells {life : Life} {teller : State}
    (closes : Closes life machine visited teller outcome) (order : visited.InOrder chronicle)
    (dwindles : life.Dwindles (chronicle.life machine)) :
    teller.Tells machine life.observer outcome := by
  rw [← dwindles.observer]
  cases closes with
  | resumes resumes =>
      have later := next_inOrder order
      have nothing : visited.occurrences = [] := by
        simp [occurrences, resumes, World.performed]
      rw [nothing] at later
      exact (tells_of_advance later (advance_of_resume order resumes) dwindles.cancelled).2
  | goesOn ends complete =>
      have later := next_inOrder order
      obtain ⟨happens, -⟩ := called_of_ends order ends
      have advances : visited.next.control = .task (.advance machine) := by
        obtain ⟨world, stack, control⟩ := visited
        obtain ⟨rfl, reply, rfl, judged⟩ := ends
        have whole : world.isComplete _ = true := complete
        simp [next, returning, stepped, judged, whole]
      have tells := (tells_of_advance later advances
        (by simpa [happens, Chronicle.after] using dwindles.cancelled)).2
      change visited.next.next.Tells machine _ _
      simpa [happens, Chronicle.after] using tells
  | settles called ends settles =>
      obtain ⟨-, found, -, under⟩ := called_of_ends order ends
      cases called.symm.trans (dwindles.step _ under)
      exact (tells_of_ends order ends under settles).2
  | abandons abandons => exact (tells_of_abandons order abandons).2

end State

/-- A cancelled machine has its observer told only by what closes it. -/
theorem Passes.closes_of_told {teller : State} (passes : Passes past state)
    (happens : state.occurrences = [.cancelled machine])
    (idle : ∀ task, state.next.control ≠ .task task) (goesOn : state.next.GoesOn more teller)
    (told : .told machine outcome ∈ teller.occurrences) :
    ∃ visited ∈ more, State.Closes ((Chronicle.of (past.flatMap State.occurrences)).life machine)
      machine visited teller outcome := by
  have finishes : teller.control = .task (.finish machine outcome) :=
    State.drives_of_occurrences told rfl
  obtain ⟨earlier, before, rfl, comes, rfl⟩ := goesOn.exists_before finishes (idle _)
  have member : before ∈ earlier ++ [before] := by simp
  cases before.takesEffect.urges _ finishes rfl with
  | cancels advances _ _ =>
      obtain ⟨sooner, visited, rfl, _, rfl⟩ := comes.exists_before advances (idle _)
      refine ⟨visited, by simp, ?_⟩
      cases visited.takesEffect.urges _ advances rfl with
      | resumes resumes => exact .resumes resumes
      | goesOn ends complete => exact .goesOn ends complete
  | settles ends settles =>
      obtain ⟨-, found, lookup, under⟩ :=
        State.called_of_ends (passes.next.goesOn comes).reaches.inOrder ends
      refine ⟨before, member,
        .settles ((passes.dwindles happens comes).step _ under) ends ?_⟩
      simpa [lookup] using settles
  | abandons abandons => exact ⟨before, member, .abandons abandons⟩

/-- A machine that was suspended when it was cancelled would be called only when what it awaits
is complete. -/
theorem Passes.complete_of_advance {visited : State} {resumeAt deferred : Nat}
    (passes : Passes past state) (happens : state.occurrences = [.cancelled machine])
    (idle : ∀ task, state.next.control ≠ .task task) (goesOn : state.next.GoesOn more visited)
    (awaits : ((Chronicle.of (past.flatMap State.occurrences)).life machine).Awaits resumeAt
      deferred)
    (advances : visited.control = .task (.advance machine)) :
    visited.world.isComplete deferred = true := by
  obtain ⟨earlier, before, rfl, comes, rfl⟩ := goesOn.exists_before advances (idle _)
  have order := (passes.next.goesOn comes).reaches.inOrder
  obtain ⟨position, waits⟩ := (passes.dwindles happens comes).awaits resumeAt deferred awaits
  cases before.takesEffect.urges _ advances rfl with
  | goesOn ends _ =>
      obtain ⟨-, found, -, under⟩ := State.called_of_ends order ends
      cases waits.symm.trans under
  | resumes resumes =>
      have custody := order.custody (by simp [resumes])
      rw [resumes] at custody
      obtain ⟨found, suspended⟩ := custody.suspended machine rfl
      obtain ⟨again, lookup, ready⟩ := custody.rightful_head
      cases suspended.lookup.symm.trans lookup
      rcases suspended.waits with ⟨-, -, unstepped⟩ | ⟨_, awaited, pending, -, _, said⟩
      · cases waits.symm.trans unstepped
      · cases waits.symm.trans said
        rcases ready with ⟨absent, -⟩ | ⟨other, present, completed⟩
        · cases pending.symm.trans absent
        · cases pending.symm.trans present
          exact State.isComplete_of_completed ((State.onward_next order).completed completed)

/-! ## The run without the request -/

theorem Store.lt_size_of_get? {α : Type} {store : Store α} {number : Nat} {value : α}
    (lookup : store.get? number = some value) : number < store.size :=
  (Array.getElem?_eq_some_iff.mp lookup).1

/-- A machine that was started is there. -/
theorem Custody.lt_size_of_born {ledger : Ledger} {chronicle : Chronicle}
    {inHand : List Holding} {stack : Stack} (custody : Custody ledger chronicle inHand stack)
    (born : chronicle.life machine ≠ .unborn) : machine < ledger.activations.size := by
  have account := custody.machines machine
  cases lookup : ledger.activations.get? machine with
  | some found => exact Store.lt_size_of_get? lookup
  | none =>
      simp only [Ledger.MachineAccount, lookup] at account
      exact absurd account.2.2.2 born

/-- A machine that was cancelled is there. -/
theorem Custody.lt_size_of_cancelled {ledger : Ledger} {chronicle : Chronicle}
    {inHand : List Holding} {stack : Stack} (custody : Custody ledger chronicle inHand stack)
    (cancelled : (chronicle.life machine).cancelled = true) :
    machine < ledger.activations.size :=
  custody.lt_size_of_born fun unborn => by simp [unborn, Life.unborn] at cancelled

namespace State

/-- A state is another but for a machine that is marked as cancelled, and for the record of the
request. -/
def Resembles (machine : Nat) (state other : State) : Prop :=
  ∃ newer older, other.world.history = newer ++ older ∧
    state = { other with world := { other.world with
      activations := other.world.activations.modify machine ({ · with cancelled := true })
      history := newer ++ .record (.cancellationRequested machine) :: older } }

/-- A run goes on as it does from another state on: the states that it comes to resemble those
there, and the same happens in them. -/
def Mirrors (machine : Nat) (other : State) (more : List State) (later : State) : Prop :=
  ∃ others seen, other.GoesOn others seen ∧ List.Forall₂ (Resembles machine) more others ∧
    later.Resembles machine seen ∧
      more.flatMap State.occurrences = others.flatMap State.occurrences

/-- The marked machine is not about to be called, and is there. -/
def Spares (stain : Stain) (state : State) : Prop :=
  state.control ≠ .task (.advance stain.machine) ∧
    ((∀ reason, state.control ≠ .halted reason) → stain.machine < state.world.activations.size)

variable {stain : Stain} {others : List State} {seen : State}

/-- A mark on a machine that is there does not show before the machine is called. -/
theorem Spares.misses {cancelled : Bool} {older : List Event}
    (spares : state.Spares (.mark machine cancelled older)) :
    state.Misses (.mark machine cancelled older) where
  idle := fun _ => spares.1
  present := fun _ => spares.2
  harmless := fun _ _ _ several last => absurd last (Nat.not_le_of_lt several)
  receipt := fun _ _ => nofun
  handle := fun _ _ => nofun

/-- With the stain of a request, a state resembles what it is without. -/
theorem resembles_stained (state : State) (machine : Nat) (older : List Event) :
    (state.stained
        (.mark machine true (.record (.cancellationRequested machine) :: older))).Resembles
      machine (state.stained (.mark machine false older)) := by
  refine ⟨state.world.history, older, rfl, ?_⟩
  simp only [State.stained, World.stained, Stain.mark_machine, Stain.mark_receipt,
    Stain.mark_handle, Stain.mark_older, Stain.touch_true, Stain.touch_false, Store.modify_id,
    Table.without_none]

end State

/-- A call that has been answered, and has done nothing. -/
def State.answered (state : State) (rest : Reply → Program) : State :=
  ⟨state.world, .program rest :: state.stack, .reply .done⟩

namespace State

variable {handle : Name} {rest : Reply → Program}

/-- A request to cancel a machine leaves a stain on what would be without it. -/
theorem next_of_cancel (cancels : state.control = .program (.call (.cancel handle) rest))
    (named : state.world.handles.find? handle = some machine) :
    state.occurrences = [.cancelled machine] ∧
      state.next = ⟨{ state.world with
          activations := state.world.activations.modify machine ({ · with cancelled := true })
          history := .record (.cancellationRequested machine) :: state.world.history },
        .program rest :: state.stack, .reply .done⟩ := by
  obtain ⟨world, stack, control⟩ := state
  subst cancels
  have found : world.handles.find? handle = some machine := named
  constructor
  · simp [occurrences, World.requested, found]
  · simp [next, requesting, withNamed, found, replying, World.modifyActivation, World.record]

/-- As long as the marked machine is not called, the run goes on as it would without the
request. -/
theorem mirrors_of_cancel (cancels : state.control = .program (.call (.cancel handle) rest))
    (named : state.world.handles.find? handle = some machine)
    (goesOn : state.next.GoesOn more later)
    (spared : ∀ visited ∈ more, visited.control ≠ .task (.advance machine) ∧
      ((∀ reason, visited.control ≠ .halted reason) →
        machine < visited.world.activations.size)) :
    Mirrors machine (state.answered rest) more later := by
  have without : (state.answered rest) =
      State.stained ⟨{ state.world with history := [] }, .program rest :: state.stack,
        .reply .done⟩ (.mark machine false state.world.history) := by
    simp [answered, State.stained, World.stained, Stain.touch_false]
  have dirty : state.next =
      State.stained ⟨{ state.world with history := [] }, .program rest :: state.stack,
        .reply .done⟩ (.mark machine true
          (.record (.cancellationRequested machine) :: state.world.history)) := by
    rw [(next_of_cancel cancels named).2]
    simp [State.stained, World.stained, Stain.touch_true]
  rw [dirty] at goesOn
  rw [without]
  obtain ⟨others, seen, comes, rfl, rfl⟩ := goesOn.unstained fun visited member =>
    Spares.misses (by simpa [Spares] using spared _ member)
  have spare (older : List Event) (cancelled : Bool) (visited : State) (member : visited ∈ others) :
      visited.Misses (.mark machine cancelled older) :=
    Spares.misses (by simpa [Spares] using spared _ (List.mem_map_of_mem member))
  refine ⟨_, _, comes.stained (spare _ _), ?_, resembles_stained seen machine _, ?_⟩
  · rw [List.forall₂_map_left_iff, List.forall₂_map_right_iff, List.forall₂_same]
    exact fun visited _ => resembles_stained visited machine _
  · rw [flatMap_occurrences_stained (spare _ _), flatMap_occurrences_stained (spare _ _)]

end State

/-! ## Cancellation -/

/-- What becomes of a machine that is cancelled while it is unfinished, and whose life was such. -/
structure Stops (life : Life) (machine : Nat) (more : List State) (later : State) : Prop where
  /-- No step of it is called. -/
  uncalled : ∀ visited ∈ more, ∀ position, .called machine position ∉ visited.occurrences
  /-- A step of it that ends was in progress. -/
  inProgress : ∀ visited ∈ more, ∀ ending, .ended machine ending ∈ visited.occurrences →
    ∃ position, life.step = some (position, none)
  /-- Whatever closes it has its observer told. -/
  tells : ∀ visited ∈ more, ∀ teller outcome, State.Closes life machine visited teller outcome →
    teller.Tells machine life.observer outcome
  /-- Nothing else has its observer told. -/
  closes : ∀ teller ∈ more, ∀ outcome, .told machine outcome ∈ teller.occurrences →
    ∃ visited ∈ more, State.Closes life machine visited teller outcome
  /-- It is unfinished until its observer is told. -/
  finished : (∀ reason, later.control ≠ .halted reason) →
    (later.world.isFinished machine = true ↔
      ∃ teller ∈ more, ∃ outcome, .told machine outcome ∈ teller.occurrences)
  /-- It would not be called before what it awaits is complete. -/
  waits : ∀ resumeAt deferred, life.Awaits resumeAt deferred → ∀ visited ∈ more,
    visited.control = .task (.advance machine) → visited.world.isComplete deferred = true

/-- A machine that is cancelled while it is unfinished stops. -/
theorem Passes.stops (passes : Passes past state)
    (happens : state.occurrences = [.cancelled machine])
    (running : ∀ reason, state.control ≠ .halted reason)
    (idle : ∀ task, state.next.control ≠ .task task)
    (unfinished : state.world.isFinished machine = false)
    (goesOn : state.next.GoesOn more later) :
    Stops ((Chronicle.of (past.flatMap State.occurrences)).life machine) machine more later where
  uncalled := by
    intro visited member position called
    obtain ⟨first, rest, rfl, comes⟩ := goesOn.exists_of_mem member
    obtain ⟨advances, -⟩ : visited.Calls machine position :=
      State.drives_of_occurrences called rfl
    rw [(State.tells_of_advance (passes.next.goesOn comes).reaches.inOrder advances
      (passes.dwindles happens comes).cancelled).1] at called
    cases called
  inProgress := by
    intro visited member ending ended
    obtain ⟨first, rest, rfl, comes⟩ := goesOn.exists_of_mem member
    obtain ⟨callers, ends⟩ : ∃ callers, visited.Ends machine ending callers :=
      State.drives_of_occurrences ended rfl
    obtain ⟨-, found, -, under⟩ :=
      State.called_of_ends (passes.next.goesOn comes).reaches.inOrder ends
    exact ⟨found.position, (passes.dwindles happens comes).step _ under⟩
  tells := by
    intro visited member teller outcome closes
    obtain ⟨first, rest, rfl, comes⟩ := goesOn.exists_of_mem member
    exact closes.tells (passes.next.goesOn comes).reaches.inOrder (passes.dwindles happens comes)
  closes := by
    intro teller member outcome told
    obtain ⟨first, rest, rfl, comes⟩ := goesOn.exists_of_mem member
    obtain ⟨visited, before, closes⟩ := passes.closes_of_told happens idle comes told
    exact ⟨visited, List.mem_append_left _ before, closes⟩
  finished := by
    intro goes
    obtain ⟨same, allowed⟩ := passes.permits_of_cancelled happens goesOn
    have untold : (((Chronicle.of (past.flatMap State.occurrences)).after
        (.cancelled machine)).life machine).told = none := by
      refine Option.eq_none_iff_forall_ne_some.mpr fun outcome told => ?_
      have isOver := (passes.reaches.isFinished_iff running).mpr
        ⟨outcome, by simpa [Chronicle.after] using told⟩
      simp [unfinished] at isOver
    rw [(passes.next.goesOn goesOn).reaches.isFinished_iff goes, same,
      Chronicle.told_afterAll_iff allowed untold]
    simp only [List.mem_flatMap]
    constructor
    · rintro ⟨outcome, teller, member, told⟩
      exact ⟨teller, member, outcome, told⟩
    · rintro ⟨teller, member, outcome, told⟩
      exact ⟨outcome, teller, member, told⟩
  waits := by
    intro resumeAt deferred awaits visited member advances
    obtain ⟨first, rest, rfl, comes⟩ := goesOn.exists_of_mem member
    exact passes.complete_of_advance happens idle comes awaits advances

/-- A finished machine that is cancelled is not called. -/
theorem Passes.idle_of_finished {visited : State} (passes : Passes past state)
    (happens : state.occurrences = [.cancelled machine])
    (running : ∀ reason, state.control ≠ .halted reason)
    (finished : state.world.isFinished machine = true) (goesOn : state.next.GoesOn more visited) :
    visited.control ≠ .task (.advance machine) := by
  intro advances
  obtain ⟨outcome, told⟩ := (passes.reaches.isFinished_iff running).mp finished
  obtain ⟨same, allowed⟩ := passes.permits_of_cancelled happens goesOn
  have custody := (passes.next.goesOn goesOn).reaches.inOrder.custody (by simp [advances])
  rw [advances, same] at custody
  obtain ⟨found, claimed⟩ := custody.claimed machine rfl
  have still := @Chronicle.told_afterAll machine outcome _ _ allowed
    (by simpa [Chronicle.after] using told)
  cases claimed.untold.symm.trans still

/-- Cancellation.  A request to cancel a machine marks it and leaves a record, and nothing else.
A machine that is unfinished then stops: no step of it is called any more, and it is unfinished
until its observer is told.  That is of the cancellation when its resumption runs, or when the
step in progress ends and what it awaits is complete; of the outcome that the step in progress
settles; or of a shutdown when its resumption is dropped.  As long as the machine would not be
called, the run goes on as it would without the request; and so it does for ever when the
machine was finished. -/
theorem cancellation {handle : Name} {rest : Reply → Program} (passes : Passes past state)
    (cancels : state.control = .program (.call (.cancel handle) rest))
    (named : state.world.handles.find? handle = some machine)
    (goesOn : state.next.GoesOn more later) :
    state.next = ⟨{ state.world with
        activations := state.world.activations.modify machine ({ · with cancelled := true })
        history := .record (.cancellationRequested machine) :: state.world.history },
      .program rest :: state.stack, .reply .done⟩ ∧
    (state.world.isFinished machine = false →
      Stops ((Chronicle.of (past.flatMap State.occurrences)).life machine) machine more later) ∧
    ((∀ visited ∈ more, visited.control ≠ .task (.advance machine)) →
      State.Mirrors machine (state.answered rest) more later) ∧
    (state.world.isFinished machine = true →
      State.Mirrors machine (state.answered rest) more later) := by
  obtain ⟨happens, marked⟩ := State.next_of_cancel cancels named
  have running (reason : Halt) : state.control ≠ .halted reason := by simp [cancels]
  have alike (idle : ∀ visited ∈ more, visited.control ≠ .task (.advance machine)) :
      State.Mirrors machine (state.answered rest) more later := by
    refine State.mirrors_of_cancel cancels named goesOn fun visited member =>
      ⟨idle visited member, fun goes => ?_⟩
    obtain ⟨first, others, rfl, comes⟩ := goesOn.exists_of_mem member
    exact ((passes.next.goesOn comes).reaches.inOrder.custody goes).lt_size_of_cancelled
      (passes.dwindles happens comes).cancelled
  refine ⟨marked, fun unfinished => ?_, alike, fun finished => alike fun visited member => ?_⟩
  · exact passes.stops happens running (by simp [marked]) unfinished goesOn
  · obtain ⟨first, others, rfl, comes⟩ := goesOn.exists_of_mem member
    exact passes.idle_of_finished happens running finished comes

/-- Start a machine that is suspended on a deferred, cancel it, complete the deferred, and cancel
the machine again. -/
def Program.cancelling : Program :=
  .call (.pending (.shared "result") false (.shared "writer")) fun _ =>
    .call (.start (.shared "machine")
      (.custom fun _ => .call (.suspend (.shared "result") 0) .ret) .inline
      fun _ => .ret .done) fun _ =>
        .call (.cancel (.shared "machine")) fun _ =>
          .call (.complete (.shared "writer") (.ok .null)) fun _ =>
            .call (.cancel (.shared "machine")) .ret

/-- The machine is suspended, and about to be cancelled. -/
def State.cancelling : State := ((State.ofProgram .initial .cancelling).walk 12).2

/-- The machine is finished, and about to be cancelled again. -/
def State.recancelling : State := ((State.ofProgram .initial .cancelling).walk 29).2

/-- Whether a machine is about to be called. -/
def State.advances (state : State) : Bool :=
  match state.control with
  | .task (.advance _) => true
  | _ => false

/-- The deferred is completed as it would be if the machine had not been cancelled; the machine is
told of its cancellation when its resumption runs, and to cancel it again makes no difference. -/
theorem cancellation_cancelling :
    (∃ rest, State.Mirrors 0 (State.cancelling.answered rest) (State.cancelling.next.visits 8)
      (State.cancelling.next.walk 8).2) ∧
    (∃ observer, ((State.cancelling.next.walk 7).2.walk 2).2.Tells 0 observer
      (.error .cancelled)) ∧
    ∃ rest, State.Mirrors 0 (State.recancelling.answered rest) (State.recancelling.next.visits 8)
      (State.recancelling.next.walk 8).2 := by
  obtain ⟨-, stops, mirrors, -⟩ := @cancellation State.cancelling _ _ _ 0 _ _
    ((Passes.begin .cancelling).walk 12) rfl rfl (State.goesOn_walk _ 8)
  obtain ⟨-, -, -, again⟩ := @cancellation State.recancelling _ _ _ 0 _ _
    ((Passes.begin .cancelling).walk 29) rfl rfl (State.goesOn_walk _ 8)
  have tells := (stops rfl).tells _ (State.walk_mem_visits (by decide : 7 < 8)) _ _ (.resumes rfl)
  refine ⟨⟨_, mirrors fun visited member advances => ?_⟩, ⟨_, tells⟩, ⟨_, again rfl⟩⟩
  · have idle : (State.cancelling.next.visits 8).all (fun visited => !visited.advances) = true := by
      decide +kernel
    have spared := List.all_eq_true.mp idle visited member
    simp [State.advances, advances] at spared

end Stepwise
