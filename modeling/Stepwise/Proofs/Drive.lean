import Stepwise.Proofs.History
import Stepwise.Proofs.Pools.Dispatch

/-!
# Where occurrences come from

What drives a machine, the call and the end of a step, the loss of a resumption, the call
of its observer, each comes from one kind of small step only, and so do the dispatch, the
beginning, the end and the loss of a work.
-/

namespace Stepwise

/-- Whether an occurrence belongs to the driving of a machine: the call or the end of a
step, the loss of a resumption, or the call of an observer; or is the end of a work. -/
def Occurrence.drives : Occurrence → Bool
  | .called _ _ => true
  | .ended _ _ => true
  | .abandoned _ => true
  | .told _ _ => true
  | .worked _ _ => true
  | _ => false

/-- Whether an occurrence is the start or the cancellation of a machine, or something that
a hook is shown. -/
def Occurrence.isAside : Occurrence → Bool
  | .started _ _ _ => true
  | .cancelled _ => true
  | .shown _ _ _ => true
  | .announced _ _ => true
  | .interrupted _ => true
  | _ => false

namespace World

variable {world : World} {occurrence : Occurrence}

theorem drives_of_dispatch {target : Target} {work : Program}
    {launcher : Option (Place × Nat)}
    (member : occurrence ∈ world.dispatch target work launcher) :
    occurrence.drives = false := by
  unfold dispatch at member
  split at member
  · split at member
    · rcases List.mem_cons.mp member with rfl | began
      · rfl
      · rw [List.mem_singleton.mp began]
        rfl
    · rw [List.mem_singleton.mp member]
      rfl
  · cases member

theorem isAside_of_takes {deferred : Nat} {shows : Value → Occurrence}
    (aside : ∀ value, (shows value).isAside = true)
    (member : occurrence ∈ world.takes deferred shows) : occurrence.isAside = true := by
  unfold takes at member
  split at member
  · rw [List.mem_singleton.mp member]
    exact aside _
  · cases member

end World

namespace State

variable {world : World} {stack : Stack} {state : State}

/-- The step of a machine ends, on top of those who called it. -/
def Ends (state : State) (machine : Nat) (ending : StepEnd) (callers : Stack) : Prop :=
  state.stack = .stepping machine :: callers ∧
    match ending with
    | .returned result =>
        ∃ reply, state.control = .reply reply ∧ state.world.judge machine reply = result
    | .panicked payload => state.control = .unwind payload

/-- The step of a machine is called at its position. -/
def Calls (state : State) (machine : Nat) (position : Position) : Prop :=
  state.control = .task (.advance machine) ∧
    ∃ found, state.world.activations.get? machine = some found ∧ found.cancelled = false ∧
      found.position = position

/-- A resumption is dropped before it ran. -/
def Abandons (state : State) (machine : Nat) : Prop :=
  ∃ continuation, state.control = .task (.discard (.continuation continuation)) ∧
    continuation.assets = [.resumption machine]

/-- A work that is being run ends with a result. -/
def Concludes (state : State) (deferred : Nat) (result : Except Failure Value) : Prop :=
  (∃ callers, state.stack = .working deferred :: callers) ∧
    ((∃ reply, state.control = .reply reply ∧ reply.asWork = result) ∨
      ∃ payload, state.control = .unwind payload ∧
        .error (.panicked payload.message) = result)

/-- Where an occurrence that drives a machine, or the end of a work, comes from. -/
def Drives (state : State) : Occurrence → Prop
  | .called machine position => state.Calls machine position
  | .told machine outcome => state.control = .task (.finish machine outcome)
  | .ended machine ending => ∃ callers, state.Ends machine ending callers
  | .abandoned machine => state.Abandons machine
  | .worked deferred result => state.Concludes deferred result
  | _ => False

/-- Where an occurrence comes from. -/
inductive Shows (state : State) : Occurrence → Prop where
  | dispatches {target : Target} {work : Program} {launcher : Option (Place × Nat)}
      {occurrence : Occurrence} :
      state.Dispatching target work launcher →
        occurrence ∈ state.world.dispatch target work launcher → Shows state occurrence
  | drives {occurrence : Occurrence} : state.Drives occurrence → Shows state occurrence
  | begins {deferred : Nat} {work : Program} :
      state.control = .task (.run (.job deferred work)) → Shows state (.began deferred work)
  | discards {deferred : Nat} {work : Program} :
      state.control = .task (.discard (.continuation (.job deferred work))) →
        Shows state (.discarded deferred)
  | aside {occurrence : Occurrence} : occurrence.isAside = true → Shows state occurrence

variable {occurrence : Occurrence}

/-- What happens where a pipeline launches a stage is the dispatch of its work. -/
theorem shows_of_launch {place : Place} {pipeline : Pipeline} {number : Nat} {input : Value}
    (launches : ∀ target work, pipeline.launch? number input = some (target, work) →
      state.Dispatching target work (some (place, number)))
    (member : occurrence ∈ state.world.launch place pipeline number input) :
    state.Shows occurrence := by
  cases launched : pipeline.launch? number input with
  | none =>
      have used : pipeline.stage? number = none := by simpa [Pipeline.launch?] using launched
      simp [World.launch, used] at member
  | some pair =>
      obtain ⟨target, work⟩ := pair
      rw [World.launch_of_launch? launched] at member
      exact .dispatches (launches target work launched) member

theorem shows_of_stepped {place : Place} {position : Position}
    (member : occurrence ∈ world.stepped place position) :
    Shows ⟨world, stack, .task (.step place position)⟩ occurrence := by
  unfold World.stepped at member
  split at member
  · next pipeline body =>
      split at member
      · next seed unused =>
          exact shows_of_launch (fun _ _ launched => .first body unused launched) member
      · cases member
  · split at member
    · exact .aside (World.isAside_of_takes (fun _ => rfl) member)
    · cases member
  · rw [List.mem_singleton.mp member]
    exact .aside rfl
  · split at member
    · exact .aside (World.isAside_of_takes (fun _ => rfl) member)
    · cases member
  · split at member
    · exact .aside (World.isAside_of_takes (fun _ => rfl) member)
    · cases member
  · cases member

theorem shows_of_requested {request : Request} {rest : Reply → Program}
    (member : occurrence ∈ world.requested request) :
    Shows ⟨world, stack, .program (.call request rest)⟩ occurrence := by
  cases request with
  | dispatch _ _ _ _ _ => exact .dispatches .request member
  | start _ _ _ _ | startAwaitable _ _ _ _ _ =>
      rw [List.mem_singleton.mp member]
      exact .aside rfl
  | run _ _ _ | cancel _ =>
      simp only [World.requested] at member
      split at member
      · rw [List.mem_singleton.mp member]
        exact .aside rfl
      · cases member
  | _ => cases member

theorem shows_of_performed {task : Task} (member : occurrence ∈ world.performed task) :
    Shows ⟨world, stack, .task task⟩ occurrence := by
  cases task with
  | publish _ _ | schedule _ _ | resume _ => cases member
  | step _ _ => exact shows_of_stepped member
  | run continuation =>
      cases continuation with
      | job _ _ =>
          rw [List.mem_singleton.mp member]
          exact .begins rfl
      | _ => cases member
  | discard owned =>
      cases owned with
      | writer _ | activation _ | loop _ | runtime _ => cases member
      | continuation dropped =>
          cases dropped with
          | callback _ | signal _ => cases member
          | job _ _ =>
              rw [List.mem_singleton.mp member]
              exact .discards rfl
          | handOver _ machine | resumption machine =>
              rw [List.mem_singleton.mp member]
              exact .drives ⟨_, rfl, rfl⟩
  | advance machine =>
      simp only [World.performed] at member
      split at member
      · next found lookup =>
          split at member
          · cases member
          · next uncancelled =>
              rw [List.mem_singleton.mp member]
              exact .drives ⟨rfl, found, lookup, by simpa using uncancelled, rfl⟩
      · cases member
  | finish machine outcome =>
      simp only [World.performed] at member
      split at member
      · split at member
        · rw [List.mem_singleton.mp member]
          exact .drives rfl
        · cases member
      · cases member

theorem shows_of_returned {reply : Reply} {frame : Frame}
    (member : occurrence ∈ world.returned reply frame) :
    Shows ⟨world, frame :: stack, .reply reply⟩ occurrence := by
  cases frame with
  | stepping machine =>
      rw [List.mem_singleton.mp member]
      exact .drives ⟨stack, rfl, reply, rfl, rfl⟩
  | working deferred =>
      rw [List.mem_singleton.mp member]
      exact .drives ⟨⟨stack, rfl⟩, .inl ⟨reply, rfl, rfl⟩⟩
  | inspected _ _ _ =>
      simp only [World.returned] at member
      split at member
      · next pipeline body =>
          split at member
          · next following found =>
              exact shows_of_launch (fun _ _ launched => .following body found launched) member
          · cases member
      · cases member
  | announced _ announcement =>
      simp only [World.returned] at member
      split at member
      · next demo body =>
          cases announcement with
          | started => exact .dispatches (.cube body) member
          | cube _ => exact .dispatches (.root body) member
          | root _ =>
              rw [List.mem_singleton.mp member]
              exact .aside rfl
          | finished => cases member
      · cases member
  | _ => cases member

theorem shows_of_unwound {payload : Payload} {frame : Frame}
    (member : occurrence ∈ World.unwound payload frame) :
    Shows ⟨world, frame :: stack, .unwind payload⟩ occurrence := by
  cases frame with
  | stepping machine =>
      rw [List.mem_singleton.mp member]
      exact .drives ⟨stack, rfl, rfl⟩
  | working deferred =>
      rw [List.mem_singleton.mp member]
      exact .drives ⟨⟨stack, rfl⟩, .inr ⟨payload, rfl, rfl⟩⟩
  | inspected _ _ _ | announced _ _ =>
      rw [List.mem_singleton.mp member]
      exact .aside rfl
  | _ => cases member

theorem shows_of_mem (member : occurrence ∈ state.occurrences) : state.Shows occurrence := by
  obtain ⟨world, stack, control⟩ := state
  cases control with
  | halted _ => cases member
  | task task => exact shows_of_performed member
  | program program =>
      cases program with
      | ret _ | panic _ => cases member
      | call request rest => exact shows_of_requested member
  | reply reply =>
      cases stack with
      | nil => cases member
      | cons frame stack => exact shows_of_returned member
  | unwind payload =>
      cases stack with
      | nil => cases member
      | cons frame stack => exact shows_of_unwound member

/-- A machine is driven by the tasks that call its steps and tell its observer, by the end
of a step, and by the loss of a resumption, and by nothing else; a work ends where it is
run. -/
theorem drives_of_occurrences (member : occurrence ∈ state.occurrences)
    (drives : occurrence.drives = true) : state.Drives occurrence := by
  cases shows_of_mem member with
  | dispatches _ dispatched => simp [World.drives_of_dispatch dispatched] at drives
  | drives comes => exact comes
  | begins _ | discards _ => cases drives
  | aside other =>
      cases occurrence with
      | started _ _ _ | cancelled _ | shown _ _ _ | announced _ _ | interrupted _ => cases drives
      | _ => cases other

/-- What a small step is seen to dispatch, it dispatches on the next deferred. -/
theorem dispatching_of_mem {deferred : Nat} {work : Program} {launcher : Option (Place × Nat)}
    (member : .dispatched deferred work launcher ∈ state.occurrences) :
    deferred = state.world.deferreds.size ∧
      ∃ target, state.Dispatching target work launcher ∧ state.world.reaches target = true := by
  cases shows_of_mem member with
  | dispatches dispatching dispatched =>
      obtain ⟨newest, rfl, rfl, reaches⟩ := World.of_mem_dispatch dispatched
      exact ⟨newest, _, dispatching, reaches⟩
  | drives none => exact none.elim
  | aside other => cases other

/-- A work is lost where its job is dropped, and nowhere else. -/
theorem control_of_discarded {deferred : Nat} (member : .discarded deferred ∈ state.occurrences) :
    ∃ work, state.control = .task (.discard (.continuation (.job deferred work))) := by
  cases shows_of_mem member with
  | dispatches _ dispatched => exact absurd dispatched World.discarded_notMem_dispatch
  | drives none => exact none.elim
  | discards drops => exact ⟨_, drops⟩
  | aside other => cases other

/-! ## The beginning of a work -/

/-- A work has just begun. -/
def HasBegun (state : State) (deferred : Nat) (work : Program) : Prop :=
  (∃ callers, state.stack = .working deferred :: callers) ∧ state.control = .program work

variable {later : World} {deferred : Nat} {program : Program}

theorem hasBegun_of_dispatch {target : Target} {work : Program} {infallible : Bool}
    {launcher : Option (Place × Nat)} {waiting : Nat → Stack}
    (member : .began deferred program ∈ world.dispatch target work launcher)
    (same : later.deferreds.size = world.deferreds.size) :
    (dispatching later stack target infallible work waiting).HasBegun deferred program := by
  unfold World.dispatch at member
  split at member
  · rcases List.mem_cons.mp member with other | began
    · cases other
    · split at began
      · next immediate =>
          cases List.mem_singleton.mp began
          subst immediate
          rw [← same]
          exact ⟨⟨_, rfl⟩, rfl⟩
      · cases began
  · cases member

/-- Work that begins as soon as it is dispatched is in control next. -/
theorem Dispatching.hasBegun {target : Target} {work : Program}
    {launcher : Option (Place × Nat)} (dispatching : state.Dispatching target work launcher)
    (member : .began deferred program ∈ state.world.dispatch target work launcher) :
    state.next.HasBegun deferred program := by
  cases dispatching with
  | request => exact hasBegun_of_dispatch member rfl
  | @first world stack place pipeline seed target work body unused launches =>
      have begun : ({ pipeline with seed := none } : Pipeline).launch? 0 seed =
          some (target, work) := launches
      simp only [State.next, carryingOut, runningStep, body, steppingPipeline, unused,
        nonempty_of_launch? launches, Bool.false_eq_true, if_false]
      rw [launchingStage_of_launch? begun]
      exact hasBegun_of_dispatch member (by simp)
  | following body found launches =>
      simp only [State.next, returning, inspectedValue, body, found]
      rw [launchingStage_of_launch? launches]
      exact hasBegun_of_dispatch member (by simp)
  | cube body | root body =>
      simp only [State.next, returning, announcedProgress, body]
      exact hasBegun_of_dispatch member (by simp)

/-- Where a work begins, its program is in control next, right above its frame. -/
theorem hasBegun_next (member : .began deferred program ∈ state.occurrences) :
    state.next.HasBegun deferred program := by
  cases shows_of_mem member with
  | dispatches dispatching began => exact dispatching.hasBegun began
  | drives none => exact none.elim
  | begins runs =>
      obtain ⟨world, stack, control⟩ := state
      subst runs
      exact ⟨⟨_, rfl⟩, rfl⟩
  | aside other => cases other

end State

end Stepwise
