import Stepwise.Proofs.Occurrence

/-!
# Where work is sent

A small step dispatches one work at most: for a request of user code, or because a
library machine launches its next work.  The target says which pool the work is queued
on, if it is queued at all; free dispatch goes to the pool of the current context.
-/

namespace Stepwise

/-- What a pipeline launches at a number, and where. -/
def Pipeline.launch? (pipeline : Pipeline) (number : Nat) (input : Value) :
    Option (Target × Program) :=
  (pipeline.stage? number).map fun stage =>
    (pipeline.dispatcher.target pipeline.dispatched, stage input)

/-- What the demonstration launches when it has announced something, and where. -/
def CubeRoot.launch? (demo : CubeRoot) : Announcement → Option (Target × Program)
  | .started => some (demo.dispatcher.target demo.dispatched, demo.cube demo.input)
  | .cube _ => some (demo.dispatcher.target demo.dispatched, demo.root demo.cubed)
  | _ => none

/-- The pool that work sent to a target is queued on, if there is one. -/
def World.addressee (world : World) : Target → Option Nat
  | .immediate => none
  | .pool pool => some pool
  | .context => world.thread.context

/-- The work that the small step out of a state dispatches, and its target. -/
def State.dispatch? (state : State) : Option (Target × Program) :=
  match state.control, state.stack with
  | .program (.call (.dispatch _ _ _ target work) _), _ => some (target, work)
  | .task (.step place .notStarted), _ =>
      match state.world.body? place with
      | some (.pipeline pipeline) => pipeline.seed.bind (pipeline.launch? 0)
      | _ => none
  | .reply _, .inspected place number value :: _ =>
      match state.world.body? place with
      | some (.pipeline pipeline) =>
          (pipeline.following? number).bind fun next => pipeline.launch? next value
      | _ => none
  | .reply _, .announced place announcement :: _ =>
      match state.world.body? place with
      | some (.cubeRoot demo) => demo.launch? announcement
      | _ => none
  | _, _ => none

/-- The ways in which a small step dispatches work: user code asks for it, a pipeline
launches its first stage or the one that follows, and the demonstration one of its two
works. -/
inductive State.Dispatching : State → Target → Program → Option (Place × Nat) → Prop where
  | request {world : World} {stack : Stack} {receipt : Name} {raw infallible : Bool}
      {target : Target} {work : Program} {rest : Reply → Program} :
      Dispatching
        ⟨world, stack, .program (.call (.dispatch receipt raw infallible target work) rest)⟩
        target work none
  | first {world : World} {stack : Stack} {place : Place} {pipeline : Pipeline}
      {seed : Value} {target : Target} {work : Program} :
      world.body? place = some (.pipeline pipeline) → pipeline.seed = some seed →
        pipeline.launch? 0 seed = some (target, work) →
          Dispatching ⟨world, stack, .task (.step place .notStarted)⟩ target work
            (some (place, 0))
  | following {world : World} {stack : Stack} {place : Place} {pipeline : Pipeline}
      {number next : Nat} {value : Value} {reply : Reply} {target : Target} {work : Program} :
      world.body? place = some (.pipeline pipeline) → pipeline.following? number = some next →
        pipeline.launch? next value = some (target, work) →
          Dispatching ⟨world, .inspected place number value :: stack, .reply reply⟩ target work
            (some (place, next))
  | cube {world : World} {stack : Stack} {place : Place} {demo : CubeRoot} {reply : Reply} :
      world.body? place = some (.cubeRoot demo) →
        Dispatching ⟨world, .announced place .started :: stack, .reply reply⟩
          (demo.dispatcher.target demo.dispatched) (demo.cube demo.input) (some (place, 0))
  | root {world : World} {stack : Stack} {place : Place} {demo : CubeRoot} {cubed : Float}
      {reply : Reply} :
      world.body? place = some (.cubeRoot demo) →
        Dispatching ⟨world, .announced place (.cube cubed) :: stack, .reply reply⟩
          (demo.dispatcher.target demo.dispatched) (demo.root demo.cubed) (some (place, 1))

/-- The small step out of a state dispatches work on a deferred, to be queued on a
pool. -/
def State.Sends (state : State) (pool deferred : Nat) : Prop :=
  deferred = state.world.deferreds.size ∧
    ∃ target work, state.dispatch? = some (target, work) ∧
      state.world.addressee target = some pool

namespace World

variable {world : World} {deferred : Nat} {work : Program}
  {launcher : Option (Place × Nat)} {occurrence : Occurrence}

/-- What a dispatch is about, read off what happens. -/
theorem of_mem_dispatch {target : Target} {program : Program}
    {launched : Option (Place × Nat)}
    (member : .dispatched deferred work launcher ∈ world.dispatch target program launched) :
    deferred = world.deferreds.size ∧ work = program ∧ launcher = launched ∧
      world.reaches target = true := by
  unfold dispatch at member
  split at member
  · next reaches =>
      rcases List.mem_cons.mp member with same | began
      · cases same
        exact ⟨rfl, rfl, rfl, reaches⟩
      · split at began
        · cases List.mem_singleton.mp began
        · cases began
  · cases member

theorem discarded_notMem_dispatch {target : Target} :
    .discarded deferred ∉ world.dispatch target work launcher := by
  unfold dispatch
  split
  · split <;> simp
  · simp

theorem launch_of_launch? {place : Place} {pipeline : Pipeline} {number : Nat} {input : Value}
    {target : Target} (launches : pipeline.launch? number input = some (target, work)) :
    world.launch place pipeline number input =
      world.dispatch target work (some (place, number)) := by
  simp only [Pipeline.launch?, Option.map_eq_some_iff, Prod.mk.injEq] at launches
  obtain ⟨stage, found, rfl, rfl⟩ := launches
  simp only [launch, found]

end World

namespace State

variable {state : State} {deferred pool : Nat} {work : Program}
  {launcher : Option (Place × Nat)}

theorem launchingStage_of_launch? {world : World} {stack : Stack} {place : Place}
    {pipeline : Pipeline} {number : Nat} {input : Value} {target : Target}
    (launches : pipeline.launch? number input = some (target, work)) :
    launchingStage world stack place pipeline number input =
      dispatching (world.modifyBody place fun _ => .pipeline (pipeline.useStage number)) stack
        target false work fun deferred => .launched place number deferred :: stack := by
  simp only [Pipeline.launch?, Option.map_eq_some_iff, Prod.mk.injEq] at launches
  obtain ⟨stage, found, rfl, rfl⟩ := launches
  simp only [launchingStage, found]

/-- A pipeline that has a stage to launch is not empty. -/
theorem nonempty_of_launch? {pipeline : Pipeline} {number : Nat} {input : Value} {target : Target}
    (launches : pipeline.launch? number input = some (target, work)) :
    pipeline.stages.isEmpty = false := by
  cases stages : pipeline.stages with
  | nil => simp [Pipeline.launch?, Pipeline.stage?, stages] at launches
  | cons _ _ => rfl

theorem dispatching_of_dispatch? {target : Target}
    (asks : state.dispatch? = some (target, work)) :
    ∃ launcher, state.Dispatching target work launcher := by
  obtain ⟨world, stack, control⟩ := state
  cases control with
  | halted _ | unwind _ => cases asks
  | program program =>
      cases program with
      | ret _ | panic _ => cases asks
      | call request rest =>
          cases request with
          | dispatch _ _ _ _ _ =>
              cases asks
              exact ⟨none, .request⟩
          | _ => cases asks
  | task task =>
      cases task with
      | step place position =>
          cases position with
          | notStarted =>
              simp only [dispatch?] at asks
              split at asks
              · next pipeline body =>
                  obtain ⟨seed, unused, launches⟩ := Option.bind_eq_some_iff.mp asks
                  exact ⟨some (place, 0), .first body unused launches⟩
              · cases asks
          | _ => cases asks
      | _ => cases asks
  | reply reply =>
      cases stack with
      | nil => cases asks
      | cons frame rest =>
          cases frame with
          | inspected place number value =>
              simp only [dispatch?] at asks
              split at asks
              · next pipeline body =>
                  obtain ⟨following, found, launches⟩ := Option.bind_eq_some_iff.mp asks
                  exact ⟨some (place, following), .following body found launches⟩
              · cases asks
          | announced place announcement =>
              simp only [dispatch?] at asks
              split at asks
              · next demo body =>
                  cases announcement with
                  | started =>
                      cases asks
                      exact ⟨some (place, 0), .cube body⟩
                  | cube _ =>
                      cases asks
                      exact ⟨some (place, 1), .root body⟩
                  | root _ | finished => cases asks
              · cases asks
          | _ => cases asks

namespace Dispatching

variable {target : Target}

/-- What a small step dispatches is a function of the state. -/
theorem dispatch? (dispatching : state.Dispatching target work launcher) :
    state.dispatch? = some (target, work) := by
  cases dispatching with
  | request => rfl
  | first body unused launches => simp [State.dispatch?, body, unused, launches]
  | following body found launches => simp [State.dispatch?, body, found, launches]
  | cube body | root body => simp [State.dispatch?, body, CubeRoot.launch?]

/-- What happens where work is dispatched is the dispatch alone. -/
theorem occurrences (dispatching : state.Dispatching target work launcher) :
    state.occurrences = state.world.dispatch target work launcher := by
  cases dispatching with
  | request => rfl
  | first body unused launches =>
      simp only [State.occurrences, World.performed, World.stepped, body, unused]
      exact World.launch_of_launch? launches
  | following body found launches =>
      simp only [State.occurrences, World.returned, body, found]
      exact World.launch_of_launch? launches
  | cube body | root body =>
      simp only [State.occurrences, World.returned, body]
      rfl

end Dispatching

/-- What is sent to a pool is seen to be dispatched. -/
theorem Sends.occurrences (sends : state.Sends pool deferred) :
    ∃ work launcher, state.occurrences = [.dispatched deferred work launcher] := by
  obtain ⟨rfl, target, work, asks, addressed⟩ := sends
  obtain ⟨launcher, dispatching⟩ := dispatching_of_dispatch? asks
  refine ⟨work, launcher, dispatching.occurrences.trans ?_⟩
  -- Work with an addressee reaches it, and does not run at once.
  cases target with
  | immediate => cases addressed
  | pool _ => rfl
  | context =>
      have known : state.world.thread.context = some pool := addressed
      simp [World.dispatch, World.reaches, known]

end State

end Stepwise
