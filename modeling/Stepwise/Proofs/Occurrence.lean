import Stepwise.Execution

/-!
# What happens in a run

The history in the world holds what user code and the library chose to write
down.  What a run is judged by is read off the execution itself: each small step
comes with the occurrences it stands for, such as the call of a machine's step,
or a work that begins.
-/

namespace Stepwise

/-- How the call of a machine's step ended. -/
inductive StepEnd where
  | returned (result : StepResult)
  | panicked (payload : Payload)

/-- Something that happens to a started machine or to dispatched work. -/
inductive Occurrence where
  | started (machine : Nat) (form : Machine) (observer : Observer)
  /-- The driver calls the step of a machine at a position. -/
  | called (machine : Nat) (position : Position)
  /-- The step that was called has ended. -/
  | ended (machine : Nat) (ending : StepEnd)
  /-- Cancellation was requested. -/
  | cancelled (machine : Nat)
  /-- The resumption of a machine was dropped before it ran. -/
  | abandoned (machine : Nat)
  /-- The observer of a machine is told its outcome. -/
  | told (machine : Nat) (outcome : Outcome)
  /-- Work was dispatched, by a request, or by the step of a library machine that
  is about to await it at a suspension. -/
  | dispatched (deferred : Nat) (work : Program) (launcher : Option (Place × Nat))
  | began (deferred : Nat) (work : Program)
  | worked (deferred : Nat) (result : Except Failure Value)
  /-- Work was dropped before it began. -/
  | discarded (deferred : Nat)
  /-- The hook of a pipeline is shown the value of a stage. -/
  | shown (place : Place) (number : Nat) (value : Value)
  /-- The hook of the demonstration hears an announcement. -/
  | announced (place : Place) (announcement : Announcement)
  /-- The hook of a library machine panicked. -/
  | interrupted (place : Place)

namespace World

/-- Whether work sent to a target reaches it: free dispatch needs a context. -/
def reaches (world : World) : Target → Bool
  | .context => world.thread.context.isSome
  | _ => true

/-- Work is dispatched on the next deferred; what runs at once begins at once. -/
def dispatch (world : World) (target : Target) (work : Program)
    (launcher : Option (Place × Nat)) : List Occurrence :=
  if world.reaches target then
    .dispatched world.deferreds.size work launcher ::
      (if target = .immediate then [.began world.deferreds.size work] else [])
  else []

/-- A pipeline launches a stage, unless it was used. -/
def launch (world : World) (place : Place) (pipeline : Pipeline) (number : Nat)
    (input : Value) : List Occurrence :=
  match pipeline.stage? number with
  | none => []
  | some stage =>
      world.dispatch (pipeline.dispatcher.target pipeline.dispatched) (stage input)
        (some (place, number))

/-- The demonstration launches one of its works. -/
def launchWork (world : World) (place : Place) (demo : CubeRoot) (number : Nat)
    (work : Program) : List Occurrence :=
  world.dispatch (demo.dispatcher.target demo.dispatched) work (some (place, number))

/-- What happens when a step that awaited a deferred takes its value. -/
def takes (world : World) (deferred : Nat) (occurrence : Value → Occurrence) :
    List Occurrence :=
  match (world.retrieve deferred).2 with
  | .ok value => [occurrence value]
  | .error _ => []

/-- What happens when the step of a body is run. -/
def stepped (world : World) (place : Place) (position : Position) : List Occurrence :=
  match world.body? place, position with
  | some (.pipeline pipeline), .notStarted =>
      match pipeline.seed with
      | some seed => world.launch place pipeline 0 seed
      | none => []
  | some (.pipeline pipeline), .suspension number =>
      match pipeline.awaited with
      | some deferred => world.takes deferred fun value => .shown place number value
      | none => []
  | some (.cubeRoot _), .notStarted => [.announced place .started]
  | some (.cubeRoot demo), .suspension 0 =>
      match demo.awaitedCube with
      | some deferred =>
          world.takes deferred fun value => .announced place (.cube (CubeRoot.realOf value))
      | none => []
  | some (.cubeRoot demo), .suspension 1 =>
      match demo.awaitedRoot with
      | some deferred =>
          world.takes deferred fun value => .announced place (.root (CubeRoot.realOf value))
      | none => []
  | _, _ => []

/-- What happens when a request is carried out. -/
def requested (world : World) : Request → List Occurrence
  | .start _ machine _ observer =>
      [.started world.activations.size machine (.callback observer)]
  | .startAwaitable _ machine _ _ _ =>
      [.started world.activations.size machine (.writer world.deferreds.size)]
  | .run _ runtime machine =>
      match world.runtimes.find? runtime with
      | some _ =>
          [.started world.activations.size machine (.writer world.deferreds.size)]
      | none => []
  | .cancel handle =>
      match world.handles.find? handle with
      | some machine => [.cancelled machine]
      | none => []
  | .dispatch _ _ _ target work => world.dispatch target work none
  | _ => []

/-- What happens when something is dropped. -/
def discarded : Owned → List Occurrence
  | .continuation (.handOver _ machine) => [.abandoned machine]
  | .continuation (.resumption machine) => [.abandoned machine]
  | .continuation (.job deferred _) => [.discarded deferred]
  | _ => []

/-- What happens when a task is carried out. -/
def performed (world : World) : Task → List Occurrence
  | .run (.job deferred work) => [.began deferred work]
  | .discard owned => discarded owned
  | .advance machine =>
      match world.activations.get? machine with
      | some found => if found.cancelled then [] else [.called machine found.position]
      | none => []
  | .step place position => world.stepped place position
  | .finish machine outcome =>
      match world.activations.get? machine with
      | some found => if found.observer.isSome then [.told machine outcome] else []
      | none => []
  | _ => []

/-- What happens when a frame gets its reply. -/
def returned (world : World) (reply : Reply) : Frame → List Occurrence
  | .stepping machine => [.ended machine (.returned (world.judge machine reply))]
  | .working deferred => [.worked deferred reply.asWork]
  | .inspected place number value =>
      match world.body? place with
      | some (.pipeline pipeline) =>
          match pipeline.following? number with
          | some next => world.launch place pipeline next value
          | none => []
      | _ => []
  | .announced place announcement =>
      match world.body? place with
      | some (.cubeRoot demo) =>
          match announcement with
          | .started => world.launchWork place demo 0 (demo.cube demo.input)
          | .cube _ => world.launchWork place demo 1 (demo.root demo.cubed)
          | .root _ => [.announced place .finished]
          | .finished => []
      | _ => []
  | _ => []

/-- What happens when a panic passes a frame. -/
def unwound (payload : Payload) : Frame → List Occurrence
  | .stepping machine => [.ended machine (.panicked payload)]
  | .working deferred => [.worked deferred (.error (.panicked payload.message))]
  | .inspected place _ _ => [.interrupted place]
  | .announced place _ => [.interrupted place]
  | _ => []

end World

/-- What happens in the small step out of a state. -/
def State.occurrences (state : State) : List Occurrence :=
  match state.control, state.stack with
  | .program (.call request _), _ => state.world.requested request
  | .task task, _ => state.world.performed task
  | .reply reply, frame :: _ => state.world.returned reply frame
  | .unwind payload, frame :: _ => World.unwound payload frame
  | _, _ => []

/-- Whether all code has returned, or a panic has left it all. -/
def State.hasEnded (state : State) : Prop :=
  state.stack = [] ∧
    ((∃ reply, state.control = .reply reply) ∨ ∃ payload, state.control = .unwind payload)

/-- The states a run comes to, with what has happened on the way, oldest first.
A run begins in the initial world and goes on by small steps; whenever all code
has ended, more code may be run in the world that is left. -/
inductive Reaches : List Occurrence → State → Prop where
  | begin (program : Program) : Reaches [] (.ofProgram .initial program)
  | next {trace : List Occurrence} {state : State} :
      Reaches trace state → Reaches (trace ++ state.occurrences) state.next
  | again {trace : List Occurrence} {state : State} (program : Program) :
      Reaches trace state → state.hasEnded →
        Reaches trace (.ofProgram state.world program)

/-- A number of small steps: what happens on the way, and where they lead. -/
def State.walk : Nat → State → List Occurrence × State
  | 0, state => ([], state)
  | count + 1, state =>
      let rest := state.next.walk count
      (state.occurrences ++ rest.1, rest.2)

/-- A run may go on by any number of small steps. -/
theorem Reaches.walk {trace : List Occurrence} {state : State}
    (reaches : Reaches trace state) (count : Nat) :
    Reaches (trace ++ (state.walk count).1) (state.walk count).2 := by
  induction count generalizing trace state with
  | zero => simpa [State.walk] using reaches
  | succ count ih =>
      have longer := ih reaches.next
      rw [List.append_assoc] at longer
      exact longer

/-! ## What is visited on the way -/

/-- The states that a number of small steps goes out of. -/
def State.visits : Nat → State → List State
  | 0, _ => []
  | count + 1, state => state :: state.next.visits count

/-- Where fewer small steps lead is on the way. -/
theorem State.walk_mem_visits {state : State} {count more : Nat} (fewer : count < more) :
    (state.walk count).2 ∈ state.visits more := by
  induction more generalizing state count with
  | zero => omega
  | succ more ih =>
      cases count with
      | zero => exact List.mem_cons_self ..
      | succ count =>
          exact List.mem_cons_of_mem _ (@ih state.next count (by omega))

/-- Every state on the way is reached. -/
theorem Reaches.visits {trace : List Occurrence} {state visited : State} {count : Nat}
    (reaches : Reaches trace state) (member : visited ∈ state.visits count) :
    ∃ trace, Reaches trace visited := by
  induction count generalizing trace state with
  | zero => cases member
  | succ count ih =>
      rcases List.mem_cons.mp member with rfl | later
      · exact ⟨trace, reaches⟩
      · exact ih reaches.next later

/-- The states that a run comes to, with those that it has gone out of, oldest first. -/
inductive Passes : List State → State → Prop where
  | begin (program : Program) : Passes [] (.ofProgram .initial program)
  | next {past : List State} {state : State} :
      Passes past state → Passes (past ++ [state]) state.next
  | again {past : List State} {state : State} (program : Program) :
      Passes past state → state.hasEnded → Passes past (.ofProgram state.world program)

namespace Passes

variable {past : List State} {state : State}

/-- What has happened is what happened in each state that the run has gone out of. -/
theorem reaches (passes : Passes past state) :
    Reaches (past.flatMap State.occurrences) state := by
  induction passes with
  | begin program => exact .begin program
  | next _ ih => simpa using ih.next
  | again program _ ended ih => exact ih.again program ended

theorem walk (passes : Passes past state) (count : Nat) :
    Passes (past ++ state.visits count) (state.walk count).2 := by
  induction count generalizing past state with
  | zero => simpa [State.visits, State.walk] using passes
  | succ count ih =>
      have longer := ih passes.next
      rw [List.append_assoc] at longer
      exact longer

end Passes

end Stepwise
