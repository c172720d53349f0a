import Stepwise.Proofs.Course.Works

/-!
# Strides of pipelines

The step of a pipeline takes the outcome of the stage under way, has the hook see it,
and launches the next stage, or ends with the last value.
-/

namespace Stepwise

namespace Pipeline

variable {stages : List (Value → Program)} {dispatcher : Dispatcher}
  {inspect : Nat → Value → Program} {launches : Nat} {seed : Value}

/-- A pipeline that has begun has launched nothing yet. -/
theorem past_zero :
    { Pipeline.fresh seed stages dispatcher inspect with seed := none } =
      Pipeline.past 0 stages dispatcher inspect := by
  simp only [fresh, past, mk.injEq, true_and, and_true]
  exact List.ext_getElem? fun index => by simp

@[simp] theorem length_past : (past launches stages dispatcher inspect).length =
    stages.length := by
  simp [past, length]

/-- The next stage is still there. -/
@[simp] theorem stage?_past :
    (past launches stages dispatcher inspect).stage? launches = stages[launches]? := by
  simp only [stage?, past, List.getElem?_mapIdx]
  cases stages[launches]? <;> simp

/-- To use the next stage is to have launched one more. -/
@[simp] theorem useStage_past :
    (past launches stages dispatcher inspect).useStage launches =
      past (launches + 1) stages dispatcher inspect := by
  simp only [useStage, past, mk.injEq, true_and, and_true]
  refine List.ext_getElem? fun index => ?_
  rw [List.getElem?_set]
  by_cases same : launches = index
  · subst same
    simp only [List.length_mapIdx, if_true, List.getElem?_mapIdx]
    by_cases within : launches < stages.length
    · simp [within]
    · simp [within]
  · simp only [same, if_false, List.getElem?_mapIdx]
    cases stages[index]? with
    | none => rfl
    | some stage =>
        have bound : index < launches ↔ index < launches + 1 := by omega
        simp [bound]

/-- After a stage comes the next one, if there is one. -/
theorem following?_past {number : Nat} (within : number < stages.length) :
    (past launches stages dispatcher inspect).following? number =
      if number + 1 < stages.length then some (number + 1) else none := by
  have beyond : ¬ stages.length ≤ number := by omega
  simp [following?, beyond]

end Pipeline

variable {place : Place} {trace : List Occurrence} {world : World} {stack : Stack}

namespace State

/-- The next stage is launched. -/
theorem launchingStage_seated {pipeline : Pipeline} {number : Nat} {input : Value}
    (seat : Seat place trace world stack) (but : SeatedBut place trace world stack)
    (custody : Custody world.ledger (.of trace) [] stack)
    (awaited : ∀ deferred ∈ pipeline.awaited, (Chronicle.of trace).Launched place deferred)
    (ready : ∀ machine form, place = .started machine →
      ((Chronicle.of trace).life machine).form = some form → form.isLibrary = true →
        ∃ seed stages dispatcher inspect values,
          form = .pipeline seed stages dispatcher inspect ∧ number = values.length ∧
          pipeline = .past number stages dispatcher inspect ∧ number < stages.length ∧
          input = values.headD seed ∧
          Phase.Stands machine form trace (.ready values) ∧
          calls machine trace = values.length + 1) :
    (launchingStage world stack place pipeline number input).Seated
      (trace ++ world.launch place pipeline number input) := by
  unfold launchingStage World.launch
  cases found : pipeline.stage? number with
  | none =>
      simp only [List.append_nil]
      refine seat.act but rfl ?_
      intro machine form position here was library
      obtain ⟨_, stages, _, _, values, -, -, rfl, within, -⟩ := ready machine form here was library
      have absent : stages[number]? = none := by simpa using found
      have beyond := List.getElem?_eq_none_iff.mp absent
      omega
  | some stage =>
      simp only
      have used := custody.bodyModified place fun _ => .pipeline (pipeline.useStage number)
      have moved : SeatedBut place trace
          (world.modifyBody place fun _ => .pipeline (pipeline.useStage number)) stack := by
        refine but.modifyBody ?_
        intro _ deferred _ waits
        exact awaited deferred (by simpa [Body.awaited, Pipeline.useStage] using waits)
      have same : (world.modifyBody place fun _ =>
          .pipeline (pipeline.useStage number)).dispatch
            (pipeline.dispatcher.target pipeline.dispatched) (stage input)
            (some (place, number)) =
          world.dispatch (pipeline.dispatcher.target pipeline.dispatched) (stage input)
            (some (place, number)) := by
        cases place <;> rfl
      have usedSeat := seat.modifyBody fun _ => .pipeline (pipeline.useStage number)
      rw [← same]
      refine usedSeat.dispatch moved used ?_
      intro machine form here was library
      obtain ⟨seed, stages, dispatcher, inspect, values, rfl, rfl, rfl, within, rfl, stands,
        called⟩ := ready machine form here was library
      refine ⟨values, rfl, stands, ?_, ?_, called, ?_⟩
      · have next : stages[values.length]? = some stage := by simpa using found
        simp [Machine.work?, next]
      · subst here
        obtain ⟨body, was⟩ := Option.isSome_iff_exists.mp (seat.present _ rfl)
        simp [World.body?_modifyBody, was, Machine.bodyAfter]
      · intro context
        exact ⟨values.length, context⟩

/-- The value of the last stage is the machine's. -/
theorem settles_of_ready {machine : Nat} {seed : Value} {stages : List (Value → Program)}
    {dispatcher : Dispatcher} {inspect : Nat → Value → Program} {values : List Value}
    (stands : Phase.Stands machine (.pipeline seed stages dispatcher inspect) trace
      (.ready values))
    (all : values.length = stages.length)
    (called : calls machine trace = values.length + 1) :
    Phase.Settles machine (.pipeline seed stages dispatcher inspect) trace
      (.ok (values.headD seed)) := by
  have closed : Course (.pipeline seed stages dispatcher inspect) (deeds machine trace ++ [])
      (.closed (values.headD seed)) :=
    stands.course.closed (by simp [Machine.result?, all])
  rw [List.append_nil] at closed
  exact ⟨⟨_, ⟨closed, stands.through⟩, rfl⟩, by simp [Machine.steps, called, all]⟩

/-- The hook has seen a value: the next stage is launched, or the machine ends with the
value. -/
theorem inspectedValue_seated {number : Nat} {value : Value} {reply : Reply}
    (seat : Seat place trace world stack) (seated : Stepwise.Seated trace world stack)
    (custody : Custody world.ledger (.of trace) [] stack)
    (waits : ∀ machine form, place = .started machine →
      ((Chronicle.of trace).life machine).form = some form → form.isLibrary = true →
        Phase.Waits machine form trace world (.inspected place number value)) :
    (inspectedValue world stack place number value).Seated
      (trace ++ world.returned reply (.inspected place number value)) := by
  have but := seated.but place
  simp only [inspectedValue, World.returned]
  have foreign (other : ∀ pipeline, world.body? place ≠ some (.pipeline pipeline)) :
      (State.replying world stack (.outcome (.ok value))).Seated (trace ++ []) := by
    rw [List.append_nil]
    refine seat.act but rfl ?_
    intro machine form position here was library
    have sits := waits machine form here was library
    cases form with
    | custom _ | cubeRoot _ _ _ _ _ => exact sits.elim
    | pipeline seed stages dispatcher inspect =>
        obtain ⟨-, values, -, pauses⟩ := sits
        exact absurd (here ▸ pauses.body) (other _)
  cases body : world.body? place with
  | none => exact foreign (by simp [body])
  | some found =>
      cases found with
      | custom _ | cubeRoot _ => exact foreign (by simp [body])
      | pipeline pipeline =>
          have mine {machine : Nat} {form : Machine} (here : place = .started machine)
              (was : ((Chronicle.of trace).life machine).form = some form)
              (library : form.isLibrary = true) :
              ∃ seed stages dispatcher inspect values,
                form = .pipeline seed stages dispatcher inspect ∧ number = values.length ∧
                pipeline = .past (number + 1) stages dispatcher inspect ∧
                number < stages.length ∧
                Phase.Stands machine form trace (.ready (value :: values)) ∧
                calls machine trace = (value :: values).length + 1 := by
            have sits := waits machine form here was library
            cases form with
            | custom _ | cubeRoot _ _ _ _ _ => exact sits.elim
            | pipeline seed stages dispatcher inspect =>
                obtain ⟨-, values, rfl, stands, held, called⟩ := sits
                have same := (here ▸ body).symm.trans held
                simp only [Machine.bodyAfter, List.length_cons, Option.some.injEq,
                  Body.pipeline.injEq] at same
                have bound := stands.course.launches_lt_steps library
                simp only [Point.launches, List.length_cons, Machine.steps] at bound
                exact ⟨seed, stages, dispatcher, inspect, values, rfl, rfl, same, by omega,
                  stands, called⟩
          simp only
          cases following : pipeline.following? number with
          | none =>
              simp only [List.append_nil]
              refine seat.act but rfl ?_
              intro machine form position here was library
              obtain ⟨seed, stages, dispatcher, inspect, values, rfl, rfl, rfl, within, stands,
                called⟩ := mine here was library
              rw [Pipeline.following?_past within] at following
              have last : ¬ values.length + 1 < stages.length := by
                intro more
                simp [more] at following
              exact settles_of_ready stands (by simp; omega) called
          | some next =>
              refine launchingStage_seated seat but custody ?_ ?_
              · intro deferred waiting
                exact seated.grounded.awaits place _ deferred body
                  (by simpa [Body.awaited] using waiting)
              · intro machine form here was library
                obtain ⟨seed, stages, dispatcher, inspect, values, rfl, rfl, rfl, within,
                  stands, called⟩ := mine here was library
                rw [Pipeline.following?_past within] at following
                split at following
                · next more =>
                    cases following
                    exact ⟨seed, stages, dispatcher, inspect, value :: values, rfl, rfl, rfl,
                      more, rfl, stands, called⟩
                · cases following

/-- The first step of a pipeline launches its first stage, or ends with the seed. -/
theorem beginningPipeline_seated {pipeline : Pipeline}
    (seat : Seat place trace world stack) (seated : Stepwise.Seated trace world stack)
    (custody : Custody world.ledger (.of trace) [] stack)
    (body : world.body? place = some (.pipeline pipeline))
    (begins : ∀ machine form, place = .started machine →
      ((Chronicle.of trace).life machine).form = some form → form.isLibrary = true →
        Phase.Begins machine form trace world) :
    (steppingPipeline world stack place pipeline .notStarted).Seated
      (trace ++ world.stepped place .notStarted) := by
  have but := seated.but place
  have awaits (deferred : Nat) (waiting : deferred ∈ pipeline.awaited) :
      (Chronicle.of trace).Launched place deferred :=
    seated.grounded.awaits place _ deferred body (by simpa [Body.awaited] using waiting)
  have mine {machine : Nat} {form : Machine} (here : place = .started machine)
      (was : ((Chronicle.of trace).life machine).form = some form)
      (library : form.isLibrary = true) :
      ∃ seed stages dispatcher inspect, form = .pipeline seed stages dispatcher inspect ∧
        pipeline = .fresh seed stages dispatcher inspect ∧
        Phase.Stands machine form trace (.ready []) ∧ calls machine trace = 1 := by
    obtain ⟨stands, held, called⟩ := begins machine form here was library
    have same := (here ▸ body).symm.trans held
    cases form with
    | custom _ | cubeRoot _ _ _ _ _ => cases same
    | pipeline seed stages dispatcher inspect =>
        simp only [Machine.body, Option.some.injEq, Body.pipeline.injEq] at same
        have ready : Course (.pipeline seed stages dispatcher inspect)
            (deeds machine trace) (.ready []) := by
          rw [stands.course.deeds_of_fresh]
          exact .opened
        exact ⟨seed, stages, dispatcher, inspect, rfl, same, ⟨ready, stands.through⟩, called⟩
  simp only [steppingPipeline, World.stepped, body]
  cases present : pipeline.seed with
  | none =>
      simp only [List.append_nil]
      refine seat.act but rfl ?_
      intro machine form position here was library
      obtain ⟨_, _, _, _, -, rfl, -⟩ := mine here was library
      cases present
  | some seed =>
      simp only
      have begun : SeatedBut place trace (world.modifyBody place fun _ =>
          .pipeline { pipeline with seed := none }) stack := by
        refine but.modifyBody ?_
        intro _ deferred _ waiting
        exact awaits deferred (by simpa [Body.awaited] using waiting)
      have moved := custody.bodyModified place fun _ =>
        .pipeline { pipeline with seed := none }
      have begunSeat := seat.modifyBody fun _ => .pipeline { pipeline with seed := none }
      split
      · next empty =>
          have unlaunched : world.launch place pipeline 0 seed = [] := by
            simp [World.launch, Pipeline.stage?, List.isEmpty_iff.mp empty]
          rw [unlaunched, List.append_nil]
          refine begunSeat.act begun rfl ?_
          intro machine form position here was library
          obtain ⟨_, stages, dispatcher, inspect, rfl, rfl, stands, called⟩ :=
            mine here was library
          cases present
          have nothing : stages = [] := by simpa [Pipeline.fresh] using empty
          exact settles_of_ready stands (by simp [nothing]) called
      · next more =>
          have same : (world.modifyBody place fun _ =>
              .pipeline { pipeline with seed := none }).launch place
                { pipeline with seed := none } 0 seed =
              world.launch place pipeline 0 seed := by
            cases place <;> rfl
          rw [← same]
          refine launchingStage_seated begunSeat begun moved awaits ?_
          intro machine form here was library
          obtain ⟨_, stages, dispatcher, inspect, rfl, rfl, stands, called⟩ :=
            mine here was library
          cases present
          have filled : 0 < stages.length := by
            refine List.length_pos_iff.mpr ?_
            rintro rfl
            simp [Pipeline.fresh] at more
          exact ⟨seed, stages, dispatcher, inspect, [], rfl, rfl, Pipeline.past_zero, filled,
            rfl, stands, called⟩

/-- The step after a stage has the hook see its value, or ends with its error. -/
theorem resumingPipeline_seated {pipeline : Pipeline} {number : Nat}
    (seat : Seat place trace world stack) (seated : Stepwise.Seated trace world stack)
    (custody : Custody world.ledger (.of trace) [] stack)
    (body : world.body? place = some (.pipeline pipeline))
    (resumes : ∀ machine form, place = .started machine →
      ((Chronicle.of trace).life machine).form = some form → form.isLibrary = true →
        ∃ values deferred, number = values.length ∧
          Phase.Resumes machine form trace world values deferred) :
    (steppingPipeline world stack place pipeline (.suspension number)).Seated
      (trace ++ world.stepped place (.suspension number)) := by
  have but := seated.but place
  have mine {machine : Nat} {form : Machine} (here : place = .started machine)
      (was : ((Chronicle.of trace).life machine).form = some form)
      (library : form.isLibrary = true) :
      ∃ seed stages dispatcher inspect values deferred,
        form = .pipeline seed stages dispatcher inspect ∧ number = values.length ∧
        pipeline = { Pipeline.past (number + 1) stages dispatcher inspect with
          awaited := some deferred } ∧
        Phase.Resumes machine form trace world values deferred := by
    obtain ⟨values, deferred, rfl, resumed⟩ := resumes machine form here was library
    have same := (here ▸ body).symm.trans resumed.body
    cases form with
    | custom _ => cases library
    | cubeRoot _ _ _ _ _ =>
        simp only [Machine.bodyAfter, Body.await] at same
        split at same <;> cases same
    | pipeline seed stages dispatcher inspect =>
        simp only [Machine.bodyAfter, Body.await, Option.some.injEq,
          Body.pipeline.injEq] at same
        exact ⟨seed, stages, dispatcher, inspect, values, deferred, rfl, rfl, same, resumed⟩
  simp only [steppingPipeline, World.stepped, body]
  cases waiting : pipeline.awaited with
  | none =>
      simp only [List.append_nil]
      refine seat.act but rfl ?_
      intro machine form position here was library
      obtain ⟨_, _, _, _, _, _, -, -, rfl, -⟩ := mine here was library
      cases waiting
  | some deferred =>
      simp only
      have launched : (Chronicle.of trace).Launched place deferred :=
        seated.grounded.awaits place _ deferred body (by simp [Body.awaited, waiting])
      rw [← World.takes_congr (World.deferreds_modifyBody place fun _ =>
        .pipeline { pipeline with awaited := none })]
      have resumed : SeatedBut place trace (world.modifyBody place fun _ =>
          .pipeline { pipeline with awaited := none }) stack := by
        refine but.modifyBody ?_
        intro _ other _ held
        simp [Body.awaited] at held
      have resumedSeat := seat.modifyBody fun _ => .pipeline { pipeline with awaited := none }
      refine resumedSeat.take resumed launched ?_ ?_
      · intro error machine form fails here was library
        obtain ⟨_, _, _, _, values, other, rfl, rfl, rfl, due⟩ := mine here was library
        cases waiting
        rw [World.outcome_modifyBody] at fails
        rcases due.retrieved custody with ⟨value, succeeds, -⟩ | ⟨same, failed, settles⟩
        · cases succeeds.symm.trans fails
        · cases failed.symm.trans fails
          exact settles
      · intro value succeeds taken
        rw [World.outcome_modifyBody] at succeeds
        have present (machine : Nat) (here : place = .started machine) :
            (((world.modifyBody place fun _ => .pipeline { pipeline with awaited := none
              }).retrieve deferred).1.body? place).isSome = true := by
          rw [World.body?_retrieve]
          exact resumedSeat.present machine here
        have laterSeat : Seat place (trace ++ [.shown place number value]) _ stack :=
          seat.carry present fun _ => by rw [Chronicle.of_snoc]; rfl
        refine laterSeat.call (taken.after present trivial fun other here =>
          (Option.some.inj here).symm) rfl (fun _ _ same => by cases same) ?_
        intro machine form here was library
        rw [Chronicle.of_snoc] at was
        obtain ⟨_, _, _, _, values, other, rfl, rfl, rfl, due⟩ := mine here was library
        cases waiting
        subst here
        rcases due.retrieved custody with ⟨same, took, stands⟩ | ⟨error, failed, -⟩
        · cases took.symm.trans succeeds
          refine ⟨rfl, values, rfl, ?_, ?_, ?_⟩
          · exact stands.noticed (by simp [Chronicle.deedsIn, Machine.notice]) rfl
          · rw [World.body?_retrieve]
            simp [World.body?_modifyBody, body, Machine.bodyAfter, Pipeline.past]
          · simp [Occurrence.calls, due.called]
        · cases failed.symm.trans succeeds

/-- The step of a pipeline. -/
theorem steppingPipeline_seated {pipeline : Pipeline} {position : Position}
    (seat : Seat place trace world stack) (seated : Stepwise.Seated trace world stack)
    (custody : Custody world.ledger (.of trace) [] stack)
    (body : world.body? place = some (.pipeline pipeline))
    (acts : ∀ machine form, place = .started machine →
      ((Chronicle.of trace).life machine).form = some form → form.isLibrary = true →
        Phase.Acts machine form trace world position (.task (.step place position))) :
    (steppingPipeline world stack place pipeline position).Seated
      (trace ++ world.stepped place position) := by
  cases position with
  | notStarted =>
      refine beginningPipeline_seated seat seated custody body ?_
      intro machine form here was library
      obtain ⟨-, -, ⟨-, begins⟩ | ⟨_, _, later, -⟩⟩ := acts machine form here was library
      · exact begins
      · cases later
  | suspension number =>
      refine resumingPipeline_seated seat seated custody body ?_
      intro machine form here was library
      obtain ⟨-, -, ⟨first, -⟩ | ⟨values, deferred, at_, resumes⟩⟩ :=
        acts machine form here was library
      · cases first
      · cases at_
        exact ⟨values, deferred, rfl, resumes⟩
  | finished =>
      simp only [steppingPipeline, World.stepped, body, List.append_nil]
      refine seat.act (seated.but place) rfl ?_
      intro machine form position here was library
      obtain ⟨-, -, ⟨first, -⟩ | ⟨_, _, later, -⟩⟩ := acts machine form here was library
      · cases first
      · cases later

end State

end Stepwise
