import Stepwise.Proofs.Course.Strides

/-!
# Works of library machines

A machine that is ready for its next work launches it, and then waits for it; what it
takes of it later is what has become of it.
-/

namespace Stepwise

variable {place : Place} {trace : List Occurrence} {world : World} {stack : Stack}
  {machine : Nat} {form : Machine} {values : List Value} {deferred : Nat}

namespace World

/-- A dispatch happens at the place that launches, if any. -/
theorem place_of_dispatch {target : Target} {work : Program}
    {launcher : Option (Place × Nat)} {occurrence : Occurrence}
    (member : occurrence ∈ world.dispatch target work launcher) :
    occurrence.place? = none ∨ occurrence.place? = launcher.map (·.1) := by
  unfold dispatch at member
  split at member
  · rcases List.mem_cons.mp member with rfl | began
    · exact .inr rfl
    · split at began
      · rw [List.mem_singleton.mp began]
        exact .inl rfl
      · cases began
  · cases member

end World

namespace Chronicle

/-- A dispatch changes no life. -/
theorem life_dispatch {target : Target} {work : Program}
    {launcher : Option (Place × Nat)} :
    (of (trace ++ world.dispatch target work launcher)).life = (of trace).life := by
  rw [of_append]
  unfold World.dispatch
  split
  · split <;> rfl
  · rfl

end Chronicle

/-- A dispatch calls no step. -/
theorem calls_dispatch {target : Target} {work : Program} {launcher : Option (Place × Nat)} :
    calls machine (trace ++ world.dispatch target work launcher) = calls machine trace := by
  unfold World.dispatch calls
  split
  · split <;> simp [Occurrence.calls]
  · simp

namespace Phase

/-- A machine that is ready launches its next work. -/
theorem Expects.launch {work : Program} (stands : Stands machine form trace (.ready values))
    (planned : form.work? values = some work) (untaken : ¬ world.Taken deferred) :
    Expects machine form
      (trace ++ [.dispatched deferred work (some (.started machine, values.length))])
      world values deferred where
  planned := by
    refine ⟨work, .waiting, planned, ?_, ?_⟩
    · simp [Chronicle.of_snoc, Chronicle.after]
    · rw [deeds_snoc]
      simpa [Chronicle.deedsIn, Fate.point] using stands.course.launched planned
  through := by
    intro other found number recorded launcher different
    rw [Chronicle.of_snoc] at recorded
    have older : other ≠ deferred := by simpa using different
    simp only [Chronicle.after, Chronicle.work_addWork, older, if_false] at recorded
    exact stands.through other found number recorded launcher (by simp)
  untaken := untaken

/-- What a machine takes is what has become of its work. -/
theorem Expects.retrieved (expects : Expects machine form trace world values deferred)
    (custody : Custody world.ledger (.of trace) [] stack)
    (complete : world.isComplete deferred = true) :
    (∃ value, (world.retrieve deferred).2 = .ok value ∧
      Stands machine form trace (.worked values (.ok value))) ∨
    ∃ error point, (world.retrieve deferred).2 = .error error ∧
      Stands machine form trace point ∧ point.outcome? = some (.error error) := by
  obtain ⟨⟨work, fate, -, recorded, course⟩, through, untaken⟩ := expects
  have account := custody.deferreds deferred
  simp only [Ledger.DeferredAccount, recorded] at account
  cases lookup : world.ledger.deferreds.get? deferred with
  | none => simp [lookup] at account
  | some found =>
      have present : world.deferreds.get? deferred = some found := lookup
      simp only [lookup] at account
      obtain ⟨-, -, agrees⟩ := account
      have told := agrees _ rfl
      simp only [World.retrieve, present, Deferred.retrieved]
      cases progress : found.progress with
      | pending => simp [World.isComplete, present, Deferred.isComplete, progress] at complete
      | taken => exact absurd ⟨found, present, progress⟩ untaken
      | complete outcome =>
          simp only [progress, Progress.Agrees] at told
          have stands : Stands machine form trace (fate.point values work) := by
            refine ⟨course, ?_⟩
            intro other found number recordedAgain launcher _
            by_cases same : other = deferred
            · subst same
              cases recorded.symm.trans recordedAgain
              simp [told]
            · exact through other found number recordedAgain launcher (by simpa using same)
          cases fate with
          | waiting | running => cases told
          | discarded =>
              cases told
              exact .inr ⟨_, _, rfl, stands, rfl⟩
          | ended result =>
              cases result with
              | ok value =>
                  cases told
                  exact .inl ⟨value, rfl, stands⟩
              | error failure =>
                  cases told
                  exact .inr ⟨_, _, rfl, stands, rfl⟩

/-- A resumed step goes on with the value of its work, or ends with its error. -/
theorem Resumes.retrieved (resumes : Resumes machine form trace world values deferred)
    (custody : Custody world.ledger (.of trace) [] stack) :
    (∃ value, (world.retrieve deferred).2 = .ok value ∧
      Stands machine form trace (.worked values (.ok value))) ∨
    ∃ error, (world.retrieve deferred).2 = .error error ∧
      Settles machine form trace (.error error) := by
  obtain ⟨work, fate, planned, -⟩ := resumes.expects.planned
  have bound := Machine.lt_steps_of_work planned
  have called := resumes.called
  rcases resumes.expects.retrieved custody resumes.complete with ⟨value, took, stands⟩ |
    ⟨error, point, took, stands, outcome⟩
  · exact .inl ⟨value, took, stands⟩
  · exact .inr ⟨error, took, ⟨point, stands, outcome⟩, by omega⟩

/-- The hook is told of the value of a work. -/
theorem Stands.noticed {value : Value} {occurrence : Occurrence}
    (stands : Stands machine form trace (.worked values (.ok value)))
    (notice : (Chronicle.of trace).deedsIn machine occurrence =
      [form.notice values.length value])
    (quiet : (Chronicle.of trace).after occurrence = .of trace) :
    Stands machine form (trace ++ [occurrence]) (.ready (value :: values)) where
  course := by
    rw [deeds_snoc, notice]
    exact stands.course.noticed
  through := by
    rw [Chronicle.of_snoc, quiet]
    exact stands.through

end Phase

namespace Seat

/-- A machine that is ready for its next work, of which it has just used the stage. -/
structure Ready (machine : Nat) (form : Machine) (trace : List Occurrence) (world : World)
    (number : Nat) (work : Program) (target : Target) (values : List Value) : Prop where
  counted : number = values.length
  stands : Phase.Stands machine form trace (.ready values)
  planned : form.work? values = some work
  body : world.body? (.started machine) = some (form.bodyAfter values (values.length + 1))
  called : calls machine trace = values.length + 1
  target : target = .context → form.UsesContext

/-- A work is launched, and the step waits for the launch. -/
theorem dispatch {target : Target} {work : Program} {number : Nat}
    (seat : Seat place trace world stack) (but : SeatedBut place trace world stack)
    (custody : Custody world.ledger (.of trace) [] stack)
    (ready : ∀ machine form, place = .started machine →
      ((Chronicle.of trace).life machine).form = some form → form.isLibrary = true →
        ∃ values, Ready machine form trace world number work target values) :
    (State.dispatching world stack target false work
      fun deferred => .launched place number deferred :: stack).Seated
        (trace ++ world.dispatch target work (some (place, number))) := by
  have permitted : (Chronicle.of trace).PermitsAll
      (world.dispatch target work (some (place, number))) := State.permits_dispatch custody
  rcases @State.dispatching_calm (fun _ => False) (fun _ => True) world stack target false work
      (fun deferred => .launched place number deferred :: stack)
    with ⟨reaches, calm⟩ | ⟨unreached, context, outside⟩
  · have later : Seat place (trace ++ world.dispatch target work (some (place, number)))
        world stack :=
      seat.carry seat.present fun machine => by rw [Chronicle.life_dispatch]
    have still : SeatedBut place (trace ++ world.dispatch target work (some (place, number)))
        world stack := by
      refine but.afterAll seat.present permitted ?_
      intro occurrence member other at_
      rcases World.place_of_dispatch member with nowhere | here
      · simp [nowhere] at at_
      · simpa using (here.symm.trans at_).symm
    have recorded : (Chronicle.of (trace ++ [.dispatched world.deferreds.size work
        (some (place, number))])).Launched place world.deferreds.size :=
      ⟨_, number, by rw [Chronicle.of_snoc, Chronicle.after, Chronicle.work_addWork, if_pos rfl],
        rfl⟩
    have untaken : ¬ world.Taken world.deferreds.size := by
      rintro ⟨found, lookup, -⟩
      simp [Store.get?, Store.size] at lookup
    have happens : world.dispatch target work (some (place, number)) =
        [.dispatched world.deferreds.size work (some (place, number))] ∨
        world.dispatch target work (some (place, number)) =
        [.dispatched world.deferreds.size work (some (place, number)),
          .began world.deferreds.size work] := by
      simp only [World.dispatch, reaches, if_true]
      split
      · exact .inr rfl
      · exact .inl rfl
    refine later.wait still rfl ?_ calm (fun _ never => never.elim) ?_
    · intro other deferred same
      cases same
      rcases happens with only | both
      · rw [only]
        exact recorded
      · rw [both] at permitted ⊢
        have next := recorded.after (by rw [Chronicle.of_snoc]; exact permitted.2.1)
        rw [← Chronicle.of_snoc, List.append_assoc] at next
        exact next
    · intro machine form here was library
      subst here
      rw [Chronicle.life_dispatch] at was
      obtain ⟨values, rfl, stands, planned, body, called, -⟩ := ready machine form rfl was library
      have expects := Phase.Expects.launch stands planned untaken
      rw [Phase.waits_launched]
      refine ⟨rfl, values, rfl, ?_, body, calls_dispatch.trans called⟩
      rcases happens with only | both
      · rw [only]
        exact expects
      · rw [both] at permitted ⊢
        have next := expects.after (by rw [Chronicle.of_snoc]; exact permitted.2.1)
          (by simp [Occurrence.place?])
        rw [List.append_assoc] at next
        exact next
  · have nothing : world.dispatch target work (some (place, number)) = [] := by
      simp [World.dispatch, unreached]
    rw [nothing, List.append_nil, outside]
    refine seat.act but rfl ?_
    intro machine form position here was library
    obtain ⟨values, -, stands, planned, -, called, uses⟩ := ready machine form here was library
    have bound := Machine.lt_steps_of_work planned
    exact ⟨⟨_, stands⟩, .inr ⟨uses context, rfl⟩, by omega⟩

/-- A step takes what it awaited: it ends with its error, or goes on with its value. -/
theorem take {proceed : World → Value → State} {occurrence : Value → Occurrence}
    (seat : Seat place trace world stack) (but : SeatedBut place trace world stack)
    (launched : (Chronicle.of trace).Launched place deferred)
    (fails : ∀ error machine form, (world.retrieve deferred).2 = .error error →
      place = .started machine → ((Chronicle.of trace).life machine).form = some form →
        form.isLibrary = true → Phase.Settles machine form trace (.error error))
    (goesOn : ∀ value, (world.retrieve deferred).2 = .ok value →
      SeatedBut place trace (world.retrieve deferred).1 stack →
        (proceed (world.retrieve deferred).1 value).Seated (trace ++ [occurrence value])) :
    (State.takingAwaited world stack deferred proceed).Seated
      (trace ++ world.takes deferred occurrence) := by
  have taken := but.retrieve launched
  unfold State.takingAwaited World.takes
  cases outcome : (world.retrieve deferred).2 with
  | ok value =>
      simp only [outcome]
      exact goesOn value outcome taken
  | error error =>
      simp only [outcome, List.append_nil]
      refine seat.act taken rfl ?_
      intro machine form position here was library
      exact fails error machine form outcome here was library

end Seat

/-- A machine may await the work it has launched. -/
theorem Machine.awaited_bodyAfter {launches : Nat} (library : form.isLibrary = true) :
    ((form.bodyAfter values launches).await values.length deferred).awaited.contains
      deferred = true := by
  cases form with
  | custom _ => cases library
  | pipeline _ _ _ _ => simp [Machine.bodyAfter, Body.await, Body.awaited]
  | cubeRoot _ _ _ _ _ =>
      simp only [Machine.bodyAfter, Body.await]
      split <;> simp [Body.awaited]

/-- A work has been launched: the machine is about to be suspended on it. -/
theorem State.launchedWork_seated {number : Nat} (seat : Seat place trace world stack)
    (seated : Stepwise.Seated trace world stack)
    (launched : (Chronicle.of trace).Launched place deferred)
    (waits : ∀ machine form, place = .started machine →
      ((Chronicle.of trace).life machine).form = some form → form.isLibrary = true →
        Phase.Waits machine form trace world (.launched place number deferred)) :
    (State.launchedWork world stack place number deferred).Seated trace := by
  refine (seat.modifyBody (·.await number deferred)).act
    ((seated.but place).modifyBody ?_) rfl ?_
  · intro body other found held
    have older : other = deferred ∨ other ∈ body.awaited := by
      cases body with
      | custom _ => cases held
      | pipeline _ =>
          simp only [Body.await, Body.awaited, Option.toList_some, List.mem_singleton] at held
          exact .inl held
      | cubeRoot demo =>
          simp only [Body.await] at held
          split at held
          · simp only [Body.awaited, Option.toList_some, List.mem_append,
              List.mem_singleton] at held ⊢
            exact held.imp_right .inr
          · simp only [Body.awaited, Option.toList_some, List.mem_append,
              List.mem_singleton] at held ⊢
            exact held.symm.imp_right .inl
    rcases older with rfl | waiting
    · exact launched
    · exact seated.grounded.awaits place body other found waiting
  · intro machine form position here was library
    have sits := waits machine form here was library
    rw [Phase.waits_launched] at sits
    obtain ⟨-, values, rfl, expects, body, called⟩ := sits
    subst here
    have awaits : (world.modifyBody (.started machine)
        (·.await values.length deferred)).body? (.started machine) =
          some ((form.bodyAfter values (values.length + 1)).await values.length deferred) := by
      simp [World.body?_modifyBody, body]
    have admitted : (world.modifyBody (.started machine) (·.await values.length deferred)).judge
        machine (.suspended values.length deferred) = .await values.length deferred := by
      simp only [World.judge, Reply.asStep, World.mayAwait, awaits, Option.map_some,
        Machine.awaited_bodyAfter library, Option.getD_some, Bool.or_true, if_true]
    simp only [Phase.Acts, admitted]
    exact ⟨values, rfl, expects.carry fun _ _ taken => World.taken_modifyBody taken, awaits,
      called⟩

end Stepwise
