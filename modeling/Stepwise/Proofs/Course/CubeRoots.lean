import Stepwise.Proofs.Course.Works

/-!
# Strides of the demonstration

The step of the demonstration announces what it has come to, and when the hook has
heard, launches the next work, makes the last announcement, or ends with the results.
-/

namespace Stepwise.State

variable {place : Place} {trace : List Occurrence} {world : World} {stack : Stack}
  {demo : CubeRoot}

/-- The next work of the demonstration is launched. -/
theorem launchingWork_seated {number : Nat} {work : Program}
    (seat : Seat place trace world stack) (but : SeatedBut place trace world stack)
    (custody : Custody world.ledger (.of trace) [] stack)
    (body : world.body? place = some (.cubeRoot demo))
    (ready : ∀ machine form, place = .started machine →
      ((Chronicle.of trace).life machine).form = some form → form.isLibrary = true →
        ∃ values, number = values.length ∧ form.work? values = some work ∧
          Phase.Pauses machine form trace world values (.ready values)) :
    (launchingWork world stack place demo number work).Seated
      (trace ++ world.launchWork place demo number work) := by
  unfold launchingWork World.launchWork
  simp only
  have counted := custody.bodyModified place fun _ =>
    .cubeRoot { demo with dispatched := demo.dispatched + 1 }
  have moved : SeatedBut place trace (world.modifyBody place fun _ =>
      .cubeRoot { demo with dispatched := demo.dispatched + 1 }) stack := by
    refine but.modifyBody ?_
    intro _ deferred _ waiting
    exact but.grounded.awaits place _ deferred body waiting
  have same : (world.modifyBody place fun _ =>
      .cubeRoot { demo with dispatched := demo.dispatched + 1 }).dispatch
        (demo.dispatcher.target demo.dispatched) work (some (place, number)) =
      world.dispatch (demo.dispatcher.target demo.dispatched) work (some (place, number)) := by
    cases place <;> rfl
  rw [← same]
  refine (seat.modifyBody _).dispatch moved counted ?_
  intro machine form here was library
  obtain ⟨values, rfl, planned, stands, held, called⟩ := ready machine form here was library
  subst here
  have alike := body.symm.trans held
  cases form with
  | custom _ => cases library
  | pipeline _ _ _ _ => cases alike
  | cubeRoot input cube root dispatcher announce =>
      simp only [Machine.bodyAfter, Option.some.injEq, Body.cubeRoot.injEq] at alike
      subst alike
      refine ⟨values, rfl, stands, planned, ?_, called, ?_⟩
      · simp [World.body?_modifyBody, body, Machine.bodyAfter]
      · intro context
        refine ⟨values.length, ?_⟩
        rcases values with _ | ⟨_, _ | _⟩ <;> exact context

/-- The hook has heard: the demonstration goes on. -/
theorem announcedProgress_seated {announcement : Announcement} {reply : Reply}
    (seat : Seat place trace world stack) (seated : Stepwise.Seated trace world stack)
    (custody : Custody world.ledger (.of trace) [] stack)
    (waits : ∀ machine form, place = .started machine →
      ((Chronicle.of trace).life machine).form = some form → form.isLibrary = true →
        Phase.Waits machine form trace world (.announced place announcement)) :
    (announcedProgress world stack place announcement).Seated
      (trace ++ world.returned reply (.announced place announcement)) := by
  have but := seated.but place
  -- The hook belongs to a demonstration, whose body is one.
  have heard {machine : Nat} {form : Machine} (here : place = .started machine)
      (was : ((Chronicle.of trace).life machine).form = some form)
      (library : form.isLibrary = true) :
      ∃ input cube root dispatcher announce values point,
        form = .cubeRoot input cube root dispatcher announce ∧
          Phase.Pauses machine form trace world values point := by
    have sits := waits machine form here was library
    cases form with
    | custom _ | pipeline _ _ _ _ => exact sits.elim
    | cubeRoot input cube root dispatcher announce =>
        obtain ⟨-, told⟩ := sits
        refine ⟨input, cube, root, dispatcher, announce, ?_⟩
        cases announcement with
        | started => exact ⟨_, _, rfl, told⟩
        | cube _ =>
            obtain ⟨cubed, pauses⟩ := told
            exact ⟨_, _, rfl, pauses⟩
        | root _ =>
            obtain ⟨rooted, cubed, pauses⟩ := told
            exact ⟨_, _, rfl, pauses⟩
        | finished =>
            obtain ⟨rooted, cubed, value, -, pauses⟩ := told
            exact ⟨_, _, rfl, pauses⟩
  have foreign (other : ∀ demo, world.body? place ≠ some (.cubeRoot demo)) :
      (State.replying world stack .done).Seated (trace ++ []) := by
    rw [List.append_nil]
    refine seat.act but rfl ?_
    intro machine form position here was library
    obtain ⟨_, _, _, _, _, values, _, rfl, pauses⟩ := heard here was library
    exact absurd (here ▸ pauses.body) (other _)
  simp only [announcedProgress, World.returned]
  cases body : world.body? place with
  | none => exact foreign (by simp [body])
  | some found =>
      cases found with
      | custom _ | pipeline _ => exact foreign (by simp [body])
      | cubeRoot demo =>
          have alike {machine : Nat} {input : Float} {cube root : Float → Program}
              {dispatcher : Dispatcher} {announce : Announcement → Program}
              {values : List Value} {point : Point} (here : place = .started machine)
              (pauses : Phase.Pauses machine (.cubeRoot input cube root dispatcher announce)
                trace world values point) :
              demo = { (CubeRoot.fresh input cube root dispatcher announce).holding values with
                dispatched := values.length } := by
            have same := (here ▸ body).symm.trans pauses.body
            simpa [Machine.bodyAfter] using same
          cases announcement with
          | started =>
              refine launchingWork_seated seat but custody body ?_
              intro machine form here was library
              have sits := waits machine form here was library
              cases form with
              | custom _ | pipeline _ _ _ _ => exact sits.elim
              | cubeRoot _ _ _ _ _ =>
                  have same := alike here sits.2
                  subst same
                  exact ⟨[], rfl, rfl, sits.2⟩
          | cube _ =>
              refine launchingWork_seated seat but custody body ?_
              intro machine form here was library
              have sits := waits machine form here was library
              cases form with
              | custom _ | pipeline _ _ _ _ => exact sits.elim
              | cubeRoot _ _ _ _ _ =>
                  obtain ⟨-, cubed, pauses⟩ := sits
                  have same := alike here pauses
                  subst same
                  exact ⟨[cubed], rfl, rfl, pauses⟩
          | root _ =>
              have later : Seat place (trace ++ [.announced place .finished]) world stack :=
                seat.carry seat.present fun _ => by rw [Chronicle.of_snoc]; rfl
              refine later.call (but.after seat.present trivial fun other at_ =>
                (Option.some.inj at_).symm) rfl (fun _ _ same => by cases same) ?_
              intro machine form here was library
              rw [Chronicle.of_snoc] at was
              have sits := waits machine form here was library
              cases form with
              | custom _ | pipeline _ _ _ _ => exact sits.elim
              | cubeRoot input cube root dispatcher announce =>
                  obtain ⟨-, rooted, cubed, stands, held, called⟩ := sits
                  refine ⟨here, rooted, cubed, _, rfl, ⟨?_, ?_⟩, held, ?_⟩
                  · rw [deeds_snoc]
                    simpa [Chronicle.deedsIn, here, Machine.closing] using
                      stands.course.closed rfl
                  · rw [Chronicle.of_snoc]
                    exact stands.through
                  · simpa [Occurrence.calls] using called
          | finished =>
              simp only [List.append_nil]
              refine seat.act but rfl ?_
              intro machine form position here was library
              have sits := waits machine form here was library
              cases form with
              | custom _ | pipeline _ _ _ _ => exact sits.elim
              | cubeRoot input cube root dispatcher announce =>
                  obtain ⟨-, rooted, cubed, value, result, pauses⟩ := sits
                  have same := alike here pauses
                  subst same
                  cases result
                  exact ⟨⟨_, pauses.stands, rfl⟩, by simp [pauses.called, Machine.steps]⟩

/-- The first step of the demonstration announces that it has started. -/
theorem beginningCubeRoot_seated
    (seat : Seat place trace world stack) (seated : Stepwise.Seated trace world stack)
    (body : world.body? place = some (.cubeRoot demo))
    (begins : ∀ machine form, place = .started machine →
      ((Chronicle.of trace).life machine).form = some form → form.isLibrary = true →
        Phase.Begins machine form trace world) :
    (steppingCubeRoot world stack place demo .notStarted).Seated
      (trace ++ world.stepped place .notStarted) := by
  simp only [steppingCubeRoot, World.stepped, body, announcing]
  have later : Seat place (trace ++ [.announced place .started]) world stack :=
    seat.carry seat.present fun _ => by rw [Chronicle.of_snoc]; rfl
  refine later.call ((seated.but place).after seat.present trivial fun other at_ =>
    (Option.some.inj at_).symm) rfl (fun _ _ same => by cases same) ?_
  intro machine form here was library
  rw [Chronicle.of_snoc] at was
  obtain ⟨stands, held, called⟩ := begins machine form here was library
  have same := (here ▸ body).symm.trans held
  cases form with
  | custom _ | pipeline _ _ _ _ => cases same
  | cubeRoot input cube root dispatcher announce =>
      refine ⟨here, ⟨?_, ?_⟩, held, ?_⟩
      · have first : Course (.cubeRoot input cube root dispatcher announce)
            [.announced .started] (.ready []) := .opened
        rw [deeds_snoc, stands.course.deeds_of_fresh]
        simpa [Chronicle.deedsIn, here] using first
      · rw [Chronicle.of_snoc]
        exact stands.through
      · simp [Occurrence.calls, called]

/-- The step after a work notes its value and announces it, or ends with its error. -/
theorem resumingCubeRoot_seated {deferred : Nat} {resumed : CubeRoot}
    {noted : Value → CubeRoot} {announcement : Value → Announcement}
    (seat : Seat place trace world stack) (seated : Stepwise.Seated trace world stack)
    (custody : Custody world.ledger (.of trace) [] stack)
    (body : world.body? place = some (.cubeRoot demo))
    (waiting : deferred ∈ (Body.cubeRoot demo).awaited)
    (fewer : ∀ other ∈ (Body.cubeRoot resumed).awaited,
      other ∈ (Body.cubeRoot demo).awaited)
    (fewerNoted : ∀ value, ∀ other ∈ (Body.cubeRoot (noted value)).awaited,
      other ∈ (Body.cubeRoot demo).awaited)
    (resumes : ∀ machine form, place = .started machine →
      ((Chronicle.of trace).life machine).form = some form → form.isLibrary = true →
        ∃ values, Phase.Resumes machine form trace world values deferred ∧ ∀ value,
          form.bodyAfter (value :: values) (value :: values).length =
            .cubeRoot (noted value) ∧
          form.notice values.length value = .announced (announcement value) ∧
          ∀ later after, Phase.Pauses machine form later after (value :: values)
            (.ready (value :: values)) →
              Phase.Waits machine form later after (.announced place (announcement value))) :
    (takingAwaited (world.modifyBody place fun _ => .cubeRoot resumed) stack deferred
      fun taken value =>
        .announcing (taken.modifyBody place fun _ => .cubeRoot (noted value)) stack place
          (noted value) (announcement value)).Seated
      (trace ++ world.takes deferred fun value => .announced place (announcement value)) := by
  have awaits (other : Nat) (held : other ∈ (Body.cubeRoot demo).awaited) :
      (Chronicle.of trace).Launched place other :=
    seated.grounded.awaits place _ other body held
  rw [← World.takes_congr (World.deferreds_modifyBody place fun _ => .cubeRoot resumed)]
  have moved : SeatedBut place trace (world.modifyBody place fun _ => .cubeRoot resumed)
      stack := by
    refine (seated.but place).modifyBody ?_
    intro _ other _ held
    exact awaits other (fewer other held)
  refine (seat.modifyBody _).take moved (awaits deferred waiting) ?_ ?_
  · intro error machine form fails here was library
    obtain ⟨values, due, -⟩ := resumes machine form here was library
    rw [World.outcome_modifyBody] at fails
    rcases due.retrieved custody with ⟨value, succeeds, -⟩ | ⟨same, failed, settles⟩
    · cases succeeds.symm.trans fails
    · cases failed.symm.trans fails
      exact settles
  · intro value succeeds taken
    rw [World.outcome_modifyBody] at succeeds
    have kept : SeatedBut place trace ((((world.modifyBody place fun _ =>
        .cubeRoot resumed).retrieve deferred).1).modifyBody place fun _ =>
          .cubeRoot (noted value)) stack := by
      refine taken.modifyBody ?_
      intro _ other _ held
      exact awaits other (fewerNoted value other held)
    have present (machine : Nat) (_ : place = .started machine) :
        ((((world.modifyBody place fun _ => .cubeRoot resumed).retrieve
        deferred).1.modifyBody place fun _ => .cubeRoot (noted value)).body?
          place).isSome = true := by
      simp [World.body?_modifyBody, body]
    have later : Seat place (trace ++ [.announced place (announcement value)]) _ stack :=
      seat.carry present fun _ => by rw [Chronicle.of_snoc]; rfl
    refine later.call (kept.after present trivial fun other at_ =>
      (Option.some.inj at_).symm) rfl (fun _ _ same => by cases same) ?_
    intro machine form here was library
    rw [Chronicle.of_snoc] at was
    obtain ⟨values, due, notes⟩ := resumes machine form here was library
    obtain ⟨held, notice, waits⟩ := notes value
    subst here
    rcases due.retrieved custody with ⟨same, took, stands⟩ | ⟨error, failed, -⟩
    · cases took.symm.trans succeeds
      refine waits _ _ ⟨stands.noticed ?_ rfl, ?_, ?_⟩
      · rw [notice]
        simp [Chronicle.deedsIn]
      · rw [held]
        simp [World.body?_modifyBody, body]
      · simp [Occurrence.calls, due.called]
    · cases failed.symm.trans succeeds

/-- The step of the demonstration. -/
theorem steppingCubeRoot_seated {position : Position}
    (seat : Seat place trace world stack) (seated : Stepwise.Seated trace world stack)
    (custody : Custody world.ledger (.of trace) [] stack)
    (body : world.body? place = some (.cubeRoot demo))
    (acts : ∀ machine form, place = .started machine →
      ((Chronicle.of trace).life machine).form = some form → form.isLibrary = true →
        Phase.Acts machine form trace world position (.task (.step place position))) :
    (steppingCubeRoot world stack place demo position).Seated
      (trace ++ world.stepped place position) := by
  have mine {machine : Nat} {form : Machine} {number : Nat}
      (here : place = .started machine)
      (was : ((Chronicle.of trace).life machine).form = some form)
      (library : form.isLibrary = true) (at_ : position = .suspension number) :
      ∃ input cube root dispatcher announce values deferred,
        form = .cubeRoot input cube root dispatcher announce ∧ number = values.length ∧
        Phase.Resumes machine form trace world values deferred ∧
        (Body.cubeRoot demo) = (form.bodyAfter values (values.length + 1)).await
          values.length deferred ∧ (number = 0 ∨ number = 1) := by
    obtain ⟨-, -, ⟨first, -⟩ | ⟨values, deferred, same, due⟩⟩ := acts machine form here was
      library
    · rw [at_] at first
      cases first
    · cases at_.symm.trans same
      have alike := Option.some.inj ((here ▸ body).symm.trans due.body)
      cases form with
      | custom _ | pipeline _ _ _ _ => cases alike
      | cubeRoot input cube root dispatcher announce =>
          refine ⟨input, cube, root, dispatcher, announce, values, deferred, rfl, rfl, due,
            alike, ?_⟩
          obtain ⟨work, fate, planned, -⟩ := due.expects.planned
          rcases values with _ | ⟨_, _ | _⟩
          · exact .inl rfl
          · exact .inr rfl
          · cases planned
  have unknown (none : ∀ machine form, place = .started machine →
      ((Chronicle.of trace).life machine).form = some form → form.isLibrary = true → False) :
      (unknownStep world stack position).Seated (trace ++ []) := by
    rw [List.append_nil]
    exact seat.act (seated.but place) rfl fun machine form _ here was library =>
      (none machine form here was library).elim
  cases position with
  | notStarted =>
      refine beginningCubeRoot_seated seat seated body ?_
      intro machine form here was library
      obtain ⟨-, -, ⟨-, begins⟩ | ⟨_, _, later, -⟩⟩ := acts machine form here was library
      · exact begins
      · cases later
  | finished =>
      simp only [steppingCubeRoot, World.stepped, body]
      refine unknown ?_
      intro machine form here was library
      obtain ⟨-, -, ⟨first, -⟩ | ⟨_, _, later, -⟩⟩ := acts machine form here was library
      · cases first
      · cases later
  | suspension number =>
      rcases number with _ | _ | _
      · simp only [steppingCubeRoot, World.stepped, body]
        cases waiting : demo.awaitedCube with
        | none =>
            refine unknown ?_
            intro machine form here was library
            obtain ⟨_, _, _, _, _, values, _, rfl, counted, -, alike, -⟩ :=
              mine here was library rfl
            obtain rfl := List.length_eq_zero_iff.mp counted.symm
            cases alike
            cases waiting
        | some deferred =>
            refine resumingCubeRoot_seated seat seated custody body
              (by simp [Body.awaited, waiting]) ?_ ?_ ?_
            · intro other held
              simpa [Body.awaited] using .inr (by simpa [Body.awaited] using held)
            · intro value other held
              simpa [Body.awaited] using .inr (by simpa [Body.awaited] using held)
            · intro machine form here was library
              obtain ⟨_, _, _, _, _, values, _, rfl, counted, due, alike, -⟩ :=
                mine here was library rfl
              obtain rfl := List.length_eq_zero_iff.mp counted.symm
              cases alike
              cases waiting
              exact ⟨[], due, fun value => ⟨rfl, rfl, fun _ _ pauses =>
                ⟨here, value, pauses⟩⟩⟩
      · simp only [steppingCubeRoot, World.stepped, body]
        cases waiting : demo.awaitedRoot with
        | none =>
            refine unknown ?_
            intro machine form here was library
            obtain ⟨_, _, _, _, _, values, _, rfl, counted, -, alike, -⟩ :=
              mine here was library rfl
            obtain ⟨cubed, rfl⟩ := List.length_eq_one_iff.mp counted.symm
            cases alike
            cases waiting
        | some deferred =>
            refine resumingCubeRoot_seated seat seated custody body
              (by simp [Body.awaited, waiting]) ?_ ?_ ?_
            · intro other held
              simpa [Body.awaited] using .inl (by simpa [Body.awaited] using held)
            · intro value other held
              simpa [Body.awaited] using .inl (by simpa [Body.awaited] using held)
            · intro machine form here was library
              obtain ⟨_, _, _, _, _, values, _, rfl, counted, due, alike, -⟩ :=
                mine here was library rfl
              obtain ⟨cubed, rfl⟩ := List.length_eq_one_iff.mp counted.symm
              cases alike
              cases waiting
              exact ⟨[cubed], due, fun value => ⟨rfl, rfl, fun _ _ pauses =>
                ⟨here, value, cubed, pauses⟩⟩⟩
      · simp only [steppingCubeRoot, World.stepped, body]
        refine unknown ?_
        intro machine form here was library
        obtain ⟨_, _, _, _, _, _, _, -, -, -, -, zero | one⟩ := mine here was library rfl
        · cases zero
        · cases one

end Stepwise.State
