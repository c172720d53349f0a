import Stepwise.Proofs.Course.Seated

/-!
# Strides

A stride is what the step of a machine does at once: it changes the body at its place,
takes what it awaited, and then replies, calls the hook, or dispatches a work.  Everybody
else stays seated meanwhile; the machine at the place is in its seat again when the
stride ends in an act of its own or in a frame that waits for it.
-/

namespace Stepwise

variable {place : Place} {trace : List Occurrence} {world later : World} {stack : Stack}

/-- Everything is where it belongs, and each library machine is in its phase, but for the
one at a place. -/
structure SeatedBut (place : Place) (trace : List Occurrence) (world : World)
    (stack : Stack) : Prop where
  grounded : Grounded trace world stack
  phases : ∀ machine form, place ≠ .started machine →
    ((Chronicle.of trace).life machine).form = some form → form.isLibrary = true →
      Phase machine form trace world stack

/-- The step at a place is under way on top of a stack. -/
structure Seat (place : Place) (trace : List Occurrence) (world : World) (stack : Stack) :
    Prop where
  present : ∀ machine, place = .started machine → (world.body? place).isSome = true
  steps : ∀ machine, place = .started machine → Stack.stepper? stack = some machine ∧
    (∃ position, ((Chronicle.of trace).life machine).step = some (position, none)) ∧
    Frame.stepping machine ∉ stack.tail
  apart : ∀ machine form, Stack.stepper? stack = some machine →
    ((Chronicle.of trace).life machine).form = some form → form.isLibrary = true →
      place = .started machine

theorem Seated.but (seated : Seated trace world stack) (place : Place) :
    SeatedBut place trace world stack :=
  ⟨seated.grounded, fun machine form _ => seated.phases machine form⟩

/-! ## Bodies and outcomes -/

namespace World

theorem body?_modifyBody (world : World) (place other : Place) (change : Body → Body) :
    (world.modifyBody place change).body? other =
      if place = other then (world.body? other).map change else world.body? other := by
  cases place with
  | started machine =>
      cases other with
      | kept number => simp [modifyBody, body?, modifyActivation]
      | started another =>
          simp only [modifyBody, body?, modifyActivation, Store.get?_modify,
            Place.started.injEq]
          split
          · cases world.activations.get? another <;> simp
          · rfl
  | kept number =>
      cases other with
      | started machine => simp [modifyBody, body?]
      | kept another => simp [modifyBody, body?]

@[simp] theorem body?_retrieve (world : World) (deferred : Nat) (place : Place) :
    (world.retrieve deferred).1.body? place = world.body? place := by
  unfold retrieve
  split
  · rfl
  · cases place <;> rfl

@[simp] theorem outcome_modifyBody (world : World) (place : Place) (change : Body → Body)
    (deferred : Nat) :
    ((world.modifyBody place change).retrieve deferred).2 = (world.retrieve deferred).2 := by
  unfold retrieve
  rw [deferreds_modifyBody]
  cases world.deferreds.get? deferred <;> rfl

/-- A change of a body takes no outcome. -/
theorem taken_modifyBody {deferred : Nat} {change : Body → Body}
    (taken : (world.modifyBody place change).Taken deferred) : world.Taken deferred := by
  simpa [Taken] using taken

/-- To retrieve an outcome takes no other. -/
theorem taken_retrieve {deferred other : Nat}
    (taken : (world.retrieve other).1.Taken deferred) :
    world.Taken deferred ∨ deferred = other := by
  have calm : world.Calm (· = other) (fun _ => True) (world.retrieve other).1 := .retrieve other rfl
  exact calm.taken deferred taken

end World

namespace SeatedBut

/-- What a stride does happens at its place. -/
theorem after {occurrence : Occurrence} (but : SeatedBut place trace world stack)
    (present : ∀ machine, place = .started machine → (world.body? place).isSome = true)
    (permitted : (Chronicle.of trace).Permits occurrence)
    (here : ∀ other, occurrence.place? = some other → other = place) :
    SeatedBut place (trace ++ [occurrence]) world stack where
  grounded := by
    refine but.grounded.after permitted ?_
    intro machine at_
    rw [here _ at_]
    exact present machine (here _ at_).symm
  phases := by
    intro machine form elsewhere was library
    have foreign : occurrence.place? ≠ some (.started machine) := fun at_ =>
      elsewhere (here _ at_).symm
    rw [Chronicle.of_snoc, (Chronicle.step_after foreign).2] at was
    exact (but.phases machine form elsewhere was library).after permitted foreign

theorem afterAll {occurrences : List Occurrence} (but : SeatedBut place trace world stack)
    (present : ∀ machine, place = .started machine → (world.body? place).isSome = true)
    (permitted : (Chronicle.of trace).PermitsAll occurrences)
    (here : ∀ occurrence ∈ occurrences, ∀ other, occurrence.place? = some other →
      other = place) :
    SeatedBut place (trace ++ occurrences) world stack := by
  induction occurrences generalizing trace with
  | nil => simpa using but
  | cons occurrence rest ih =>
      obtain ⟨allowed, later⟩ := permitted
      have next := but.after present allowed (here occurrence (List.mem_cons_self ..))
      rw [← Chronicle.of_snoc] at later
      have all := ih next later fun other member =>
        here other (List.mem_cons_of_mem _ member)
      simpa using all

/-- The body at the place is the stride's own affair, as long as it awaits no more than
what the place has launched. -/
theorem modifyBody {change : Body → Body} (but : SeatedBut place trace world stack)
    (awaited : ∀ body deferred, world.body? place = some body →
      deferred ∈ (change body).awaited → (Chronicle.of trace).Launched place deferred) :
    SeatedBut place trace (world.modifyBody place change) stack where
  grounded := by
    obtain ⟨founded, launches, awaits, owners, unborn⟩ := but.grounded
    refine ⟨founded, launches, ?_, ?_, ?_⟩
    · intro other body deferred found waits
      rw [World.body?_modifyBody] at found
      split at found
      · next same =>
          subst same
          obtain ⟨was, present, rfl⟩ := Option.map_eq_some_iff.mp found
          exact awaited was deferred present waits
      · exact awaits other body deferred found waits
    · intro machine deferred launched
      have present := owners machine deferred launched
      rw [World.body?_modifyBody]
      split
      · simpa using present
      · exact present
    · intro machine absent
      refine unborn machine ?_
      rw [World.body?_modifyBody] at absent
      split at absent
      · simpa using absent
      · exact absent
  phases := by
    intro machine form elsewhere was library
    refine (but.phases machine form elsewhere was library).carry ?_
      (fun _ _ taken => World.taken_modifyBody taken) fun _ seats => seats
    intro body found
    rw [World.body?_modifyBody, if_neg elsewhere]
    exact found

/-- The outcome of what the place has launched is the stride's own to take. -/
theorem retrieve {deferred : Nat} (but : SeatedBut place trace world stack)
    (launched : (Chronicle.of trace).Launched place deferred) :
    SeatedBut place trace (world.retrieve deferred).1 stack where
  grounded := by
    obtain ⟨founded, launches, awaits, owners, unborn⟩ := but.grounded
    refine ⟨founded, launches, ?_, ?_, ?_⟩
    · intro other body awaited found waits
      rw [World.body?_retrieve] at found
      exact awaits other body awaited found waits
    · intro machine awaited owned
      rw [World.body?_retrieve]
      exact owners machine awaited owned
    · intro machine absent
      rw [World.body?_retrieve] at absent
      exact unborn machine absent
  phases := by
    intro machine form elsewhere was library
    refine (but.phases machine form elsewhere was library).carry ?_ ?_ fun _ seats => seats
    · intro body found
      rw [World.body?_retrieve]
      exact found
    · intro other owned taken
      rcases World.taken_retrieve taken with before | rfl
      · exact before
      · exact absurd (launched.unique owned) elsewhere

end SeatedBut

/-! ## The end of a stride -/

namespace Seat

/-- The seat stays while bodies change and things happen at its place. -/
theorem carry {occurrences : List Occurrence} (seat : Seat place trace world stack)
    (present : ∀ machine, place = .started machine → (later.body? place).isSome = true)
    (lives : ∀ machine, (Chronicle.of (trace ++ occurrences)).life machine =
      (Chronicle.of trace).life machine) :
    Seat place (trace ++ occurrences) later stack := by
  refine ⟨present, ?_, ?_⟩
  · intro machine here
    rw [lives]
    exact seat.steps machine here
  · intro machine form steps was library
    rw [lives] at was
    exact seat.apart machine form steps was library

theorem modifyBody (seat : Seat place trace world stack) (change : Body → Body) :
    Seat place trace (world.modifyBody place change) stack :=
  ⟨fun machine here => by simpa [World.body?_modifyBody] using seat.present machine here,
    seat.steps, seat.apart⟩

/-- The stride ends in an act of the machine itself. -/
theorem act {control : Control} (seat : Seat place trace world stack)
    (but : SeatedBut place trace later stack) (plain : control.place? = none)
    (acts : ∀ machine form position, place = .started machine →
      ((Chronicle.of trace).life machine).form = some form → form.isLibrary = true →
        Phase.Acts machine form trace later position control) :
    State.Seated trace ⟨later, stack, control⟩ := by
  refine ⟨⟨but.grounded, ?_⟩, ?_, ?_⟩
  · intro machine form was library
    by_cases here : place = .started machine
    · obtain ⟨steps, ⟨position, under⟩, alone⟩ := seat.steps machine here
      unfold Phase
      rw [under]
      intro frame seats
      -- Nothing sits on the machine's step but control itself.
      cases stack with
      | nil => cases steps
      | cons below rest =>
          rcases Stack.seats_cons.mp seats with ⟨-, deeper⟩ | deeper
          · exact absurd (Stack.stepping_mem_of_stepper deeper) alone
          · exact absurd deeper (Stack.not_seats alone)
    · exact but.phases machine form here was library
  · intro machine at_
    have nowhere : (none : Option Place) = some (.started machine) := plain.symm.trans at_
    cases nowhere
  · intro machine form position steps was library _
    exact acts machine form position (seat.apart machine form steps was library) was library

/-- The stride ends in a frame within the step, with calm things above. -/
theorem wait {may shared : Nat → Prop} {frame : Frame} {after : State}
    (seat : Seat place trace world stack) (but : SeatedBut place trace later stack)
    (within : frame.place? = some place)
    (launched : ∀ number deferred, frame = .launched place number deferred →
      (Chronicle.of trace).Launched place deferred)
    (calm : State.Calm may shared later (frame :: stack) after)
    (foreign : ∀ deferred, may deferred → ∀ place,
      ¬ (Chronicle.of trace).Launched place deferred)
    (waits : ∀ machine form, place = .started machine →
      ((Chronicle.of trace).life machine).form = some form → form.isLibrary = true →
        Phase.Waits machine form trace later frame) :
    after.Seated trace := by
  have quiet : frame.steps? = none := by
    cases frame <;> first | rfl | cases within
  have free : Stack.Free (.of trace) (frame :: stack) := by
    intro machine form steps
    rw [Stack.stepper?, quiet] at steps
    cases steps
  refine Seated.calm ⟨⟨?_, ?_, but.grounded.awaits, but.grounded.owners,
    but.grounded.unborn⟩, ?_⟩ free foreign calm
  · refine ⟨?_, but.grounded.founded⟩
    intro machine at_
    rw [within, Option.some.injEq] at at_
    exact (seat.steps machine at_).1
  · intro other number deferred member
    rcases List.mem_cons.mp member with same | below
    · subst same
      cases within
      exact launched number deferred rfl
    · exact but.grounded.launches other number deferred below
  · intro machine form was library
    by_cases here : place = .started machine
    · obtain ⟨steps, ⟨position, under⟩, alone⟩ := seat.steps machine here
      unfold Phase
      rw [under]
      intro other seats
      rcases Stack.seats_cons.mp seats with ⟨rfl, -⟩ | below
      · exact waits machine form here was library
      · cases stack with
        | nil => cases steps
        | cons lower rest =>
            rcases Stack.seats_cons.mp below with ⟨-, deeper⟩ | deeper
            · exact absurd (Stack.stepping_mem_of_stepper deeper) alone
            · exact absurd deeper (Stack.not_seats alone)
    · refine (but.phases machine form here was library).carry (fun _ found => found)
        (fun _ _ taken => taken) ?_
      intro other seats
      rcases Stack.seats_cons.mp seats with ⟨-, steps⟩ | below
      · exact absurd (seat.apart machine form steps was library) here
      · exact below

/-- The stride ends in a call of the hook. -/
theorem call {frame : Frame} {body : Program} (seat : Seat place trace world stack)
    (but : SeatedBut place trace later stack) (within : frame.place? = some place)
    (hook : ∀ number deferred, frame ≠ .launched place number deferred)
    (waits : ∀ machine form, place = .started machine →
      ((Chronicle.of trace).life machine).form = some form → form.isLibrary = true →
        Phase.Waits machine form trace later frame) :
    State.Seated trace ⟨later, frame :: stack, .program body⟩ := by
  have calm : State.Calm (fun _ => False) (fun _ => True) later (frame :: stack)
      ⟨later, frame :: stack, .program body⟩ := ⟨.refl later, ⟨[], rfl, rfl⟩, rfl⟩
  exact seat.wait but within (fun number deferred same => absurd same (hook number deferred))
    calm (fun _ never => never.elim) waits

end Seat

end Stepwise
