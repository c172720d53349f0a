import Stepwise.Proofs.Course.Strides

/-!
# The call and the end of a step

A machine is claimed once at most, so its step is under way once at most.  While it is,
only what waits within it sits on the frame that waits for its end.
-/

namespace Stepwise

variable {trace : List Occurrence} {world : World} {stack : Stack} {machine : Nat}
  {place : Place} {frame : Frame}

/-! ## Steps under way -/

namespace Custody

variable {ledger : Ledger} {chronicle : Chronicle} {inHand : List Holding}

/-- A machine is claimed once at most. -/
theorem claims_le_one (custody : Custody ledger chronicle inHand stack) (machine : Nat) :
    ledger.total inHand stack (.claim machine) ≤ 1 := by
  have account := custody.machines machine
  cases lookup : ledger.activations.get? machine with
  | none =>
      simp only [Ledger.MachineAccount, lookup] at account
      omega
  | some found =>
      simp only [Ledger.MachineAccount, lookup, Activation.Accords] at account
      obtain ⟨-, -, status⟩ := account
      cases state : found.status <;> simp only [state] at status <;> omega

/-- A machine that nobody claims is stepped by no frame. -/
theorem stepping_notMem (unclaimed : ledger.total [] stack (.claim machine) = 0) :
    Frame.stepping machine ∉ stack := by
  intro member
  have held : Holding.stepping machine ∈ Stack.holdings stack :=
    List.mem_flatMap.mpr ⟨_, member, List.mem_singleton.mpr rfl⟩
  have positive : 0 < ledger.total [] stack (.claim machine) :=
    Ledger.total_pos_of_mem held (List.mem_singleton.mpr rfl)
  omega

/-- A frame that steps a machine waits for the end of its last step. -/
theorem step_of_stepping (custody : Custody ledger chronicle inHand stack)
    (member : Frame.stepping machine ∈ stack) :
    ∃ found, ledger.activations.get? machine = some found ∧
      (chronicle.life machine).step = some (found.position, none) := by
  have held : Holding.stepping machine ∈ Stack.holdings stack :=
    List.mem_flatMap.mpr ⟨_, member, List.mem_singleton.mpr rfl⟩
  exact custody.rightful _ (List.mem_append_right _ held)

/-- One frame at most steps a machine. -/
theorem stepping_notMem_tail (custody : Custody ledger chronicle inHand stack)
    (steps : Stack.stepper? stack = some machine) : Frame.stepping machine ∉ stack.tail := by
  intro member
  cases stack with
  | nil => cases steps
  | cons below rest =>
      cases below with
      | stepping other =>
          cases steps
          have once := custody.claims_le_one machine
          have twice : 0 < ledger.total [] rest (.claim machine) :=
            Nat.pos_of_ne_zero fun zero => stepping_notMem zero member
          have counted := Ledger.total_inHand ledger inHand (.stepping machine :: rest)
            (.claim machine)
          simp only [Ledger.total, Stack.holdings_cons, Frame.holdings, List.nil_append,
            Holding.amount_append, Holding.amount_cons, Holding.assets,
            List.count_singleton_self] at once twice counted
          omega
      | _ => cases steps

end Custody

/-- What waits within a step sits at its place. -/
theorem Phase.Waits.within {form : Machine} (waits : Phase.Waits machine form trace world frame) :
    frame.place? = some (.started machine) := by
  cases frame with
  | launched place number deferred =>
      rw [Phase.waits_launched] at waits
      rw [← waits.1]
      rfl
  | inspected place number value =>
      cases form with
      | pipeline _ _ _ _ =>
          rw [← waits.1]
          rfl
      | _ => exact waits.elim
  | announced place announcement =>
      cases form with
      | cubeRoot _ _ _ _ _ =>
          rw [← waits.1]
          rfl
      | _ => exact waits.elim
  | _ => cases form <;> exact waits.elim

namespace Seated

/-- What sits on the step of a library machine waits within it. -/
theorem waits (seated : Seated trace world (frame :: stack))
    (custody : Custody world.ledger (.of trace) [] (frame :: stack))
    {form : Machine} (steps : Stack.stepper? stack = some machine)
    (was : ((Chronicle.of trace).life machine).form = some form)
    (library : form.isLibrary = true) : Phase.Waits machine form trace world frame := by
  have phase := seated.phases machine form was library
  obtain ⟨found, -, under⟩ := custody.step_of_stepping
    (List.mem_cons_of_mem _ (Stack.stepping_mem_of_stepper steps))
  simp only [Phase, under] at phase
  exact phase frame (Stack.seats_cons.mpr (.inl ⟨rfl, steps⟩))

/-- Beneath a frame that is within no step, no library machine waits for its step. -/
theorem free (seated : Seated trace world (frame :: stack))
    (custody : Custody world.ledger (.of trace) [] (frame :: stack))
    (outside : frame.place? = none) : stack.Free (.of trace) := by
  intro machine form steps was
  cases library : form.isLibrary with
  | false => rfl
  | true =>
      have sits := seated.waits custody steps was library
      simp [sits.within] at outside

theorem pop (seated : Seated trace world (frame :: stack)) : Seated trace world stack where
  grounded :=
    { seated.grounded with
      founded := seated.grounded.founded.2
      launches := fun place number deferred member =>
        seated.grounded.launches place number deferred (List.mem_cons_of_mem _ member) }
  phases := fun machine form was library =>
    (seated.phases machine form was library).carry (fun _ found => found)
      (fun _ _ taken => taken) fun _ seats => .above seats

end Seated

/-- The step at a place is under way, by the custody of the frame that waits for it. -/
theorem Seat.of_custody (custody : Custody world.ledger (.of trace) [] stack)
    (steps : ∀ machine, place = .started machine → Stack.stepper? stack = some machine)
    (apart : ∀ machine form, Stack.stepper? stack = some machine →
      ((Chronicle.of trace).life machine).form = some form → form.isLibrary = true →
        place = .started machine) :
    Seat place trace world stack where
  present := by
    rintro machine rfl
    obtain ⟨found, lookup, -⟩ := custody.step_of_stepping
      (Stack.stepping_mem_of_stepper (steps machine rfl))
    have present : world.activations.get? machine = some found := lookup
    simp [World.body?, present]
  steps := by
    intro machine here
    obtain ⟨found, -, under⟩ := custody.step_of_stepping
      (Stack.stepping_mem_of_stepper (steps machine here))
    exact ⟨steps machine here, ⟨_, under⟩, custody.stepping_notMem_tail (steps machine here)⟩
  apart := apart

/-- A frame within a step sits in the seat of its place. -/
theorem Seat.of_frame (seated : Seated trace world (frame :: stack))
    (custody : Custody world.ledger (.of trace) [] (frame :: stack))
    (quiet : frame.holdings = []) (within : frame.place? = some place) :
    Seat place trace world stack := by
  have beneath : Custody world.ledger (.of trace) [] stack := by
    have popped := custody.pop
    rw [quiet] at popped
    exact popped
  refine .of_custody beneath ?_ ?_
  · rintro machine rfl
    exact seated.grounded.founded.1 machine within
  · intro machine form steps was library
    have sits := (seated.waits custody steps was library).within
    rw [within] at sits
    exact Option.some.inj sits

/-! ## The call of a step -/

/-- The frame that waits for a step belongs to no place. -/
theorem Grounded.call (grounded : Grounded trace world stack) (machine : Nat)
    (record : Record) : Grounded trace (world.record record) (.stepping machine :: stack) where
  founded := ⟨fun _ within => by simp [Frame.place?] at within, grounded.founded⟩
  launches := by
    intro place number deferred member
    simp only [List.mem_cons, reduceCtorEq, false_or] at member
    exact grounded.launches place number deferred member
  awaits := by
    intro place body deferred found waits
    exact grounded.awaits place body deferred (by cases place <;> exact found) waits
  owners := grounded.owners
  unborn := grounded.unborn

namespace Phase

variable {form : Machine} {position : Position}

/-- What a machine's step is called with, by how the last one has ended. -/
theorem acts_called {found : Activation} {record : Record}
    (phase : Phase machine form trace world stack)
    (custody : Custody world.ledger (.of trace) [.advancing machine] stack)
    (lookup : world.activations.get? machine = some found) :
    Acts machine form (trace ++ [.called machine found.position]) (world.record record)
      found.position (.task (.step (.started machine) found.position)) := by
  have called : calls machine (trace ++ [.called machine found.position]) =
      calls machine trace + 1 := by
    simp [Occurrence.calls]
  obtain ⟨same, sameLookup, ready⟩ := custody.rightful_head
  cases lookup.symm.trans sameLookup
  refine ⟨rfl, rfl, ?_⟩
  rcases ready with ⟨position, -, unstepped⟩ | ⟨resumeAt, deferred, position, awaits, complete⟩
  · simp only [Phase, unstepped] at phase
    obtain ⟨stands, body, uncalled⟩ := phase
    exact .inl ⟨position, stands.silent rfl rfl, body, by rw [called, uncalled]⟩
  · obtain ⟨last, ended⟩ := awaits
    simp only [Phase, ended] at phase
    obtain ⟨values, rfl, expects, body, counted⟩ := phase
    refine .inr ⟨values, deferred, position, ?_, complete, body, by rw [called, counted]⟩
    exact (expects.silent rfl rfl).carry fun _ _ taken => taken

end Phase

/-- The step of a machine is called. -/
theorem State.called_seated {found : Activation} {record : Record}
    (seated : Stepwise.Seated trace world stack) (free : stack.Free (.of trace))
    (custody : Custody world.ledger (.of trace) [.advancing machine] stack)
    (lookup : world.activations.get? machine = some found)
    (permitted : (Chronicle.of trace).Permits (.called machine found.position)) :
    State.Seated (trace ++ [.called machine found.position])
      ⟨world.record record, .stepping machine :: stack,
        .task (.step (.started machine) found.position)⟩ := by
  obtain ⟨again, claimed⟩ := custody.claimed machine rfl
  have unstepped : Frame.stepping machine ∉ stack := Custody.stepping_notMem claimed.claims
  have present : (world.body? (.started machine)).isSome = true := by
    simp [World.body?, lookup]
  have lifeOf (other : Nat) :
      (Chronicle.of (trace ++ [.called machine found.position])).life other =
        if other = machine then
          { (Chronicle.of trace).life other with step := some (found.position, none) }
        else (Chronicle.of trace).life other := by
    rw [Chronicle.of_snoc]
    rfl
  refine ⟨⟨(seated.grounded.after permitted ?_).call machine record, ?_⟩, ?_, ?_⟩
  · rintro other ⟨⟩
    exact present
  · intro other form was library
    by_cases same : other = machine
    · subst same
      simp only [Phase, lifeOf, if_true]
      intro frame seats
      rcases Stack.seats_cons.mp seats with ⟨-, steps⟩ | seats
      · exact absurd (Stack.stepping_mem_of_stepper steps) unstepped
      · exact absurd seats (Stack.not_seats unstepped)
    · rw [lifeOf, if_neg same] at was
      have foreign : (Occurrence.called machine found.position).place? ≠
          some (.started other) := by
        simp [Occurrence.place?, Ne.symm same]
      refine ((seated.phases other form was library).after permitted foreign).carry
        (fun _ body => body) (fun _ _ taken => taken) ?_
      intro frame seats
      rcases Stack.seats_cons.mp seats with ⟨-, steps⟩ | seats
      · simp [free other form steps was] at library
      · exact seats
  · rintro other ⟨⟩
    rfl
  · rintro other form position ⟨⟩ was library step
    rw [lifeOf, if_pos rfl] at was step
    cases step
    exact (seated.phases machine form was library).acts_called custody lookup

/-! ## The end of a step -/

namespace Phase

variable {form : Machine} {position : Position} {ending : StepEnd} {outcome : Outcome}

theorem Settles.silent (settles : Settles machine form trace outcome) :
    Settles machine form (trace ++ [.ended machine ending]) outcome := by
  obtain ⟨⟨point, stands, settled⟩, called⟩ := settles
  exact ⟨⟨point, stands.silent rfl rfl, settled⟩, by simpa [Occurrence.calls] using called⟩

/-- How a step ends by a reply is how its machine stands. -/
theorem of_reply {reply : Reply} (acts : Acts machine form trace world position (.reply reply))
    (step : ((Chronicle.of (trace ++ [.ended machine (.returned (world.judge machine reply))])).life
      machine).step = some (position, some (.returned (world.judge machine reply)))) :
    Phase machine form (trace ++ [.ended machine (.returned (world.judge machine reply))])
      world stack := by
  simp only [Phase, step]
  simp only [Acts] at acts
  cases result : world.judge machine reply with
  | complete value =>
      rw [result] at acts
      exact Settles.silent acts
  | fail error =>
      rw [result] at acts
      exact Settles.silent acts
  | await resumeAt deferred =>
      rw [result] at acts
      obtain ⟨values, counted, expects, body, called⟩ := acts
      exact ⟨values, counted, expects.silent rfl rfl, body,
        by simpa [Occurrence.calls] using called⟩

/-- So it is when a step ends by a panic. -/
theorem of_unwind {payload : Payload}
    (acts : Acts machine form trace world position (.unwind payload))
    (step : ((Chronicle.of (trace ++ [.ended machine (.panicked payload)])).life
      machine).step = some (position, some (.panicked payload))) :
    Phase machine form (trace ++ [.ended machine (.panicked payload)]) world stack := by
  simp only [Phase, step]
  obtain ⟨⟨point, stands⟩, cause, called⟩ := acts
  exact ⟨⟨point, stands.silent rfl rfl⟩, cause.imp_left fun member =>
    List.mem_append_left _ member, by simpa [Occurrence.calls] using called⟩

end Phase

/-- When a step ends, no step of a library machine waits right beneath it. -/
theorem Seated.ended {ending : StepEnd}
    (seated : Seated trace world (.stepping machine :: stack))
    (custody : Custody world.ledger (.of trace) [] (.stepping machine :: stack))
    (phase : ∀ form position, ((Chronicle.of trace).life machine).form = some form →
      form.isLibrary = true →
        ((Chronicle.of trace).life machine).step = some (position, none) →
        ((Chronicle.of (trace ++ [.ended machine ending])).life machine).step =
          some (position, some ending) →
          Phase machine form (trace ++ [.ended machine ending]) world stack) :
    Seated (trace ++ [.ended machine ending]) world stack ∧
      stack.Free (.of (trace ++ [.ended machine ending])) := by
  obtain ⟨found, lookup, under⟩ := custody.step_of_stepping (List.mem_cons_self ..)
  have present : (world.body? (.started machine)).isSome = true := by
    have activation : world.activations.get? machine = some found := lookup
    simp [World.body?, activation]
  have permitted : (Chronicle.of trace).Permits (.ended machine ending) :=
    State.permits_ended custody.pop
  have lifeOf (other : Nat) :
      (Chronicle.of (trace ++ [.ended machine ending])).life other =
        if other = machine then
          { (Chronicle.of trace).life other with
            step := ((Chronicle.of trace).life other).step.map
              fun step => (step.1, some ending) }
        else (Chronicle.of trace).life other := by
    rw [Chronicle.of_snoc]
    rfl
  have formOf (other : Nat) :
      ((Chronicle.of (trace ++ [.ended machine ending])).life other).form =
        ((Chronicle.of trace).life other).form := by
    rw [lifeOf]
    split <;> rfl
  refine ⟨⟨seated.pop.grounded.after permitted ?_, ?_⟩, ?_⟩
  · rintro other ⟨⟩
    exact present
  · intro other form was library
    rw [formOf] at was
    by_cases same : other = machine
    · subst same
      refine phase form found.position was library under ?_
      rw [lifeOf, if_pos rfl, under]
      rfl
    · have foreign : (Occurrence.ended machine ending).place? ≠ some (.started other) := by
        simp [Occurrence.place?, Ne.symm same]
      exact (seated.pop.phases other form was library).after permitted foreign
  · intro other form steps was
    rw [formOf] at was
    exact seated.free custody rfl other form steps was

end Stepwise
