import Stepwise.Proofs.Course.Seats

/-!
# Calm changes

Most of what a small step does is calm: it changes no body, takes no outcome and listens
to no deferred that is none of its business, and stacks plain frames.
-/

namespace Stepwise

/-- A new body awaits nothing. -/
theorem Machine.awaited_body (machine : Machine) : machine.body.awaited = [] := by
  cases machine <;> rfl

/-- How far a deferred may come: it is completed at most once, and its outcome stays as it
is until it is taken. -/
inductive Progress.Onward : Progress → Progress → Prop where
  | pending {later : Progress} : Onward .pending later
  | kept {outcome : Outcome} : Onward (.complete outcome) (.complete outcome)
  | retrieved {outcome : Outcome} : Onward (.complete outcome) .taken
  | taken : Onward .taken .taken

namespace Progress.Onward

theorem refl (progress : Progress) : progress.Onward progress := by
  cases progress with
  | pending => exact .pending
  | complete _ => exact .kept
  | taken => exact .taken

theorem trans {progress middle later : Progress} (first : progress.Onward middle)
    (second : middle.Onward later) : progress.Onward later := by
  cases first with
  | pending => exact .pending
  | kept => exact second
  | retrieved => cases second; exact .retrieved
  | taken => exact second

end Progress.Onward

/-- The outcome of a deferred has been taken. -/
def World.Taken (world : World) (deferred : Nat) : Prop :=
  ∃ found, world.deferreds.get? deferred = some found ∧ found.progress = .taken

/-- Nobody listens to a deferred: there is nothing to fire and nobody to wake. -/
def Deferred.IsUnheard (deferred : Deferred) : Prop :=
  deferred.continuations = [] ∧ deferred.waker = none ∧ deferred.lock = .free

/-- Nobody listens to the deferred of a number, if there is one. -/
def World.Unheard (world : World) (deferred : Nat) : Prop :=
  ∀ found, world.deferreds.get? deferred = some found → found.IsUnheard

/-- Every deferred is still there, and has come as far or further. -/
def World.Onward (world later : World) : Prop :=
  ∀ deferred found, world.deferreds.get? deferred = some found →
    ∃ changed, later.deferreds.get? deferred = some changed ∧
      found.progress.Onward changed.progress

/-- A deferred that was complete is complete. -/
theorem Deferred.isComplete_of_onward {found changed : Deferred}
    (onward : found.progress.Onward changed.progress) (complete : found.isComplete = true) :
    changed.isComplete = true := by
  unfold isComplete at complete ⊢
  generalize found.progress = progress at onward complete
  generalize changed.progress = later at onward
  cases onward with
  | pending => cases complete
  | kept | retrieved | taken => rfl

/-- What is complete stays complete. -/
theorem World.Onward.completed {world later : World} {deferred : Nat}
    (onward : world.Onward later) (completed : world.ledger.Completed deferred) :
    later.ledger.Completed deferred := by
  obtain ⟨found, lookup, complete⟩ := completed
  obtain ⟨changed, still, came⟩ := onward deferred found lookup
  exact ⟨changed, still, Deferred.isComplete_of_onward came complete⟩

/-- The world after a change that takes no deferred back, gives out receipts and listens only
to deferreds that are shared. -/
structure World.Discreet (shared : Nat → Prop) (world later : World) : Prop where
  onward : world.Onward later
  given : ∀ deferred ∈ later.given, deferred ∈ world.given ∨
    (shared deferred ∧ (later.deferreds.get? deferred).isSome = true)
  unheard : ∀ deferred, ¬ shared deferred → world.Unheard deferred → later.Unheard deferred

/-- The world after a discreet change that leaves bodies alone, makes only new ones that
await nothing, and takes outcomes only where it may. -/
structure World.Calm (may shared : Nat → Prop) (world later : World) : Prop
    extends World.Discreet shared world later where
  bodies : ∀ place body, world.body? place = some body → later.body? place = some body
  fresh : ∀ place body, later.body? place = some body →
    world.body? place = some body ∨ body.awaited = []
  taken : ∀ deferred, later.Taken deferred → world.Taken deferred ∨ may deferred

namespace World.Discreet

variable {shared : Nat → Prop} {world middle later : World}

/-- No deferred is forgotten. -/
theorem grown (changed : world.Discreet shared later) (deferred : Nat)
    (present : (world.deferreds.get? deferred).isSome = true) :
    (later.deferreds.get? deferred).isSome = true := by
  obtain ⟨found, lookup⟩ := Option.isSome_iff_exists.mp present
  obtain ⟨_, still, -⟩ := changed.onward deferred found lookup
  simp [still]

theorem trans (first : world.Discreet shared middle) (second : middle.Discreet shared later) :
    world.Discreet shared later where
  onward := by
    intro deferred found lookup
    obtain ⟨between, present, came⟩ := first.onward deferred found lookup
    obtain ⟨changed, still, goesOn⟩ := second.onward deferred between present
    exact ⟨changed, still, came.trans goesOn⟩
  given := by
    intro deferred member
    rcases second.given deferred member with was | known
    · exact (first.given deferred was).imp_right fun known =>
        ⟨known.1, second.grown deferred known.2⟩
    · exact .inr known
  unheard := fun deferred apart unheard =>
    second.unheard deferred apart (first.unheard deferred apart unheard)

/-- No deferred is touched, and no receipt given out. -/
theorem same (deferreds : later.deferreds = world.deferreds)
    (given : later.given = world.given) : world.Discreet shared later where
  onward := by
    intro deferred found lookup
    exact ⟨found, by rwa [deferreds], .refl _⟩
  given := by
    intro deferred member
    rw [given] at member
    exact .inl member
  unheard := by
    intro deferred _ unheard found lookup
    rw [deferreds] at lookup
    exact unheard found lookup

end World.Discreet

namespace World.Calm

variable {may shared : Nat → Prop} {world middle later : World}

theorem refl (world : World) : world.Calm may shared world where
  toDiscreet := .same rfl rfl
  bodies := fun _ _ found => found
  fresh := fun _ _ found => .inl found
  taken := fun _ taken => .inl taken

theorem trans (first : world.Calm may shared middle) (second : middle.Calm may shared later) :
    world.Calm may shared later where
  toDiscreet := first.toDiscreet.trans second.toDiscreet
  bodies := fun place body found => second.bodies place body (first.bodies place body found)
  fresh := by
    intro place body found
    rcases second.fresh place body found with was | empty
    · exact first.fresh place body was
    · exact .inr empty
  taken := by
    intro deferred taken
    rcases second.taken deferred taken with was | allowed
    · exact first.taken deferred was
    · exact .inr allowed

/-- Neither machines nor deferreds are touched. -/
theorem same (activations : later.activations = world.activations)
    (kept : later.kept = world.kept) (deferreds : later.deferreds = world.deferreds)
    (given : later.given = world.given) : world.Calm may shared later where
  toDiscreet := .same deferreds given
  bodies := by
    intro place body found
    cases place <;> simpa [World.body?, activations, kept] using found
  fresh := by
    intro place body found
    left
    cases place <;> simpa [World.body?, activations, kept] using found
  taken := by
    intro deferred taken
    left
    simpa [World.Taken, deferreds] using taken

/-- A receipt is given out for a deferred that others share. -/
theorem putReceipt (name : Name) {deferred : Nat} (raw : Bool) (known : shared deferred)
    (present : (world.deferreds.get? deferred).isSome = true) :
    world.Calm may shared (world.putReceipt name deferred raw) where
  bodies := fun place body found => by cases place <;> exact found
  fresh := fun place body found => .inl (by cases place <;> exact found)
  taken := fun _ taken => .inl taken
  onward := fun _ found lookup => ⟨found, lookup, .refl _⟩
  given := by
    intro other member
    rcases List.mem_cons.mp member with rfl | was
    · exact .inr ⟨known, present⟩
    · exact .inl was
  unheard := fun _ _ unheard => unheard

/-- A machine changes, but not its body. -/
theorem modifyActivation (machine : Nat) {change : Activation → Activation}
    (body : ∀ found, (change found).body = found.body) :
    world.Calm may shared (world.modifyActivation machine change) := by
  have bodies (place : Place) :
      (world.modifyActivation machine change).body? place = world.body? place := by
    cases place with
    | kept _ => rfl
    | started other =>
        simp only [World.body?, World.modifyActivation, Store.get?_modify]
        split
        · cases world.activations.get? other <;> simp [body]
        · rfl
  exact ⟨.same rfl rfl, fun place _ found => (bodies place).trans found,
    fun place _ found => .inl ((bodies place).symm.trans found), fun _ taken => .inl taken⟩

/-- A deferred changes and goes no way back, but its outcome is not taken unless it may be;
nor does anybody listen to it now, unless it is shared. -/
theorem modifyDeferred (deferred : Nat) {change : Deferred → Deferred}
    (onward : ∀ found, world.deferreds.get? deferred = some found →
      found.progress.Onward (change found).progress)
    (untaken : may deferred ∨
      ∀ found : Deferred, (change found).progress = .taken → found.progress = .taken)
    (unheard : shared deferred ∨ ∀ found : Deferred, found.IsUnheard →
      (change found).IsUnheard) :
    world.Calm may shared (world.modifyDeferred deferred change) where
  bodies := fun place body found => by cases place <;> exact found
  fresh := fun place body found => .inl (by cases place <;> exact found)
  taken := by
    rintro other ⟨found, lookup, taken⟩
    simp only [World.modifyDeferred, Store.get?_modify] at lookup
    split at lookup
    · next same =>
        subst same
        simp only [Option.map_eq_some_iff] at lookup
        obtain ⟨was, present, rfl⟩ := lookup
        rcases untaken with allowed | still
        · exact .inr allowed
        · exact .inl ⟨was, present, still was taken⟩
    · exact .inl ⟨found, lookup, taken⟩
  onward := by
    intro other found lookup
    simp only [World.modifyDeferred, Store.get?_modify]
    split
    · next same =>
        subst same
        exact ⟨change found, by simp [lookup], onward found lookup⟩
    · exact ⟨found, lookup, .refl _⟩
  given := fun _ member => .inl member
  unheard := by
    intro other apart before found lookup
    simp only [World.modifyDeferred, Store.get?_modify] at lookup
    split at lookup
    · next same =>
        subst same
        simp only [Option.map_eq_some_iff] at lookup
        obtain ⟨was, present, rfl⟩ := lookup
        rcases unheard with allowed | still
        · exact absurd allowed apart
        · exact still was (before was present)
    · exact before found lookup

theorem newDeferred (world : World) : world.Calm may shared world.newDeferred.1 where
  bodies := fun place body found => by cases place <;> exact found
  fresh := fun place body found => .inl (by cases place <;> exact found)
  taken := by
    rintro other ⟨found, lookup, taken⟩
    left
    simp only [World.newDeferred, Store.get?_push] at lookup
    split at lookup
    · cases lookup
      cases taken
    · exact ⟨found, lookup, taken⟩
  onward := by
    intro other found lookup
    have older : other ≠ world.deferreds.size := by
      rintro rfl
      simp [Store.get?, Store.size] at lookup
    exact ⟨found, by simpa [World.newDeferred, older] using lookup, .refl _⟩
  given := fun _ member => .inl member
  unheard := by
    intro other _ before found lookup
    simp only [World.newDeferred, Store.get?_push] at lookup
    split at lookup
    · cases lookup
      exact ⟨rfl, rfl, rfl⟩
    · exact before found lookup

/-- An outcome is taken that may be. -/
theorem retrieve (deferred : Nat) (allowed : may deferred) :
    world.Calm may shared (world.retrieve deferred).1 := by
  unfold World.retrieve
  split
  · exact .refl world
  · refine .modifyDeferred deferred ?_ (.inl allowed) (.inr ?_)
    · intro found _
      cases progress : found.progress with
      | pending => exact .pending
      | complete outcome => simpa [Deferred.afterRetrieval, progress] using .retrieved
      | taken => simpa [Deferred.afterRetrieval, progress] using .taken
    · intro found unheard
      unfold Deferred.afterRetrieval
      split <;> exact unheard

theorem newActivation (form : Machine) (scheduler : Scheduler) (observer : Observer) :
    world.Calm may shared (world.newActivation form.body scheduler observer).1 where
  bodies := by
    intro place body found
    cases place with
    | kept _ => exact found
    | started machine =>
        have older : machine ≠ world.activations.size := by
          rintro rfl
          simp [World.body?, Store.get?, Store.size] at found
        simpa [World.body?, World.newActivation, World.record, older] using found
  fresh := by
    intro place body found
    cases place with
    | kept _ => exact .inl found
    | started machine =>
        by_cases newest : machine = world.activations.size
        · subst newest
          simp only [World.body?, World.newActivation, World.record, Store.get?_push, if_true,
            Option.map_some, Option.some.injEq] at found
          rw [← found]
          exact .inr form.awaited_body
        · simp only [World.body?, World.newActivation, World.record, Store.get?_push, newest,
            if_false] at found
          exact .inl found
  taken := fun _ taken => .inl taken
  toDiscreet := .same rfl rfl

theorem newKept (form : Machine) :
    world.Calm may shared { world with kept := world.kept.push form.body } where
  bodies := by
    intro place body found
    cases place with
    | started _ => exact found
    | kept number =>
        have older : number ≠ world.kept.size := by
          rintro rfl
          simp [World.body?, Store.get?, Store.size] at found
        simpa [World.body?, older] using found
  fresh := by
    intro place body found
    cases place with
    | started _ => exact .inl found
    | kept number =>
        simp only [World.body?, Store.get?_push] at found
        split at found
        · cases found
          exact .inr form.awaited_body
        · exact .inl found
  taken := fun _ taken => .inl taken
  toDiscreet := .same rfl rfl

end World.Calm

/-- A small step that is calm: it goes on from a world and a stack, with plain frames on
top, and not with the step of a started machine. -/
structure State.Calm (may shared : Nat → Prop) (world : World) (stack : Stack)
    (after : State) : Prop where
  world : world.Calm may shared after.world
  stack : ∃ plain, after.stack = plain ++ stack ∧ plain.all Frame.isPlain = true
  control : after.control.isPlain = true

end Stepwise
