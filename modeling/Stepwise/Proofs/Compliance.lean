import Stepwise.Proofs.Outcome
import Stepwise.Proofs.Pools.Devoted

/-!
# Library machines keep the protocol

The driver panics for a machine in three places: where a resumption finds the machine being
resumed already, where it finds what the machine awaits still pending, and where a step ends
with a breach of protocol.  The first two never come about for any machine, since a
resumption is the only one of its machine and leaves the deferred when that is complete.
The third never comes about for a library machine: whenever its step fails, it fails with
what its plan has come to, a failed or a dropped work.
-/

namespace Stepwise

variable {trace : List Occurrence} {state : State} {machine : Nat} {form : Machine}
  {error : Error}

/-- The driver is about to panic for a machine because of an error. -/
inductive State.Condemns (state : State) (machine : Nat) : Error → Prop where
  /-- Another resumption of the machine is running. -/
  | overlap {found : Activation} :
      state.control = .task (.resume machine) →
        state.world.activations.get? machine = some found → found.status = .running →
          Condemns state machine (.invalid .overlap)
  /-- What the machine awaits is not complete. -/
  | spurious {found : Activation} {deferred : Nat} :
      state.control = .task (.resume machine) →
        state.world.activations.get? machine = some found → found.status = .idle →
          found.pending = some deferred → state.world.isComplete deferred = false →
            Condemns state machine (.invalid (.spurious found.position))
  /-- The step of the machine ends with a breach of protocol. -/
  | breach {error : Error} {callers : Stack} :
      state.Ends machine (.returned (.fail error)) callers → error.isFatal = true →
        Condemns state machine error

namespace State

/-- A resumption finds its machine suspended, and what the machine awaits complete: only the
end of a step condemns a machine. -/
theorem Condemns.ends {chronicle : Chronicle} (condemns : state.Condemns machine error)
    (order : state.InOrder chronicle) :
    error.isFatal = true ∧ .ended machine (.returned (.fail error)) ∈ state.occurrences := by
  cases condemns with
  | overlap resumes lookup status =>
      obtain ⟨found, same, idle, -⟩ := resume_of_inOrder order resumes
      cases lookup.symm.trans same
      cases status.symm.trans idle
  | spurious resumes lookup _ pending incomplete =>
      obtain ⟨found, same, -, ready⟩ := resume_of_inOrder order resumes
      cases lookup.symm.trans same
      cases incomplete.symm.trans (ready _ pending)
  | breach ends fatal =>
      obtain ⟨happens, -⟩ := called_of_ends order ends
      exact ⟨fatal, by simp [happens]⟩

end State

namespace Chronicle

/-- A machine that was started stays so. -/
theorem born_afterAll {chronicle : Chronicle} {occurrences : List Occurrence}
    (permitted : chronicle.PermitsAll occurrences) (born : chronicle.life machine ≠ .unborn) :
    (chronicle.afterAll occurrences).life machine ≠ .unborn := by
  induction occurrences generalizing chronicle with
  | nil => exact born
  | cons occurrence rest ih => exact ih permitted.2 (form_after permitted.1 born).1

end Chronicle

/-- The step of a library machine that fails now fails with what the plan has come to. -/
theorem Reaches.isFatal_of_ends (reaches : Reaches trace state)
    (ended : .ended machine (.returned (.fail error)) ∈ state.occurrences)
    (started : ((Chronicle.of (trace ++ state.occurrences)).life machine).form = some form)
    (library : form.isLibrary = true) : error.isFatal = false := by
  obtain ⟨callers, ends⟩ : ∃ callers, state.Ends machine (.returned (.fail error)) callers :=
    State.drives_of_occurrences ended rfl
  obtain ⟨happens, found, -, called⟩ := State.called_of_ends reaches.inOrder ends
  have phase := reaches.next.seated.seated.phases machine form started library
  have step : ((Chronicle.of (trace ++ state.occurrences)).life machine).step =
      some (found.position, some (.returned (.fail error))) := by
    rw [Chronicle.of_append, happens]
    simp [Chronicle.after, called]
  simp only [Phase, step] at phase
  obtain ⟨⟨point, -, outcome⟩, -⟩ := phase
  exact Point.isFatal_of_outcome outcome

/-- No step of a library machine has failed with a breach of protocol. -/
theorem Reaches.isFatal_of_ended (reaches : Reaches trace state)
    (ended : .ended machine (.returned (.fail error)) ∈ trace) :
    (Chronicle.of trace).life machine ≠ .unborn ∧
      ∀ form, ((Chronicle.of trace).life machine).form = some form → form.isLibrary = true →
        error.isFatal = false := by
  induction reaches with
  | begin program => cases ended
  | again program _ _ ih => exact ih ended
  | @next trace state reached ih =>
      have permitted := State.permits_occurrences reached.inOrder
      rw [Chronicle.of_append]
      rcases List.mem_append.mp ended with earlier | now
      · obtain ⟨born, sound⟩ := ih earlier
        refine ⟨Chronicle.born_afterAll permitted born, ?_⟩
        rw [Chronicle.form_afterAll permitted born]
        exact sound
      · constructor
        · -- A step that has ended is part of a life.
          obtain ⟨-, position, under⟩ : (Chronicle.of trace).Permits
              (.ended machine (.returned (.fail error))) := by
            rw [State.occurrences_of_ended now] at permitted
            exact permitted.1
          refine Chronicle.born_afterAll permitted ?_
          intro unborn
          simp [unborn, Life.unborn] at under
        · intro form started library
          rw [← Chronicle.of_append] at started
          exact reached.isFatal_of_ends now started library

/-- Library machines keep the protocol.  Whatever their stages, works, hooks and dispatchers
do, and however a run treats them, no step of a pipeline or of the demonstration ever fails
with a breach of protocol, and the driver never panics for such a machine. -/
theorem library_compliance (reaches : Reaches trace state)
    (started : ((Chronicle.of trace).life machine).form = some form)
    (library : form.isLibrary = true) :
    (∀ violation, .ended machine (.returned (.fail (.invalid violation))) ∉ trace) ∧
      ∀ error, ¬ state.Condemns machine error := by
  constructor
  · intro violation ended
    have ordinary := (reaches.isFatal_of_ended ended).2 form started library
    cases ordinary
  · intro error condemns
    obtain ⟨fatal, now⟩ := condemns.ends reaches.inOrder
    have permitted := State.permits_occurrences reaches.inOrder
    have under : ((Chronicle.of trace).life machine) ≠ .unborn := by
      intro unborn
      simp [unborn, Life.unborn] at started
    have same := Chronicle.form_afterAll permitted under
    rw [← Chronicle.of_append, started] at same
    rw [reaches.isFatal_of_ends now same library] at fatal
    cases fatal

/-- Start a pipeline whose work fails with a breach of protocol of its own making. -/
def Program.pretending : Program :=
  .call (.start (.shared "machine")
    (.pipeline (.int 1) [fun _ => .ret (.failure (.invalid .notReady))] (.always .immediate)
      fun _ _ => .ret .done) .inline fun _ => .ret .done) .ret

/-- The step that takes the outcome of that work fails with a failed work, and nobody
panics. -/
theorem library_compliance_pretending :
    ((State.ofProgram .initial .pretending).walk 12).2.occurrences =
        [.ended 0 (.returned (.fail (.work (.invalid .notReady))))] ∧
      (∀ violation, .ended 0 (.returned (.fail (.invalid violation))) ∉
        ((State.ofProgram .initial .pretending).walk 13).1) ∧
      ∀ error, ¬ ((State.ofProgram .initial .pretending).walk 12).2.Condemns 0 error := by
  have reaches := Reaches.begin .pretending
  exact ⟨rfl, (library_compliance (reaches.walk 13) rfl rfl).1,
    (library_compliance (reaches.walk 12) rfl rfl).2⟩

end Stepwise
