import Stepwise.Proofs.Course.Standing
import Stepwise.Proofs.Pools.Sent

/-!
# Machines devoted to a pool

A library machine whose dispatcher always picks one pool sends all of its works there.  So
what it is suspended on is work that was sent to that pool.
-/

namespace Stepwise

variable {trace : List Occurrence} {past : List State} {state : State}
  {machine pool deferred : Nat} {form : Machine}

/-- All works of a machine go to a pool. -/
def Machine.IsDevoted (pool : Nat) : Machine → Prop
  | .custom _ => False
  | .pipeline _ _ dispatcher _ => ∀ count, dispatcher.target count = .pool pool
  | .cubeRoot _ _ _ dispatcher _ => ∀ count, dispatcher.target count = .pool pool

theorem Machine.IsDevoted.isLibrary (devoted : form.IsDevoted pool) : form.isLibrary = true := by
  cases form with
  | custom _ => exact devoted.elim
  | pipeline _ _ _ _ | cubeRoot _ _ _ _ _ => rfl

/-- All works that a body launches go to a pool. -/
def Body.IsDevoted (pool : Nat) : Body → Prop
  | .custom _ => False
  | .pipeline state => ∀ count, state.dispatcher.target count = .pool pool
  | .cubeRoot demo => ∀ count, demo.dispatcher.target count = .pool pool

namespace Machine.IsDevoted

theorem body (devoted : form.IsDevoted pool) : form.body.IsDevoted pool := by
  cases form <;> exact devoted

theorem bodyAfter (devoted : form.IsDevoted pool) (values : List Value) (launches : Nat) :
    (form.bodyAfter values launches).IsDevoted pool := by
  cases form with
  | custom _ => exact devoted
  | pipeline _ _ _ _ => exact devoted
  | cubeRoot _ _ _ _ _ => rcases values with _ | ⟨_, _ | _⟩ <;> exact devoted

end Machine.IsDevoted

namespace State

end State

/-! ## Machines that were started -/

namespace Chronicle

variable {chronicle : Chronicle}

/-- What happens to a machine that was started leaves it the one that it is. -/
theorem form_after {occurrence : Occurrence} (permitted : chronicle.Permits occurrence)
    (born : chronicle.life machine ≠ .unborn) :
    (chronicle.after occurrence).life machine ≠ .unborn ∧
      ((chronicle.after occurrence).life machine).form = (chronicle.life machine).form := by
  cases occurrence with
  | started other _ _ =>
      have different : machine ≠ other := by
        rintro rfl
        exact born permitted
      simpa [after, different] using born
  | called other _ | cancelled other | abandoned other | told other _ =>
      simp only [after, life_onLife]
      split
      · exact ⟨fun unborn => by simp [Life.unborn] at unborn, rfl⟩
      · exact ⟨born, rfl⟩
  | ended other _ =>
      simp only [after, life_onLife]
      split
      · next same =>
          subst same
          obtain ⟨-, position, under⟩ := permitted
          exact ⟨fun unborn => by simp [Life.unborn, under] at unborn, rfl⟩
      · exact ⟨born, rfl⟩
  | _ => exact ⟨born, rfl⟩

theorem form_afterAll {occurrences : List Occurrence} (permitted : chronicle.PermitsAll occurrences)
    (born : chronicle.life machine ≠ .unborn) :
    ((chronicle.afterAll occurrences).life machine).form = (chronicle.life machine).form := by
  induction occurrences generalizing chronicle with
  | nil => rfl
  | cons occurrence rest ih =>
      obtain ⟨still, same⟩ := form_after permitted.1 born
      exact (ih permitted.2 still).trans same

end Chronicle

/-- A machine that is there was started. -/
theorem Custody.born {ledger : Ledger} {chronicle : Chronicle} {inHand : List Holding}
    {stack : Stack} {found : Activation} (custody : Custody ledger chronicle inHand stack)
    (lookup : ledger.activations.get? machine = some found) :
    chronicle.life machine ≠ .unborn := by
  intro unborn
  obtain ⟨-, owned, accords⟩ := custody.accords_of_lookup lookup
  cases status : found.status with
  | idle =>
      simp only [status, Activation.Observed, unborn, Life.unborn] at accords
      obtain ⟨-, -, ⟨observed, same⟩, -⟩ := accords
      simp [same] at observed
  | running =>
      simp only [status, Activation.Observed, Life.Violated, unborn, Life.unborn] at accords
      obtain ⟨-, -, -, observed, broken⟩ := accords
      by_cases owners : 0 < found.owners
      · obtain ⟨present, same⟩ := observed owners
        simp [same] at present
      · obtain ⟨_, _, step, -⟩ := broken (by omega)
        cases step
  | finished =>
      simp only [status, unborn, Life.unborn] at accords
      simp at accords

namespace Passes

end Passes

end Stepwise
