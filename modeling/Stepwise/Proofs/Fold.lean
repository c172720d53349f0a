import Mathlib.Data.List.Forall2
import Stepwise.Proofs.Course.Yields
import Stepwise.Proofs.Outcome

/-!
# Pipelines refine the fold of their stages

To fold a value through stages is to launch each of them on the value of the one before,
and to show its own value to the hook, until one fails or none is left.  Whatever a run
does to a pipeline, its deeds are those of such a fold, cut short somewhere; and what its
observer is told is the outcome of the fold, unless the pipeline was cancelled or
something of it was dropped.  Where the stages are functions, the fold is the monadic fold
of their list.
-/

namespace Stepwise

/-- The deeds of folding a value through stages, the first of which has a number, and the
outcome in the end. -/
inductive Folds : Nat → Value → List (Value → Program) → List Deed → Outcome → Prop where
  | done {number : Nat} {value : Value} : Folds number value [] [] (.ok value)
  | failed {number : Nat} {value : Value} {stage : Value → Program}
      {stages : List (Value → Program)} {failure : Failure} :
      (stage value).Yields (.error failure) →
        Folds number value (stage :: stages)
          [.launched number (stage value), .began number (stage value),
            .worked number (stage value) (.error failure)]
          (.error (.work failure))
  | passed {number : Nat} {value next : Value} {stage : Value → Program}
      {stages : List (Value → Program)} {deeds : List Deed} {outcome : Outcome} :
      (stage value).Yields (.ok next) → Folds (number + 1) next stages deeds outcome →
        Folds number value (stage :: stages)
          ([.launched number (stage value), .began number (stage value),
            .worked number (stage value) (.ok next), .shown number next] ++ deeds)
          outcome

namespace Pipeline

/-- What a stage does that is a function. -/
abbrev Behaviour := Value → Except Failure Value

/-- Programs that make no requests behave as a function. -/
def Behaviour.IsGivenBy (behaviour : Behaviour) (stage : Value → Program) : Prop :=
  ∀ value, (stage value).result? = some (behaviour value)

/-- The outcome of a value that goes through functions, one after the other. -/
def sequential (behaviours : List Behaviour) (value : Value) : Outcome :=
  (behaviours.foldlM (fun value (behaviour : Behaviour) => behaviour value) value).mapError .work

end Pipeline

/-- Every program yields something. -/
theorem Program.exists_yields (program : Program) : ∃ result, program.Yields result := by
  cases program with
  | ret reply => exact ⟨_, .returned .refl⟩
  | panic payload => exact ⟨_, .panicked .refl⟩
  | call request next => exact ⟨_, .passed (.text "") .refl⟩

namespace Folds

variable {number : Nat} {value : Value} {stages : List (Value → Program)} {whole : List Deed}
  {outcome : Outcome}

/-- Every value can be folded through every list of stages. -/
theorem exists_of_stages (number : Nat) (value : Value) (stages : List (Value → Program)) :
    ∃ whole outcome, Folds number value stages whole outcome := by
  induction stages generalizing number value with
  | nil => exact ⟨_, _, .done⟩
  | cons stage stages ih =>
      obtain ⟨result, yields⟩ := (stage value).exists_yields
      cases result with
      | error failure => exact ⟨_, _, .failed yields⟩
      | ok next =>
          obtain ⟨rest, outcome, folds⟩ := ih (number + 1) next
          exact ⟨_, _, .passed yields folds⟩

/-- The fold of stages that are functions is the monadic fold of their list. -/
theorem eq_sequential {behaviours : List Pipeline.Behaviour}
    (folds : Folds number value stages whole outcome)
    (given : List.Forall₂ Pipeline.Behaviour.IsGivenBy behaviours stages) :
    outcome = Pipeline.sequential behaviours value := by
  induction folds generalizing behaviours with
  | done =>
      cases given
      rfl
  | @failed number value stage stages failure yields =>
      cases given with
      | cons first _ =>
          have settled := yields.eq_of_result (first value)
          rw [Pipeline.sequential, List.foldlM_cons, ← settled]
          rfl
  | @passed number value next stage stages deeds outcome yields _ ih =>
      cases given with
      | cons first rest =>
          have settled := yields.eq_of_result (first value)
          rw [ih rest, Pipeline.sequential, Pipeline.sequential, List.foldlM_cons, ← settled]
          rfl

end Folds

/-! ## Courses of pipelines -/

namespace Pipeline

variable {seed : Value} {stages : List (Value → Program)} {dispatcher : Dispatcher}
  {inspect : Nat → Value → Program} {values : List Value} {before whole deeds : List Deed}
  {work : Program} {outcome : Outcome}

/-- However the fold goes on after some deeds, with the values of the stages so far, the
latest first, they are its beginning. -/
def Leaves (seed : Value) (stages : List (Value → Program)) (deeds : List Deed)
    (values : List Value) : Prop :=
  ∀ rest outcome,
    Folds values.length (values.headD seed) (stages.drop values.length) rest outcome →
      Folds 0 seed stages (deeds ++ rest) outcome

/-- After some deeds it is the turn of the work of the next stage. -/
structure Turns (seed : Value) (stages : List (Value → Program)) (before : List Deed)
    (values : List Value) (work : Program) : Prop where
  leaves : Leaves seed stages before values
  planned : ∃ stage, stages[values.length]? = some stage ∧ stage (values.headD seed) = work

/-- A pipeline that is ready for its next work has it in turn. -/
theorem Leaves.turns (leaves : Leaves seed stages before values)
    (planned : (Machine.pipeline seed stages dispatcher inspect).work? values = some work) :
    Turns seed stages before values work :=
  ⟨leaves, by simpa [Machine.work?] using planned⟩

/-- When a work has given a value, the next one has its turn on it. -/
theorem Turns.passes {value : Value} (turns : Turns seed stages before values work)
    (yields : work.Yields (.ok value)) :
    Leaves seed stages
      (before ++ [.launched values.length work, .began values.length work,
        .worked values.length work (.ok value), .shown values.length value])
      (value :: values) := by
  obtain ⟨leaves, stage, present, rfl⟩ := turns
  obtain ⟨bound, rfl⟩ := List.getElem?_eq_some_iff.mp present
  intro rest outcome folds
  rw [List.append_assoc]
  refine leaves _ _ ?_
  rw [List.drop_eq_getElem_cons bound]
  exact .passed yields folds

/-- When a work has failed, so has the fold. -/
theorem Turns.fails {failure : Failure} (turns : Turns seed stages before values work)
    (yields : work.Yields (.error failure)) :
    Folds 0 seed stages
      (before ++ [.launched values.length work, .began values.length work,
        .worked values.length work (.error failure)])
      (.error (.work failure)) := by
  obtain ⟨leaves, stage, present, rfl⟩ := turns
  obtain ⟨bound, rfl⟩ := List.getElem?_eq_some_iff.mp present
  refine leaves _ _ ?_
  rw [List.drop_eq_getElem_cons bound]
  exact .failed yields

/-- The work in turn may give any result that it yields. -/
theorem Turns.exists_of_yields {result : Except Failure Value}
    (turns : Turns seed stages before values work) (yields : work.Yields result) :
    ∃ rest outcome, Folds 0 seed stages
      (before ++ ([.launched values.length work, .began values.length work,
        .worked values.length work result] ++ rest)) outcome := by
  cases result with
  | error failure => exact ⟨[], _, by simpa using turns.fails yields⟩
  | ok value =>
      obtain ⟨rest, outcome, folds⟩ := Folds.exists_of_stages (values.length + 1) value
        (stages.drop (values.length + 1))
      exact ⟨.shown values.length value :: rest, outcome, by
        simpa using turns.passes yields rest outcome folds⟩

/-- What has been done at a point of the plan of a pipeline. -/
def Progress (seed : Value) (stages : List (Value → Program)) (deeds : List Deed) :
    Point → Prop
  | .fresh => deeds = []
  | .ready values => Leaves seed stages deeds values
  | .launched values work =>
      ∃ before, deeds = before ++ [.launched values.length work] ∧
        Turns seed stages before values work
  | .running values work =>
      ∃ before, deeds =
        before ++ [.launched values.length work, .began values.length work] ∧
          Turns seed stages before values work
  | .worked values result =>
      ∃ before work, deeds =
        before ++ [.launched values.length work, .began values.length work,
          .worked values.length work result] ∧
          Turns seed stages before values work ∧ work.Yields result
  | .discarded values =>
      ∃ before work, deeds =
        before ++ [.launched values.length work, .discarded values.length] ∧
          Turns seed stages before values work
  | .closed value => Folds 0 seed stages deeds (.ok value)

/-- The works that deeds speak of have given what they yield. -/
def Yielded (deeds : List Deed) : Prop :=
  ∀ number work result, .worked number work result ∈ deeds → work.Yields result

theorem Yielded.left {more : List Deed} (yielded : Yielded (deeds ++ more)) : Yielded deeds :=
  fun number work result member =>
    yielded number work result (List.mem_append_left _ member)

/-- A course of a pipeline whose works have given what they yield makes progress. -/
theorem progress_of_course {point : Point}
    (course : Course (.pipeline seed stages dispatcher inspect) deeds point)
    (yielded : Yielded deeds) : Progress seed stages deeds point := by
  induction course with
  | fresh => rfl
  | opened => exact fun rest outcome folds => folds
  | launched _ planned ih =>
      have leaves := ih yielded.left
      exact ⟨_, rfl, leaves.turns planned⟩
  | began _ ih =>
      obtain ⟨before, rfl, turns⟩ := ih yielded.left
      exact ⟨before, by simp, turns⟩
  | discarded _ ih =>
      obtain ⟨before, rfl, turns⟩ := ih yielded.left
      exact ⟨before, _, by simp, turns⟩
  | @worked deeds values work result _ ih =>
      obtain ⟨before, rfl, turns⟩ := ih yielded.left
      exact ⟨before, work, by simp, turns, yielded values.length work result (by simp)⟩
  | noticed _ ih =>
      obtain ⟨before, work, rfl, turns, given⟩ := ih yielded.left
      simpa [Progress, Machine.notice] using turns.passes given
  | @closed deeds values value _ settled ih =>
      have leaves := ih yielded.left
      simp only [Machine.result?, Option.ite_none_right_eq_some, Option.some.injEq] at settled
      obtain ⟨all, rfl⟩ := settled
      refine leaves _ _ ?_
      rw [all, List.drop_length]
      exact .done

/-- Deeds are those of a fold up to some point, where a work may have been dropped. -/
def Cuts (whole deeds : List Deed) : Prop :=
  deeds <+: whole ∨ ∃ before number, deeds = before ++ [.discarded number] ∧ before <+: whole

/-- What a pipeline has done and come to is part of one fold of its stages. -/
theorem exists_fold_of_progress {point : Point} (progress : Progress seed stages deeds point) :
    ∃ whole folded, Folds 0 seed stages whole folded ∧ Cuts whole deeds ∧
      ∀ outcome, point.outcome? = some outcome →
        (outcome = .error .shutdown ∧ ∃ number, .discarded number ∈ deeds) ∨
          (outcome = folded ∧ deeds = whole) := by
  cases point with
  | fresh =>
      obtain ⟨whole, folded, folds⟩ := Folds.exists_of_stages 0 seed stages
      cases progress
      exact ⟨whole, folded, folds, .inl List.nil_prefix, nofun⟩
  | ready values =>
      obtain ⟨rest, folded, folds⟩ := Folds.exists_of_stages values.length (values.headD seed)
        (stages.drop values.length)
      exact ⟨_, folded, progress rest folded folds, .inl (List.prefix_append ..), nofun⟩
  | launched values work | running values work =>
      obtain ⟨before, rfl, turns⟩ := progress
      obtain ⟨result, yields⟩ := work.exists_yields
      obtain ⟨rest, folded, folds⟩ := turns.exists_of_yields yields
      exact ⟨_, folded, folds, .inl (by simp), nofun⟩
  | worked values result =>
      obtain ⟨before, work, rfl, turns, yields⟩ := progress
      cases result with
      | ok value =>
          obtain ⟨rest, folded, folds⟩ := turns.exists_of_yields yields
          exact ⟨_, folded, folds, .inl (by simp), nofun⟩
      | error failure =>
          refine ⟨_, _, turns.fails yields, .inl List.prefix_rfl, ?_⟩
          intro outcome settled
          cases settled
          exact .inr ⟨rfl, rfl⟩
  | discarded values =>
      obtain ⟨before, work, rfl, turns⟩ := progress
      obtain ⟨result, yields⟩ := work.exists_yields
      obtain ⟨rest, folded, folds⟩ := turns.exists_of_yields yields
      refine ⟨_, folded, folds, .inr ⟨before ++ [.launched values.length work],
        values.length, by simp, by simp⟩, ?_⟩
      intro outcome settled
      cases settled
      exact .inl ⟨rfl, values.length, by simp⟩
  | closed value =>
      refine ⟨_, _, progress, .inl List.prefix_rfl, ?_⟩
      intro outcome settled
      cases settled
      exact .inr ⟨rfl, rfl⟩

end Pipeline

variable {trace : List Occurrence} {state : State} {machine : Nat} {form : Machine}
  {outcome : Outcome}

/-- Where a library machine is that was told an outcome, when neither its hook nor a dispatch
of it has panicked: it was cancelled or lost its resumption while one of its works was under
way, or has come to that outcome. -/
theorem Reaches.exists_point_of_told (reaches : Reaches trace state)
    (started : ((Chronicle.of trace).life machine).form = some form)
    (library : form.isLibrary = true)
    (placed : ¬ form.UsesContext ∨
      .ended machine (.panicked (.text (State.outsideRuntime false))) ∉ trace)
    (uninterrupted : .interrupted (.started machine) ∉ trace)
    (told : ((Chronicle.of trace).life machine).told = some outcome) :
    ∃ point, Course form (deeds machine trace) point ∧
      ((((outcome = .error .cancelled ∧ ((Chronicle.of trace).life machine).cancelled = true) ∨
          (outcome = .error .shutdown ∧
            ((Chronicle.of trace).life machine).abandoned = true)) ∧
        ∀ value, point ≠ .closed value) ∨ point.outcome? = some outcome) := by
  have phase := reaches.seated.seated.phases machine form started library
  -- A machine that awaits a work stands where that work is.
  have awaiting {resumeAt deferred : Nat}
      (awaits : ((Chronicle.of trace).life machine).Awaits resumeAt deferred) :
      ∃ point, Course form (deeds machine trace) point ∧ ∀ value, point ≠ .closed value := by
    obtain ⟨position, ended⟩ := awaits
    simp only [Phase, ended] at phase
    obtain ⟨values, -, rests⟩ := phase
    obtain ⟨work, fate, -, -, course⟩ := rests.expects.planned
    refine ⟨_, course, ?_⟩
    intro value closed
    cases fate <;> cases closed
  cases reaches.explains told with
  | completed ended | failed ended _ =>
      simp only [Phase, ended] at phase
      obtain ⟨point, stands, came⟩ := phase.stands
      exact ⟨point, stands.course, .inr came⟩
  | panicked ended =>
      simp only [Phase, ended] at phase
      rcases phase.cause with interrupted | ⟨contextual, rfl⟩
      · exact absurd interrupted uninterrupted
      · rcases placed with elsewhere | inside
        · exact absurd contextual elsewhere
        · exact absurd (Chronicle.ended_of_step ended) inside
  | cancelled asked awaits =>
      obtain ⟨point, course, going⟩ := awaiting awaits
      exact ⟨point, course, .inl ⟨.inl ⟨rfl, asked⟩, going⟩⟩
  | abandoned lost awaits =>
      obtain ⟨point, course, going⟩ := awaiting awaits
      exact ⟨point, course, .inl ⟨.inr ⟨rfl, lost⟩, going⟩⟩

/-- A pipeline refines the fold of its stages.  Where its works are not sent to the current
context, or no dispatch of it panicked for want of one, and its hook does not panic, what it
does is part of one fold of the seed through the stages, in at most one step more than there
are stages.  Its observer is told the outcome of that fold, all of whose deeds are done then,
unless the pipeline was cancelled, or its resumption or a work of it was dropped.  With
functions for stages, that outcome is the monadic fold of their list. -/
theorem pipeline_refines_fold {seed : Value} {stages : List (Value → Program)}
    {dispatcher : Dispatcher} {inspect : Nat → Value → Program}
    (reaches : Reaches trace state)
    (started : ((Chronicle.of trace).life machine).form =
      some (.pipeline seed stages dispatcher inspect))
    (placed : (∀ count, dispatcher.target count ≠ .context) ∨
      .ended machine (.panicked (.text (State.outsideRuntime false))) ∉ trace)
    (uninterrupted : .interrupted (.started machine) ∉ trace) :
    ∃ whole folded, Folds 0 seed stages whole folded ∧
      Pipeline.Cuts whole (deeds machine trace) ∧ calls machine trace ≤ stages.length + 1 ∧
      (∀ outcome, ((Chronicle.of trace).life machine).told = some outcome →
        (outcome = .error .cancelled ∧
          ((Chronicle.of trace).life machine).cancelled = true) ∨
        (outcome = .error .shutdown ∧
          (((Chronicle.of trace).life machine).abandoned = true ∨
            ∃ number, .discarded number ∈ deeds machine trace)) ∨
        (outcome = folded ∧ deeds machine trace = whole)) ∧
      ∀ behaviours : List Pipeline.Behaviour,
        List.Forall₂ Pipeline.Behaviour.IsGivenBy behaviours stages →
          folded = Pipeline.sequential behaviours seed := by
  have yielded : Pipeline.Yielded (deeds machine trace) :=
    fun number work result deed => reaches.yields_of_deed deed
  obtain ⟨⟨point, course⟩, called⟩ := reaches.goes started rfl
  cases told : ((Chronicle.of trace).life machine).told with
  | none =>
      obtain ⟨whole, folded, folds, cuts, -⟩ :=
        Pipeline.exists_fold_of_progress (Pipeline.progress_of_course course yielded)
      exact ⟨whole, folded, folds, cuts, called, nofun, fun _ given => folds.eq_sequential given⟩
  | some outcome =>
      -- The fold is read off the deeds with which the outcome was settled.
      obtain ⟨point, course, how⟩ := reaches.exists_point_of_told started rfl
        (placed.imp_left not_exists.mpr) uninterrupted told
      obtain ⟨whole, folded, folds, cuts, comes⟩ :=
        Pipeline.exists_fold_of_progress (Pipeline.progress_of_course course yielded)
      refine ⟨whole, folded, folds, cuts, called, ?_, fun _ given => folds.eq_sequential given⟩
      rintro _ ⟨⟩
      rcases how with ⟨cancelled | ⟨shutdown, abandoned⟩, -⟩ | came
      · exact .inl cancelled
      · exact .inr (.inl ⟨shutdown, .inl abandoned⟩)
      · rcases comes outcome came with ⟨shutdown, discarded⟩ | refined
        · exact .inr (.inl ⟨shutdown, .inr discarded⟩)
        · exact .inr (.inr refined)

/-- A plan sends no work to the current context. -/
theorem Dispatcher.target_planned (pool : Nat) (plan : List Bool) (count : Nat) :
    (Dispatcher.planned pool plan).target count ≠ .context := by
  simp only [planned]
  split <;> simp

/-- Whether a hook panicked. -/
def Occurrence.isInterruption : Occurrence → Bool
  | .interrupted _ => true
  | _ => false

/-- Where no hook panicked, that of a machine did not. -/
theorem Occurrence.uninterrupted {place : Place}
    (quiet : trace.any Occurrence.isInterruption = false) : .interrupted place ∉ trace := by
  intro member
  simpa [Occurrence.isInterruption] using List.any_eq_false.mp quiet _ member

/-- A stage that doubles a number. -/
def Program.doubling : Value → Program
  | .int number => .ret (.value (.int (2 * number)))
  | other => .ret (.value other)

/-- To double a number, as a function. -/
def Pipeline.Behaviour.doubling : Pipeline.Behaviour
  | .int number => .ok (.int (2 * number))
  | other => .ok other

theorem Pipeline.Behaviour.isGivenBy_doubling : doubling.IsGivenBy .doubling := by
  intro value
  cases value <;> rfl

/-- Start a pipeline that doubles a number on a runtime and then at once, and let a worker
run what is queued. -/
def Program.piping : Program :=
  .call (.newRuntime (.shared "runtime") 1 "worker") fun _ =>
    .call (.start (.shared "machine")
      (.pipeline (.int 1) [.doubling, .doubling] (.planned 0 [true, false])
        fun _ _ => .ret .done) (.pool 0) fun _ => .ret .done) fun _ =>
      .call (.work (.shared "runtime")) fun _ => .call (.work (.shared "runtime")) .ret

/-- The observer of that pipeline is told the outcome of the fold, all of which was done: the
seed, doubled twice. -/
theorem pipeline_refines_fold_piping :
    ((Chronicle.of ((State.ofProgram .initial .piping).walk 46).1).life 0).told =
        some (.ok (.int 4)) ∧
      Folds 0 (.int 1) [.doubling, .doubling]
        (deeds 0 ((State.ofProgram .initial .piping).walk 46).1) (.ok (.int 4)) ∧
      .ok (.int 4) = Pipeline.sequential [.doubling, .doubling] (.int 1) := by
  obtain ⟨whole, folded, folds, -, -, comes, computes⟩ := @pipeline_refines_fold _ _ 0 _ _ _ _
    ((Reaches.begin .piping).walk 46) rfl (.inl (Dispatcher.target_planned 0 [true, false]))
    (Occurrence.uninterrupted rfl)
  refine ⟨rfl, ?_⟩
  rcases comes (.ok (.int 4)) rfl with ⟨other, -⟩ | ⟨other, -⟩ | ⟨rfl, rfl⟩
  · cases other
  · cases other
  · have doubles := Pipeline.Behaviour.isGivenBy_doubling
    exact ⟨folds, computes _ (.cons doubles (.cons doubles .nil))⟩

end Stepwise
