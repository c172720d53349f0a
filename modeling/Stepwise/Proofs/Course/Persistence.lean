import Stepwise.Proofs.Course.Phases

/-!
# What outlasts a small step

What happens elsewhere leaves the phase of a library machine alone: its works come along
by their own fates, and nobody else takes the outcome it awaits or changes its body.
-/

namespace Stepwise

namespace Chronicle

variable {chronicle : Chronicle} {occurrence : Occurrence} {machine deferred : Nat}
  {place : Place}

theorem of_snoc (trace : List Occurrence) (occurrence : Occurrence) :
    of (trace ++ [occurrence]) = (of trace).after occurrence := by
  rw [of_append]
  rfl

/-- Work keeps what it runs and who launched it. -/
theorem work_after (permitted : chronicle.Permits occurrence) {work : Work}
    (recorded : chronicle.work deferred = some work) :
    ∃ fate, (chronicle.after occurrence).work deferred = some { work with fate := fate } := by
  have refated (other : Nat) (fate : Fate) :
      ∃ later, (chronicle.onFate other fate).work deferred =
        some { work with fate := later } := by
    by_cases same : deferred = other
    · subst same
      exact ⟨fate, by simp [recorded]⟩
    · exact ⟨work.fate, by simp [same, recorded]⟩
  cases occurrence with
  | dispatched other program launcher =>
      have different : deferred ≠ other := by
        rintro rfl
        simp [Permits, recorded] at permitted
      exact ⟨work.fate, by simp [after, different, recorded]⟩
  | began other _ => exact refated other .running
  | worked other result => exact refated other (.ended result)
  | discarded other => exact refated other .discarded
  | _ => exact ⟨work.fate, recorded⟩

theorem Launched.after (permitted : chronicle.Permits occurrence)
    (launched : chronicle.Launched place deferred) :
    (chronicle.after occurrence).Launched place deferred := by
  obtain ⟨work, number, recorded, launcher⟩ := launched
  obtain ⟨fate, later⟩ := work_after permitted recorded
  exact ⟨_, number, later, launcher⟩

/-- A work that is over does nothing more. -/
theorem outcome_of_over (permitted : chronicle.Permits occurrence) {work : Work}
    (recorded : chronicle.work deferred = some work)
    (through : work.fate.outcome?.isSome = true) :
    (chronicle.after occurrence).work deferred = some work := by
  have apart {other : Nat} {fate : Fate}
      (under : ∃ program launcher, chronicle.work other = some ⟨program, launcher, fate⟩)
      (early : fate.outcome? = none) : deferred ≠ other := by
    rintro rfl
    obtain ⟨program, launcher, again⟩ := under
    cases recorded.symm.trans again
    simp [early] at through
  cases occurrence with
  | dispatched other _ _ =>
      have different : deferred ≠ other := by
        rintro rfl
        simp [Permits, recorded] at permitted
      simp [after, different, recorded]
  | began other program =>
      have different := apart ⟨program, permitted⟩ rfl
      simp [after, different, recorded]
  | worked other _ =>
      have different := apart permitted rfl
      simp [after, different, recorded]
  | discarded other =>
      have different := apart permitted rfl
      simp [after, different, recorded]
  | _ => exact recorded

/-- New work is recorded only where it is dispatched. -/
theorem work_before {work : Work}
    (recorded : (chronicle.after occurrence).work deferred = some work) :
    (∃ was, chronicle.work deferred = some was ∧ was.launcher = work.launcher) ∨
      occurrence = .dispatched deferred work.program work.launcher := by
  have unfated {other : Nat} {fate : Fate}
      (recorded : (chronicle.onFate other fate).work deferred = some work) :
      ∃ was, chronicle.work deferred = some was ∧ was.launcher = work.launcher := by
    simp only [work_onFate] at recorded
    split at recorded
    · simp only [Option.map_eq_some_iff] at recorded
      obtain ⟨was, present, rfl⟩ := recorded
      exact ⟨was, present, rfl⟩
    · exact ⟨work, recorded, rfl⟩
  cases occurrence with
  | dispatched other program launcher =>
      simp only [after, work_addWork] at recorded
      split at recorded
      · next same =>
          cases recorded
          exact .inr (by rw [same])
      · exact .inl ⟨work, recorded, rfl⟩
  | began _ _ | worked _ _ | discarded _ => exact .inl (unfated recorded)
  | _ => exact .inl ⟨work, recorded, rfl⟩

/-- Works that were over stay over, as long as the machine launches no more. -/
theorem Over.after {but : Option Nat} (permitted : chronicle.Permits occurrence)
    (foreign : occurrence.place? ≠ some (.started machine))
    (through : chronicle.Over machine but) : (chronicle.after occurrence).Over machine but := by
  intro deferred work number recorded launcher other
  rcases work_before recorded with ⟨was, present, same⟩ | rfl
  · have settled := through deferred was number present (same.trans launcher) other
    cases (outcome_of_over permitted present settled).symm.trans recorded
    exact settled
  · simp [Occurrence.place?, launcher] at foreign

/-- What happens elsewhere is no part of a machine's steps. -/
theorem step_after (foreign : occurrence.place? ≠ some (.started machine)) :
    ((chronicle.after occurrence).life machine).step = (chronicle.life machine).step ∧
      ((chronicle.after occurrence).life machine).form = (chronicle.life machine).form := by
  cases occurrence with
  | started other _ _ | called other _ | ended other _ =>
      have different : machine ≠ other := by
        rintro rfl
        simp [Occurrence.place?] at foreign
      simp [after, different]
  | cancelled other | abandoned other | told other _ =>
      simp only [after, life_onLife]
      split <;> exact ⟨rfl, rfl⟩
  | _ => exact ⟨rfl, rfl⟩

/-- A deed of a machine elsewhere is what becomes of one of its works. -/
theorem deedsIn_of_over (permitted : chronicle.Permits occurrence)
    (foreign : occurrence.place? ≠ some (.started machine))
    (through : chronicle.Over machine none) : chronicle.deedsIn machine occurrence = [] := by
  have idle {other : Nat} {fate : Fate}
      (under : ∃ program launcher, chronicle.work other = some ⟨program, launcher, fate⟩)
      (early : fate.outcome? = none) : chronicle.launch? machine other = none := by
    obtain ⟨program, launcher, recorded⟩ := under
    simp only [launch?, recorded]
    cases launcher with
    | none => rfl
    | some pair =>
        obtain ⟨place, number⟩ := pair
        have different : place ≠ .started machine := by
          rintro rfl
          have settled := through other _ number recorded rfl (by simp)
          simp [early] at settled
        simp [different]
  cases occurrence with
  | dispatched other program launcher =>
      cases launcher with
      | none => rfl
      | some pair =>
          obtain ⟨place, number⟩ := pair
          have different : place ≠ .started machine := by simpa [Occurrence.place?] using foreign
          simp [deedsIn, different]
  | shown place _ _ | announced place _ =>
      have different : place ≠ .started machine := by simpa [Occurrence.place?] using foreign
      simp [deedsIn, different]
  | began other program => simp [deedsIn, idle ⟨program, permitted⟩ rfl]
  | worked other _ => simp [deedsIn, idle permitted rfl]
  | discarded other => simp [deedsIn, idle permitted rfl]
  | _ => rfl

end Chronicle

/-- What happens elsewhere is no call of a machine's step. -/
theorem calls_of_foreign {machine : Nat} {trace : List Occurrence} {occurrence : Occurrence}
    (foreign : occurrence.place? ≠ some (.started machine)) :
    calls machine (trace ++ [occurrence]) = calls machine trace := by
  cases occurrence with
  | called other _ =>
      have different : other ≠ machine := by simpa [Occurrence.place?] using foreign
      simp [Occurrence.calls, different]
  | _ => simp [Occurrence.calls]

namespace Phase

variable {machine : Nat} {form : Machine} {trace : List Occurrence} {world later : World}
  {occurrence : Occurrence} {values : List Value} {deferred : Nat} {point : Point}
  {outcome : Outcome} {stack : Stack}

/-! ## Silence -/

/-- An occurrence that is no deed and moves no work leaves a machine where it stands. -/
theorem Stands.silent (stands : Stands machine form trace point)
    (quiet : (Chronicle.of trace).deedsIn machine occurrence = [])
    (works : ((Chronicle.of trace).after occurrence).work = (Chronicle.of trace).work) :
    Stands machine form (trace ++ [occurrence]) point where
  course := by
    rw [deeds_snoc, quiet, List.append_nil]
    exact stands.course
  through := by
    rw [Chronicle.of_snoc]
    intro deferred work number recorded
    rw [works] at recorded
    exact stands.through deferred work number recorded

/-- An occurrence that is no deed and moves no work leaves what a machine awaits. -/
theorem Expects.silent (expects : Expects machine form trace world values deferred)
    (quiet : (Chronicle.of trace).deedsIn machine occurrence = [])
    (works : ((Chronicle.of trace).after occurrence).work = (Chronicle.of trace).work) :
    Expects machine form (trace ++ [occurrence]) world values deferred where
  planned := by
    rw [Chronicle.of_snoc, works, deeds_snoc, quiet, List.append_nil]
    exact expects.planned
  through := by
    rw [Chronicle.of_snoc]
    intro other work number recorded
    rw [works] at recorded
    exact expects.through other work number recorded
  untaken := expects.untaken

/-! ## What happens elsewhere -/

theorem Stands.after (stands : Stands machine form trace point)
    (permitted : (Chronicle.of trace).Permits occurrence)
    (foreign : occurrence.place? ≠ some (.started machine)) :
    Stands machine form (trace ++ [occurrence]) point where
  course := by
    rw [deeds_snoc, Chronicle.deedsIn_of_over permitted foreign stands.through, List.append_nil]
    exact stands.course
  through := by
    rw [Chronicle.of_snoc]
    exact stands.through.after permitted foreign

/-- The work that a machine awaits comes along. -/
theorem Expects.after (expects : Expects machine form trace world values deferred)
    (permitted : (Chronicle.of trace).Permits occurrence)
    (foreign : occurrence.place? ≠ some (.started machine)) :
    Expects machine form (trace ++ [occurrence]) world values deferred := by
  obtain ⟨⟨work, fate, planned, recorded, course⟩, through, untaken⟩ := expects
  refine ⟨?_, by rw [Chronicle.of_snoc]; exact through.after permitted foreign, untaken⟩
  have launched : (Chronicle.of trace).launch? machine deferred = some (values.length, work) := by
    simp [Chronicle.launch?, recorded]
  -- Only the awaited work is under way, so whatever else begins or ends is not the
  -- machine's.
  have unlaunched {other : Nat} {early : Fate} (different : other ≠ deferred)
      (under : ∃ program launcher,
        (Chronicle.of trace).work other = some ⟨program, launcher, early⟩)
      (unsettled : early.outcome? = none) :
      (Chronicle.of trace).launch? machine other = none := by
    obtain ⟨program, launcher, present⟩ := under
    simp only [Chronicle.launch?, present]
    cases launcher with
    | none => rfl
    | some pair =>
        obtain ⟨place, number⟩ := pair
        have elsewhere : place ≠ .started machine := by
          rintro rfl
          have settled := through other _ number present rfl (by simpa using different)
          simp [unsettled] at settled
        simp [elsewhere]
  have unmoved (quiet : (Chronicle.of trace).deedsIn machine occurrence = [])
      (still : ((Chronicle.of trace).after occurrence).work deferred =
        (Chronicle.of trace).work deferred) :
      ∃ work fate, form.work? values = some work ∧
        (Chronicle.of (trace ++ [occurrence])).work deferred =
          some ⟨work, some (.started machine, values.length), fate⟩ ∧
        Course form (deeds machine (trace ++ [occurrence])) (fate.point values work) := by
    refine ⟨work, fate, planned, ?_, ?_⟩
    · rw [Chronicle.of_snoc, still, recorded]
    · rw [deeds_snoc, quiet, List.append_nil]
      exact course
  cases occurrence with
  | dispatched other program launcher =>
      have different : deferred ≠ other := by
        rintro rfl
        simp [Chronicle.Permits, recorded] at permitted
      refine unmoved ?_ (by simp [Chronicle.after, different])
      cases launcher with
      | none => rfl
      | some pair =>
          obtain ⟨place, number⟩ := pair
          have elsewhere : place ≠ .started machine := by
            simpa [Occurrence.place?] using foreign
          simp [Chronicle.deedsIn, elsewhere]
  | began other program =>
      by_cases same : other = deferred
      · subst same
        obtain ⟨launcher, waiting⟩ := permitted
        cases recorded.symm.trans waiting
        refine ⟨work, .running, planned, ?_, ?_⟩
        · simp [Chronicle.of_snoc, Chronicle.after, recorded]
        · rw [deeds_snoc]
          simpa [Chronicle.deedsIn, launched, Fate.point] using course.began
      · exact unmoved (by simp [Chronicle.deedsIn, unlaunched same ⟨program, permitted⟩ rfl])
          (by simp [Chronicle.after, Ne.symm same])
  | worked other result =>
      by_cases same : other = deferred
      · subst same
        obtain ⟨program, launcher, running⟩ := permitted
        cases recorded.symm.trans running
        refine ⟨work, .ended result, planned, ?_, ?_⟩
        · simp [Chronicle.of_snoc, Chronicle.after, recorded]
        · rw [deeds_snoc]
          simpa [Chronicle.deedsIn, launched, Fate.point] using course.worked
      · exact unmoved (by simp [Chronicle.deedsIn, unlaunched same permitted rfl])
          (by simp [Chronicle.after, Ne.symm same])
  | discarded other =>
      by_cases same : other = deferred
      · subst same
        obtain ⟨program, launcher, waiting⟩ := permitted
        cases recorded.symm.trans waiting
        refine ⟨work, .discarded, planned, ?_, ?_⟩
        · simp [Chronicle.of_snoc, Chronicle.after, recorded]
        · rw [deeds_snoc]
          simpa [Chronicle.deedsIn, launched, Fate.point] using course.discarded
      · exact unmoved (by simp [Chronicle.deedsIn, unlaunched same permitted rfl])
          (by simp [Chronicle.after, Ne.symm same])
  | shown place _ _ | announced place _ =>
      have elsewhere : place ≠ .started machine := by simpa [Occurrence.place?] using foreign
      exact unmoved (by simp [Chronicle.deedsIn, elsewhere]) rfl
  | _ => exact unmoved rfl rfl

theorem Rests.after (rests : Rests machine form trace world values deferred)
    (permitted : (Chronicle.of trace).Permits occurrence)
    (foreign : occurrence.place? ≠ some (.started machine)) :
    Rests machine form (trace ++ [occurrence]) world values deferred :=
  ⟨rests.expects.after permitted foreign, rests.body,
    (calls_of_foreign foreign).trans rests.called⟩

theorem Settles.after (settles : Settles machine form trace outcome)
    (permitted : (Chronicle.of trace).Permits occurrence)
    (foreign : occurrence.place? ≠ some (.started machine)) :
    Settles machine form (trace ++ [occurrence]) outcome := by
  obtain ⟨⟨point, stands, settled⟩, called⟩ := settles
  exact ⟨⟨point, stands.after permitted foreign, settled⟩,
    by rw [calls_of_foreign foreign]; exact called⟩

theorem Breaks.after {payload : Payload} (breaks : Breaks machine form trace payload)
    (permitted : (Chronicle.of trace).Permits occurrence)
    (foreign : occurrence.place? ≠ some (.started machine)) :
    Breaks machine form (trace ++ [occurrence]) payload := by
  obtain ⟨⟨point, stands⟩, cause, called⟩ := breaks
  refine ⟨⟨point, stands.after permitted foreign⟩, ?_,
    by rw [calls_of_foreign foreign]; exact called⟩
  exact cause.imp_left fun member => List.mem_append_left _ member

theorem Pauses.after (pauses : Pauses machine form trace world values point)
    (permitted : (Chronicle.of trace).Permits occurrence)
    (foreign : occurrence.place? ≠ some (.started machine)) :
    Pauses machine form (trace ++ [occurrence]) world values point :=
  ⟨pauses.stands.after permitted foreign, pauses.body,
    (calls_of_foreign foreign).trans pauses.called⟩

theorem Waits.after {frame : Frame} (waits : Waits machine form trace world frame)
    (permitted : (Chronicle.of trace).Permits occurrence)
    (foreign : occurrence.place? ≠ some (.started machine)) :
    Waits machine form (trace ++ [occurrence]) world frame := by
  cases frame with
  | inspected place number value =>
      cases form with
      | pipeline _ _ _ _ =>
          obtain ⟨same, values, counted, pauses⟩ := waits
          exact ⟨same, values, counted, pauses.after permitted foreign⟩
      | _ => exact waits
  | announced place announcement =>
      cases form with
      | cubeRoot _ _ _ _ _ =>
          obtain ⟨same, heard⟩ := waits
          refine ⟨same, ?_⟩
          cases announcement with
          | started => exact heard.after permitted foreign
          | cube _ =>
              obtain ⟨cubed, pauses⟩ := heard
              exact ⟨cubed, pauses.after permitted foreign⟩
          | root _ =>
              obtain ⟨rooted, cubed, pauses⟩ := heard
              exact ⟨rooted, cubed, pauses.after permitted foreign⟩
          | finished =>
              obtain ⟨rooted, cubed, value, result, pauses⟩ := heard
              exact ⟨rooted, cubed, value, result, pauses.after permitted foreign⟩
      | _ => exact waits
  | launched place number deferred =>
      have carried : place = .started machine ∧ ∃ values, number = values.length ∧
          Expects machine form trace world values deferred ∧
          world.body? (.started machine) =
            some (form.bodyAfter values (values.length + 1)) ∧
          calls machine trace = values.length + 1 := by
        cases form <;> exact waits
      obtain ⟨same, values, counted, expects, body, called⟩ := carried
      have later := expects.after permitted foreign
      have still := (calls_of_foreign foreign).trans called
      cases form <;> exact ⟨same, values, counted, later, body, still⟩
  | _ => cases form <;> exact waits

end Phase

/-- What happens elsewhere leaves the phase of a machine alone. -/
theorem Phase.after {machine : Nat} {form : Machine} {trace : List Occurrence} {world : World}
    {stack : Stack} {occurrence : Occurrence} (phase : Phase machine form trace world stack)
    (permitted : (Chronicle.of trace).Permits occurrence)
    (foreign : occurrence.place? ≠ some (.started machine)) :
    Phase machine form (trace ++ [occurrence]) world stack := by
  have step : (((Chronicle.of trace).after occurrence).life machine).step =
      ((Chronicle.of trace).life machine).step := (Chronicle.step_after foreign).1
  unfold Phase at phase ⊢
  rw [Chronicle.of_snoc, step]
  split at phase
  · next unstepped =>
      obtain ⟨stands, body, called⟩ := phase
      exact ⟨stands.after permitted foreign, body, (calls_of_foreign foreign).trans called⟩
  · exact fun frame seats => (phase frame seats).after permitted foreign
  · obtain ⟨values, counted, rests⟩ := phase
    exact ⟨values, counted, rests.after permitted foreign⟩
  · exact phase.after permitted foreign
  · exact phase.after permitted foreign
  · exact phase.after permitted foreign

end Stepwise
