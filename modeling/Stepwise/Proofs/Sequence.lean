import Stepwise.Proofs.Fold

/-!
# The demonstration refines its sequential body

Written out in one piece, the demonstration announces that it has started, cubes its number,
announces the cube, takes the root of the cube, and announces the root and the end.  Whatever
a run does to it, its deeds are those of this body, cut short somewhere; and what its observer
is told is the outcome of the body, unless the machine was cancelled or something of it was
dropped.
-/

namespace Stepwise

/-- What a deed announces. -/
def Deed.announcement? : Deed → Option Announcement
  | .announced announcement => some announcement
  | _ => none

/-- A machine comes to a value only where everything is done. -/
theorem Point.exists_ok_iff {point : Point} {outcome : Outcome}
    (came : point.outcome? = some outcome) :
    (∃ value, outcome = .ok value) ↔ ∃ value, point = .closed value := by
  cases point with
  | fresh | ready _ | launched _ _ | running _ _ => cases came
  | discarded _ =>
      cases came
      simp
  | worked _ result =>
      cases result with
      | ok _ => cases came
      | error _ =>
          cases came
          simp
  | closed value =>
      cases came
      simp

namespace CubeRoot

/-- The deeds of running a computation as a work. -/
def computing (number : Nat) (work : Program) (result : Except Failure Value) : List Deed :=
  [.launched number work, .began number work, .worked number work result]

/-- The deeds of the sequential body on a number, and its outcome. -/
inductive Sequence (input : Float) (cube root : Float → Program) : List Deed → Outcome → Prop
    where
  | cubeFailed {failure : Failure} :
      (cube input).Yields (.error failure) →
        Sequence input cube root
          (.announced .started :: computing 0 (cube input) (.error failure))
          (.error (.work failure))
  | rootFailed {cubed : Value} {failure : Failure} :
      (cube input).Yields (.ok cubed) → (root (realOf cubed)).Yields (.error failure) →
        Sequence input cube root
          (.announced .started :: computing 0 (cube input) (.ok cubed) ++
            .announced (.cube (realOf cubed)) ::
              computing 1 (root (realOf cubed)) (.error failure))
          (.error (.work failure))
  | finished {cubed rooted : Value} :
      (cube input).Yields (.ok cubed) → (root (realOf cubed)).Yields (.ok rooted) →
        Sequence input cube root
          (.announced .started :: computing 0 (cube input) (.ok cubed) ++
            .announced (.cube (realOf cubed)) ::
              computing 1 (root (realOf cubed)) (.ok rooted) ++
                [.announced (.root (realOf rooted)), .announced .finished])
          (.ok (.record [("cube", .real (realOf cubed)), ("root", .real (realOf rooted))]))

/-- What the sequential body announces on a number when its computations are functions, and
its outcome. -/
def sequential (cube root : Computation) (input : Float) : List Announcement × Outcome :=
  match cube input with
  | .error failure => ([.started], .error (.work failure))
  | .ok cubed =>
      match root cubed with
      | .error failure => ([.started, .cube cubed], .error (.work failure))
      | .ok rooted =>
          ([.started, .cube cubed, .root rooted, .finished],
            .ok (.record [("cube", .real cubed), ("root", .real rooted)]))

end CubeRoot

/-- Programs that make no requests compute a function on reals. -/
def Computation.IsGivenBy (computation : Computation) (programs : Float → Program) : Prop :=
  ∀ number, (programs number).result? = some ((computation number).map .real)

namespace Computation.IsGivenBy

variable {computation : Computation} {programs : Float → Program} {number : Float}

theorem eq_error {failure : Failure} (gives : computation.IsGivenBy programs)
    (yields : (programs number).Yields (.error failure)) :
    computation number = .error failure := by
  have settled := yields.eq_of_result (gives number)
  cases computed : computation number with
  | ok _ => cases computed ▸ settled
  | error _ =>
      cases computed ▸ settled
      rfl

theorem exists_ok {value : Value} (gives : computation.IsGivenBy programs)
    (yields : (programs number).Yields (.ok value)) :
    ∃ result, value = .real result ∧ computation number = .ok result := by
  have settled := yields.eq_of_result (gives number)
  cases computed : computation number with
  | error _ => cases computed ▸ settled
  | ok result =>
      cases computed ▸ settled
      exact ⟨result, rfl, rfl⟩

end Computation.IsGivenBy

theorem Computation.isGivenBy_work (computation : Computation) :
    computation.IsGivenBy computation.work := by
  intro number
  unfold work
  cases computed : computation number <;> rfl

/-! ## Trails -/

/-- The deeds by which the works of a machine have given some values, the latest first. -/
inductive Trail (form : Machine) : List Deed → List Value → Prop where
  | opened : Trail form form.opening []
  | passed {deeds : List Deed} {values : List Value} {work : Program} {value : Value} :
      Trail form deeds values → form.work? values = some work → work.Yields (.ok value) →
        Trail form
          (deeds ++ CubeRoot.computing values.length work (.ok value) ++
            [form.notice values.length value])
          (value :: values)

/-- How the deeds up to a point of a plan follow the trail to the values so far. -/
def Point.Trails (form : Machine) (deeds : List Deed) : Point → Prop
  | .fresh => deeds = []
  | .ready values => Trail form deeds values
  | .launched values work =>
      ∃ before, deeds = before ++ [.launched values.length work] ∧ Trail form before values ∧
        form.work? values = some work
  | .running values work =>
      ∃ before, deeds =
        before ++ [.launched values.length work, .began values.length work] ∧
          Trail form before values ∧ form.work? values = some work
  | .worked values result =>
      ∃ before work, deeds = before ++ CubeRoot.computing values.length work result ∧
        Trail form before values ∧ form.work? values = some work ∧ work.Yields result
  | .discarded values =>
      ∃ before work, deeds =
        before ++ [.launched values.length work, .discarded values.length] ∧
          Trail form before values ∧ form.work? values = some work
  | .closed value =>
      ∃ before values, deeds = before ++ form.closing ∧ Trail form before values ∧
        form.result? values = some value

/-- A course whose works have given what they yield follows a trail. -/
theorem Course.trails {form : Machine} {deeds : List Deed} {point : Point}
    (course : Course form deeds point) (yielded : Pipeline.Yielded deeds) :
    point.Trails form deeds := by
  induction course with
  | fresh => rfl
  | opened => exact .opened
  | launched _ planned ih => exact ⟨_, rfl, ih yielded.left, planned⟩
  | began _ ih =>
      obtain ⟨before, rfl, trail, planned⟩ := ih yielded.left
      exact ⟨before, by simp, trail, planned⟩
  | discarded _ ih =>
      obtain ⟨before, rfl, trail, planned⟩ := ih yielded.left
      exact ⟨before, _, by simp, trail, planned⟩
  | @worked deeds values work result _ ih =>
      obtain ⟨before, rfl, trail, planned⟩ := ih yielded.left
      exact ⟨before, work, by simp [CubeRoot.computing], trail, planned,
        yielded values.length work result (by simp)⟩
  | noticed _ ih =>
      obtain ⟨before, work, rfl, trail, planned, yields⟩ := ih yielded.left
      exact trail.passed planned yields
  | closed _ settled ih => exact ⟨_, _, rfl, ih yielded.left, settled⟩

/-! ## The body, cut short -/

namespace CubeRoot

variable {input : Float} {cube root : Float → Program} {dispatcher : Dispatcher}
  {announce : Announcement → Program} {before deeds whole : List Deed} {values : List Value}
  {cubed rooted : Value} {work : Program} {result : Except Failure Value} {point : Point}
  {outcome : Outcome}

/-- What the body does is determined when its computations are functions. -/
theorem Sequence.eq_sequential {cubing rooting : Computation}
    (sequence : Sequence input cube root whole outcome) (cubes : cubing.IsGivenBy cube)
    (roots : rooting.IsGivenBy root) :
    (whole.filterMap Deed.announcement?, outcome) = sequential cubing rooting input := by
  cases sequence with
  | cubeFailed failed =>
      rw [sequential, cubes.eq_error failed]
      rfl
  | rootFailed passed failed =>
      obtain ⟨number, rfl, first⟩ := cubes.exists_ok passed
      have second : rooting number = _ := roots.eq_error failed
      simp only [sequential, first, second]
      rfl
  | finished passed ended =>
      obtain ⟨number, rfl, first⟩ := cubes.exists_ok passed
      obtain ⟨last, rfl, second⟩ := roots.exists_ok ended
      have second : rooting number = _ := second
      simp only [sequential, first, second]
      rfl

/-- Before its first work the demonstration has announced that it has started. -/
theorem eq_of_trail_nil (trail : Trail (.cubeRoot input cube root dispatcher announce) deeds []) :
    deeds = [.announced .started] := by
  cases trail
  rfl

/-- Between its works the demonstration has announced the cube. -/
theorem eq_of_trail_one
    (trail : Trail (.cubeRoot input cube root dispatcher announce) deeds [cubed]) :
    deeds = .announced .started :: computing 0 (cube input) (.ok cubed) ++
        [.announced (.cube (realOf cubed))] ∧
      (cube input).Yields (.ok cubed) := by
  cases trail with
  | passed trail planned yields =>
      cases eq_of_trail_nil trail
      cases planned
      exact ⟨rfl, yields⟩

/-- After its works the demonstration has announced the root. -/
theorem eq_of_trail_two
    (trail : Trail (.cubeRoot input cube root dispatcher announce) deeds [rooted, cubed]) :
    deeds = .announced .started :: computing 0 (cube input) (.ok cubed) ++
        .announced (.cube (realOf cubed)) :: computing 1 (root (realOf cubed)) (.ok rooted) ++
          [.announced (.root (realOf rooted))] ∧
      (cube input).Yields (.ok cubed) ∧ (root (realOf cubed)).Yields (.ok rooted) := by
  cases trail with
  | passed trail planned yields =>
      obtain ⟨rfl, passed⟩ := eq_of_trail_one trail
      cases planned
      exact ⟨rfl, passed, yields⟩

/-- A work of the demonstration may give any result that it yields, and its error is that of
the body. -/
theorem exists_sequence_of_trail
    (trail : Trail (.cubeRoot input cube root dispatcher announce) before values)
    (planned : (Machine.cubeRoot input cube root dispatcher announce).work? values = some work)
    (yields : work.Yields result) :
    ∃ rest outcome, Sequence input cube root
      (before ++ computing values.length work result ++ rest) outcome ∧
        ∀ failure, result = .error failure →
          rest = [] ∧ outcome = .error (.work failure) := by
  cases values with
  | nil =>
      cases eq_of_trail_nil trail
      cases planned
      cases result with
      | error failure =>
          refine ⟨[], _, .cubeFailed yields, ?_⟩
          rintro _ ⟨⟩
          exact ⟨rfl, rfl⟩
      | ok cubed =>
          obtain ⟨result, later⟩ := (root (realOf cubed)).exists_yields
          cases result with
          | error _ => exact ⟨_, _, .rootFailed yields later, nofun⟩
          | ok _ => exact ⟨_, _, .finished yields later, nofun⟩
  | cons cubed values =>
      cases values with
      | cons _ _ => cases planned
      | nil =>
          obtain ⟨rfl, passed⟩ := eq_of_trail_one trail
          cases planned
          cases result with
          | error failure =>
              refine ⟨[], _, by simpa using Sequence.rootFailed passed yields, ?_⟩
              rintro _ ⟨⟩
              exact ⟨rfl, rfl⟩
          | ok rooted =>
              exact ⟨_, _, by simpa using Sequence.finished passed yields, nofun⟩

/-- Between works the deeds of the demonstration begin those of its body. -/
theorem exists_sequence_of_ready
    (trail : Trail (.cubeRoot input cube root dispatcher announce) deeds values) :
    ∃ whole sequential, Sequence input cube root whole sequential ∧ deeds <+: whole := by
  have onwards {work : Program}
      (planned : (Machine.cubeRoot input cube root dispatcher announce).work? values =
        some work) :
      ∃ whole sequential, Sequence input cube root whole sequential ∧ deeds <+: whole := by
    obtain ⟨result, yields⟩ := work.exists_yields
    obtain ⟨rest, outcome, sequence, -⟩ := exists_sequence_of_trail trail planned yields
    exact ⟨_, outcome, sequence, by simp⟩
  cases values with
  | nil => exact onwards rfl
  | cons last values =>
      cases values with
      | nil => exact onwards rfl
      | cons cubed values =>
          cases values with
          | nil =>
              obtain ⟨rfl, passed, ended⟩ := eq_of_trail_two trail
              exact ⟨_, _, .finished passed ended, by simp⟩
          | cons _ _ =>
              cases trail with
              | passed _ planned _ => cases planned

/-- What the demonstration has done and come to is part of what its body does. -/
theorem exists_sequence
    (trails : point.Trails (.cubeRoot input cube root dispatcher announce) deeds) :
    ∃ whole sequential, Sequence input cube root whole sequential ∧
      Pipeline.Cuts whole deeds ∧
      ∀ outcome, point.outcome? = some outcome →
        (outcome = .error .shutdown ∧ ∃ number, .discarded number ∈ deeds) ∨
          (outcome = sequential ∧ deeds = whole) := by
  cases point with
  | fresh =>
      cases trails
      obtain ⟨whole, sequential, sequence, -⟩ := exists_sequence_of_ready
        (.opened : Trail (.cubeRoot input cube root dispatcher announce) _ _)
      exact ⟨whole, sequential, sequence, .inl List.nil_prefix, nofun⟩
  | ready values =>
      obtain ⟨whole, sequential, sequence, cut⟩ := exists_sequence_of_ready trails
      exact ⟨whole, sequential, sequence, .inl cut, nofun⟩
  | launched values work | running values work =>
      obtain ⟨before, rfl, trail, planned⟩ := trails
      obtain ⟨result, yields⟩ := work.exists_yields
      obtain ⟨rest, outcome, sequence, -⟩ := exists_sequence_of_trail trail planned yields
      exact ⟨_, outcome, sequence, .inl (by simp [computing]), nofun⟩
  | worked values result =>
      obtain ⟨before, work, rfl, trail, planned, yields⟩ := trails
      obtain ⟨rest, outcome, sequence, fails⟩ := exists_sequence_of_trail trail planned yields
      refine ⟨_, outcome, sequence, .inl (List.prefix_append ..), ?_⟩
      intro settled came
      cases result with
      | ok _ => cases came
      | error failure =>
          cases came
          obtain ⟨rfl, rfl⟩ := fails failure rfl
          exact .inr ⟨rfl, by simp⟩
  | discarded values =>
      obtain ⟨before, work, rfl, trail, planned⟩ := trails
      obtain ⟨result, yields⟩ := work.exists_yields
      obtain ⟨rest, outcome, sequence, -⟩ := exists_sequence_of_trail trail planned yields
      refine ⟨_, outcome, sequence, .inr ⟨before ++ [.launched values.length work],
        values.length, by simp, by simp [computing]⟩, ?_⟩
      rintro _ ⟨⟩
      exact .inl ⟨rfl, values.length, by simp⟩
  | closed value =>
      obtain ⟨before, values, rfl, trail, result⟩ := trails
      cases values with
      | nil => cases result
      | cons rooted values =>
          cases values with
          | nil => cases result
          | cons cubed values =>
              cases values with
              | cons _ _ => cases result
              | nil =>
                  cases result
                  obtain ⟨rfl, passed, ended⟩ := eq_of_trail_two trail
                  refine ⟨_, _, .finished passed ended, .inl (by simp [Machine.closing]), ?_⟩
                  rintro _ ⟨⟩
                  exact .inr ⟨rfl, by simp [Machine.closing]⟩

theorem unfinished_of_trail
    (trail : Trail (.cubeRoot input cube root dispatcher announce) deeds values) :
    .announced .finished ∉ deeds := by
  induction trail with
  | opened => simp [Machine.opening]
  | passed _ _ _ ih =>
      simp only [List.mem_append, List.mem_singleton, Machine.notice, computing]
      split <;> simp [ih]

/-- The end is announced only when everything is done. -/
theorem finished_mem_iff
    (trails : point.Trails (.cubeRoot input cube root dispatcher announce) deeds) :
    .announced .finished ∈ deeds ↔ ∃ value, point = .closed value := by
  cases point with
  | fresh =>
      cases trails
      simp
  | ready values => simpa using unfinished_of_trail trails
  | launched values work | running values work =>
      obtain ⟨before, rfl, trail, -⟩ := trails
      simpa using unfinished_of_trail trail
  | worked values result =>
      obtain ⟨before, work, rfl, trail, -⟩ := trails
      simpa [computing] using unfinished_of_trail trail
  | discarded values =>
      obtain ⟨before, work, rfl, trail, -⟩ := trails
      simpa using unfinished_of_trail trail
  | closed value =>
      obtain ⟨before, values, rfl, -⟩ := trails
      simp [Machine.closing]

end CubeRoot

variable {trace : List Occurrence} {state : State} {machine : Nat} {form : Machine}
  {outcome : Outcome}

/-- The demonstration refines its sequential body.  Where its works are not sent to the current
context, or no dispatch of it panicked for want of one, and its hook does not panic, what it
does is part of what the body does, in at most three steps.  Its observer is told the outcome
of the body, all of whose deeds are done then, unless the machine was cancelled, or its
resumption or a work of it was dropped; it is told a value exactly when the end was announced.
With functions for computations, the body is the one written out. -/
theorem cubeRoot_refines_sequence {input : Float} {cube root : Float → Program}
    {dispatcher : Dispatcher} {announce : Announcement → Program}
    (reaches : Reaches trace state)
    (started : ((Chronicle.of trace).life machine).form =
      some (.cubeRoot input cube root dispatcher announce))
    (placed : (∀ count, dispatcher.target count ≠ .context) ∨
      .ended machine (.panicked (.text (State.outsideRuntime false))) ∉ trace)
    (uninterrupted : .interrupted (.started machine) ∉ trace) :
    ∃ whole sequential, CubeRoot.Sequence input cube root whole sequential ∧
      Pipeline.Cuts whole (deeds machine trace) ∧ calls machine trace ≤ 3 ∧
      (∀ outcome, ((Chronicle.of trace).life machine).told = some outcome →
        ((∃ value, outcome = .ok value) ↔
          .announced .finished ∈ deeds machine trace) ∧
        ((outcome = .error .cancelled ∧
            ((Chronicle.of trace).life machine).cancelled = true) ∨
          (outcome = .error .shutdown ∧
            (((Chronicle.of trace).life machine).abandoned = true ∨
              ∃ number, .discarded number ∈ deeds machine trace)) ∨
          (outcome = sequential ∧ deeds machine trace = whole))) ∧
      ∀ cubing rooting : Computation, cubing.IsGivenBy cube → rooting.IsGivenBy root →
        (whole.filterMap Deed.announcement?, sequential) =
          CubeRoot.sequential cubing rooting input := by
  have yielded : Pipeline.Yielded (deeds machine trace) :=
    fun number work result deed => reaches.yields_of_deed deed
  obtain ⟨⟨point, course⟩, called⟩ := reaches.goes started rfl
  cases told : ((Chronicle.of trace).life machine).told with
  | none =>
      obtain ⟨whole, sequential, sequence, cuts, -⟩ :=
        CubeRoot.exists_sequence (course.trails yielded)
      exact ⟨whole, sequential, sequence, cuts, called, nofun,
        fun _ _ cubes roots => sequence.eq_sequential cubes roots⟩
  | some outcome =>
      obtain ⟨point, course, how⟩ := reaches.exists_point_of_told started rfl
        (placed.imp_left not_exists.mpr) uninterrupted told
      have trails := course.trails yielded
      have ends := CubeRoot.finished_mem_iff trails
      obtain ⟨whole, sequential, sequence, cuts, comes⟩ := CubeRoot.exists_sequence trails
      refine ⟨whole, sequential, sequence, cuts, called, ?_,
        fun _ _ cubes roots => sequence.eq_sequential cubes roots⟩
      rintro _ ⟨⟩
      rw [ends]
      rcases how with ⟨cut, going⟩ | came
      · have failed : ∀ value, outcome ≠ .ok value := by
          rcases cut with ⟨rfl, -⟩ | ⟨rfl, -⟩ <;> exact nofun
        refine ⟨⟨?_, ?_⟩, ?_⟩
        · rintro ⟨value, rfl⟩
          exact absurd rfl (failed value)
        · rintro ⟨value, closed⟩
          exact absurd closed (going value)
        · rcases cut with cancelled | ⟨shutdown, abandoned⟩
          · exact .inl cancelled
          · exact .inr (.inl ⟨shutdown, .inl abandoned⟩)
      · refine ⟨point.exists_ok_iff came, ?_⟩
        rcases comes outcome came with ⟨shutdown, discarded⟩ | refined
        · exact .inr (.inl ⟨shutdown, .inr discarded⟩)
        · exact .inr (.inr refined)

/-- The square root of any number, of a negative one too. -/
def Computation.anyRoot : Computation := fun number => .ok number.sqrt

/-- Start the demonstration, which cubes its number on a runtime and takes the root at once,
and let a worker run what is queued. -/
def Program.cubing (input : Float) : Program :=
  .call (.newRuntime (.shared "runtime") 1 "worker") fun _ =>
    .call (.start (.shared "machine")
      (.cubeRoot input Computation.cube.work Computation.anyRoot.work
        (.planned 0 [true, false]) fun _ => .ret .done) (.pool 0) fun _ => .ret .done) fun _ =>
      .call (.work (.shared "runtime")) fun _ => .call (.work (.shared "runtime")) .ret

/-- The observer of that demonstration is told the outcome of its body, all of which was
done. -/
theorem cubeRoot_refines_sequence_cubing :
    ((Chronicle.of ((State.ofProgram .initial (.cubing 2)).walk 46).1).life 0).told =
        some (.ok (.record
          [("cube", .real (2 * (2 * 2))), ("root", .real (2 * (2 * 2) : Float).sqrt)])) ∧
      ((deeds 0 ((State.ofProgram .initial (.cubing 2)).walk 46).1).filterMap
        Deed.announcement?, .ok (.record
          [("cube", .real (2 * (2 * 2))), ("root", .real (2 * (2 * 2) : Float).sqrt)])) =
        CubeRoot.sequential .cube .anyRoot 2 := by
  obtain ⟨whole, sequential, -, -, -, comes, body⟩ := @cubeRoot_refines_sequence _ _ 0 _ _ _ _ _
    ((Reaches.begin (.cubing 2)).walk 46) rfl
    (.inl (Dispatcher.target_planned 0 [true, false])) (Occurrence.uninterrupted rfl)
  refine ⟨rfl, ?_⟩
  rcases (comes _ rfl).2 with ⟨other, -⟩ | ⟨other, -⟩ | ⟨rfl, rfl⟩
  · cases other
  · cases other
  · exact body _ _ Computation.cube.isGivenBy_work Computation.anyRoot.isGivenBy_work

end Stepwise
