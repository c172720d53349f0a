import Stepwise.Proofs.History

/-!
# Courses of library machines

A pipeline launches one work after the other, each on the value of the one before, and
has its hook see every value; the cube-root demonstration does the same between
announcements.  The deeds of such a machine are what it does and what becomes of its
works, in the order in which it happens.  Its course is what these deeds must look like:
each deed leads from one point of the machine's plan to the next.
-/

namespace Stepwise

/-- Something that a library machine does, or that becomes of one of its works. -/
inductive Deed where
  | launched (number : Nat) (work : Program)
  | began (number : Nat) (work : Program)
  | worked (number : Nat) (work : Program) (result : Except Failure Value)
  /-- The work was dropped before it began. -/
  | discarded (number : Nat)
  | shown (number : Nat) (value : Value)
  | announced (announcement : Announcement)

namespace Chronicle

/-- The work of a deferred and the suspension at which a machine awaits it, if the machine
launched it. -/
def launch? (chronicle : Chronicle) (machine deferred : Nat) : Option (Nat × Program) :=
  match chronicle.work deferred with
  | some ⟨work, some (place, number), _⟩ =>
      if place = .started machine then some (number, work) else none
  | _ => none

/-- The deeds of a machine that an occurrence stands for. -/
def deedsIn (chronicle : Chronicle) (machine : Nat) : Occurrence → List Deed
  | .dispatched _ work (some (place, number)) =>
      if place = .started machine then [.launched number work] else []
  | .began deferred work =>
      ((chronicle.launch? machine deferred).map fun launch => .began launch.1 work).toList
  | .worked deferred result =>
      ((chronicle.launch? machine deferred).map fun launch =>
        .worked launch.1 launch.2 result).toList
  | .discarded deferred =>
      ((chronicle.launch? machine deferred).map fun launch => .discarded launch.1).toList
  | .shown place number value =>
      if place = .started machine then [.shown number value] else []
  | .announced place announcement =>
      if place = .started machine then [.announced announcement] else []
  | _ => []

/-- The deeds of a machine in several occurrences, oldest first. -/
def deedsInAll (chronicle : Chronicle) (machine : Nat) : List Occurrence → List Deed
  | [] => []
  | occurrence :: rest =>
      chronicle.deedsIn machine occurrence ++
        (chronicle.after occurrence).deedsInAll machine rest

theorem deedsInAll_append (chronicle : Chronicle) (machine : Nat)
    (trace more : List Occurrence) :
    chronicle.deedsInAll machine (trace ++ more) =
      chronicle.deedsInAll machine trace ++
        (chronicle.afterAll trace).deedsInAll machine more := by
  induction trace generalizing chronicle with
  | nil => rfl
  | cons occurrence rest ih => simp [deedsInAll, ih]

end Chronicle

/-- The deeds of a machine in what has happened, oldest first. -/
def deeds (machine : Nat) (trace : List Occurrence) : List Deed :=
  Chronicle.blank.deedsInAll machine trace

theorem deeds_append (machine : Nat) (trace more : List Occurrence) :
    deeds machine (trace ++ more) =
      deeds machine trace ++ (Chronicle.of trace).deedsInAll machine more := by
  simp [deeds, Chronicle.deedsInAll_append, Chronicle.of]

@[simp] theorem deeds_snoc (machine : Nat) (trace : List Occurrence)
    (occurrence : Occurrence) :
    deeds machine (trace ++ [occurrence]) =
      deeds machine trace ++ (Chronicle.of trace).deedsIn machine occurrence := by
  simp [deeds_append, Chronicle.deedsInAll]

/-- Whether an occurrence is the call of a step of a machine. -/
def Occurrence.calls (machine : Nat) : Occurrence → Bool
  | .called other _ => other == machine
  | _ => false

/-- How many steps of a machine were called. -/
def calls (machine : Nat) (trace : List Occurrence) : Nat :=
  trace.countP (Occurrence.calls machine)

@[simp] theorem calls_snoc (machine : Nat) (trace : List Occurrence)
    (occurrence : Occurrence) :
    calls machine (trace ++ [occurrence]) =
      calls machine trace + if occurrence.calls machine then 1 else 0 := by
  simp [calls, List.countP_singleton]

/-! ## The plan of a machine -/

namespace Machine

/-- Whether a machine is a pipeline or the demonstration. -/
def isLibrary : Machine → Bool
  | .custom _ => false
  | _ => true

/-- The deeds before the first work. -/
def opening : Machine → List Deed
  | .cubeRoot _ _ _ _ _ => [.announced .started]
  | _ => []

/-- The work that comes after so many values, the latest first. -/
def work? (values : List Value) : Machine → Option Program
  | .custom _ => none
  | .pipeline seed stages _ _ =>
      (stages[values.length]?).map fun stage => stage (values.headD seed)
  | .cubeRoot input cube root _ _ =>
      match values with
      | [] => some (cube input)
      | [cubed] => some (root (CubeRoot.realOf cubed))
      | _ => none

/-- The deed that tells the hook of a value. -/
def notice (number : Nat) (value : Value) : Machine → Deed
  | .cubeRoot _ _ _ _ _ =>
      .announced (if number = 0 then .cube (CubeRoot.realOf value)
        else .root (CubeRoot.realOf value))
  | _ => .shown number value

/-- The deeds after the last work. -/
def closing : Machine → List Deed
  | .cubeRoot _ _ _ _ _ => [.announced .finished]
  | _ => []

/-- The value that a machine ends with when all of its works have given theirs, the
latest first. -/
def result? (values : List Value) : Machine → Option Value
  | .custom _ => none
  | .pipeline seed stages _ _ =>
      if values.length = stages.length then some (values.headD seed) else none
  | .cubeRoot _ _ _ _ _ =>
      match values with
      | [rooted, cubed] =>
          some (.record [("cube", .real (CubeRoot.realOf cubed)),
            ("root", .real (CubeRoot.realOf rooted))])
      | _ => none

/-- How many steps a machine takes at most. -/
def steps : Machine → Nat
  | .custom _ => 0
  | .pipeline _ stages _ _ => stages.length + 1
  | .cubeRoot _ _ _ _ _ => 3

/-- While there is a work to come, the machine has two more steps to take. -/
theorem lt_steps_of_work {form : Machine} {values : List Value} {work : Program}
    (planned : form.work? values = some work) : values.length + 1 < form.steps := by
  cases form with
  | custom _ => cases planned
  | pipeline seed stages _ _ =>
      simp only [work?, Option.map_eq_some_iff] at planned
      obtain ⟨stage, present, -⟩ := planned
      have bound := (List.getElem?_eq_some_iff.mp present).1
      simp only [steps]
      omega
  | cubeRoot _ _ _ _ _ =>
      match values with
      | [] | [_] => simp [steps]
      | _ :: _ :: _ => cases planned

end Machine

/-! ## Courses -/

/-- A point in the plan of a library machine, with the values its works have given so
far, the latest first. -/
inductive Point where
  | fresh
  /-- The hook has been told, and the next work is to be launched. -/
  | ready (values : List Value)
  | launched (values : List Value) (work : Program)
  | running (values : List Value) (work : Program)
  | worked (values : List Value) (result : Except Failure Value)
  | discarded (values : List Value)
  /-- Everything is done. -/
  | closed (value : Value)

/-- The deeds of a machine that lead to a point of its plan. -/
inductive Course (form : Machine) : List Deed → Point → Prop where
  | fresh : Course form [] .fresh
  | opened : Course form form.opening (.ready [])
  | launched {deeds : List Deed} {values : List Value} {work : Program} :
      Course form deeds (.ready values) → form.work? values = some work →
        Course form (deeds ++ [.launched values.length work]) (.launched values work)
  | began {deeds : List Deed} {values : List Value} {work : Program} :
      Course form deeds (.launched values work) →
        Course form (deeds ++ [.began values.length work]) (.running values work)
  | discarded {deeds : List Deed} {values : List Value} {work : Program} :
      Course form deeds (.launched values work) →
        Course form (deeds ++ [.discarded values.length]) (.discarded values)
  | worked {deeds : List Deed} {values : List Value} {work : Program}
      {result : Except Failure Value} :
      Course form deeds (.running values work) →
        Course form (deeds ++ [.worked values.length work result]) (.worked values result)
  | noticed {deeds : List Deed} {values : List Value} {value : Value} :
      Course form deeds (.worked values (.ok value)) →
        Course form (deeds ++ [form.notice values.length value]) (.ready (value :: values))
  | closed {deeds : List Deed} {values : List Value} {value : Value} :
      Course form deeds (.ready values) → form.result? values = some value →
        Course form (deeds ++ form.closing) (.closed value)

/-- How many works a machine has launched at a point of its plan. -/
def Point.launches : Point → Nat
  | .fresh => 0
  | .ready values => values.length
  | .launched values _ => values.length + 1
  | .running values _ => values.length + 1
  | .worked values _ => values.length + 1
  | .discarded values => values.length + 1
  | .closed _ => 0

/-- A machine launches fewer works than it takes steps. -/
theorem Course.launches_lt_steps {form : Machine} {deeds : List Deed} {point : Point}
    (course : Course form deeds point) (library : form.isLibrary = true) :
    point.launches < form.steps := by
  have positive : 0 < form.steps := by
    cases form with
    | custom _ => cases library
    | pipeline _ _ _ _ | cubeRoot _ _ _ _ _ => simp [Machine.steps]
  induction course with
  | fresh | opened | closed _ _ _ => exact positive
  | launched _ planned _ => exact Machine.lt_steps_of_work planned
  | began _ ih | discarded _ ih | worked _ ih | noticed _ ih => exact ih

/-- Nothing has been done at the start. -/
theorem Course.deeds_of_fresh {form : Machine} {deeds : List Deed}
    (course : Course form deeds .fresh) : deeds = [] := by
  generalize reached : Point.fresh = point at course
  cases course <;> first | rfl | cases reached

/-- The outcome that a machine has come to at a point of its plan. -/
def Point.outcome? : Point → Option Outcome
  | .closed value => some (.ok value)
  | .worked _ (.error failure) => some (.error (.work failure))
  | .discarded _ => some (.error .shutdown)
  | _ => none

/-- No point of a plan is a breach of protocol. -/
theorem Point.isFatal_of_outcome {point : Point} {error : Error}
    (settled : point.outcome? = some (.error error)) : error.isFatal = false := by
  cases point with
  | fresh | ready _ | launched _ _ | running _ _ | closed _ => cases settled
  | discarded _ =>
      cases settled
      rfl
  | worked _ result =>
      cases result with
      | ok _ => cases settled
      | error _ =>
          cases settled
          rfl

/-- The point at which the work after some values is, by its fate. -/
def Fate.point (values : List Value) (work : Program) : Fate → Point
  | .waiting => .launched values work
  | .running => .running values work
  | .ended result => .worked values result
  | .discarded => .discarded values

end Stepwise
