import Stepwise.Proofs.Occurrence

/-!
# Chronicles

A chronicle sums up what has happened: for each started machine, how its last
step ended and what its observer was told; for each dispatched work, how far it
has come.
-/

namespace Stepwise

/-- What has happened to a started machine. -/
structure Life where
  form : Option Machine
  /-- Who was to be told the outcome from the start. -/
  observer : Option Observer
  /-- The position of the last step called, and how that step ended. -/
  step : Option (Position × Option StepEnd)
  cancelled : Bool
  abandoned : Bool
  told : Option Outcome

/-- The life of a machine that was not started yet. -/
def Life.unborn : Life := ⟨none, none, none, false, false, none⟩

/-- How far dispatched work has come. -/
inductive Fate where
  | waiting
  | running
  | ended (result : Except Failure Value)
  | discarded

/-- Dispatched work: what it runs, which step launched it, how far it has come. -/
structure Work where
  program : Program
  launcher : Option (Place × Nat)
  fate : Fate

/-- What has happened to each machine and to the work of each deferred. -/
structure Chronicle where
  life : Nat → Life
  work : Nat → Option Work

namespace Chronicle

/-- Nothing has happened. -/
def blank : Chronicle := ⟨fun _ => .unborn, fun _ => none⟩

/-- Change the life of one machine. -/
def onLife (chronicle : Chronicle) (machine : Nat) (change : Life → Life) : Chronicle :=
  { chronicle with
    life := fun other =>
      if other = machine then change (chronicle.life other) else chronicle.life other }

/-- Change the fate of one work. -/
def onFate (chronicle : Chronicle) (deferred : Nat) (fate : Fate) : Chronicle :=
  { chronicle with
    work := fun other =>
      if other = deferred then (chronicle.work other).map ({ · with fate := fate })
      else chronicle.work other }

/-- Enter a new work. -/
def addWork (chronicle : Chronicle) (deferred : Nat) (work : Work) : Chronicle :=
  { chronicle with
    work := fun other => if other = deferred then some work else chronicle.work other }

@[simp] theorem life_onLife (chronicle : Chronicle) (machine other : Nat)
    (change : Life → Life) :
    (chronicle.onLife machine change).life other =
      if other = machine then change (chronicle.life other) else chronicle.life other := rfl

@[simp] theorem work_onLife (chronicle : Chronicle) (machine : Nat)
    (change : Life → Life) : (chronicle.onLife machine change).work = chronicle.work := rfl

@[simp] theorem life_onFate (chronicle : Chronicle) (deferred : Nat) (fate : Fate) :
    (chronicle.onFate deferred fate).life = chronicle.life := rfl

@[simp] theorem work_onFate (chronicle : Chronicle) (deferred other : Nat) (fate : Fate) :
    (chronicle.onFate deferred fate).work other =
      if other = deferred then (chronicle.work other).map ({ · with fate := fate })
      else chronicle.work other := rfl

@[simp] theorem life_addWork (chronicle : Chronicle) (deferred : Nat) (work : Work) :
    (chronicle.addWork deferred work).life = chronicle.life := rfl

@[simp] theorem work_addWork (chronicle : Chronicle) (deferred other : Nat) (work : Work) :
    (chronicle.addWork deferred work).work other =
      if other = deferred then some work else chronicle.work other := rfl

/-- The chronicle after one more occurrence. -/
def after (chronicle : Chronicle) : Occurrence → Chronicle
  | .started machine form observer =>
      chronicle.onLife machine fun _ =>
        { Life.unborn with form := some form, observer := some observer }
  | .called machine position =>
      chronicle.onLife machine ({ · with step := some (position, none) })
  | .ended machine ending =>
      chronicle.onLife machine fun life =>
        { life with step := life.step.map fun step => (step.1, some ending) }
  | .cancelled machine => chronicle.onLife machine ({ · with cancelled := true })
  | .abandoned machine => chronicle.onLife machine ({ · with abandoned := true })
  | .told machine outcome => chronicle.onLife machine ({ · with told := some outcome })
  | .dispatched deferred work launcher =>
      chronicle.addWork deferred ⟨work, launcher, .waiting⟩
  | .began deferred _ => chronicle.onFate deferred .running
  | .worked deferred result => chronicle.onFate deferred (.ended result)
  | .discarded deferred => chronicle.onFate deferred .discarded
  | .shown _ _ _ => chronicle
  | .announced _ _ => chronicle
  | .interrupted _ => chronicle

/-- The chronicle after more occurrences, oldest first. -/
def afterAll (chronicle : Chronicle) (trace : List Occurrence) : Chronicle :=
  trace.foldl after chronicle

/-- The chronicle of what has happened, oldest first. -/
def of (trace : List Occurrence) : Chronicle := blank.afterAll trace

@[simp] theorem afterAll_nil (chronicle : Chronicle) : chronicle.afterAll [] = chronicle :=
  rfl

@[simp] theorem afterAll_cons (chronicle : Chronicle) (occurrence : Occurrence)
    (trace : List Occurrence) :
    chronicle.afterAll (occurrence :: trace) =
      (chronicle.after occurrence).afterAll trace := rfl

theorem of_append (trace more : List Occurrence) :
    of (trace ++ more) = (of trace).afterAll more := by
  simp [of, afterAll, List.foldl_append]

/-! ## Ends of steps -/

variable {chronicle : Chronicle} {machine : Nat} {position : Position} {ending : StepEnd}

/-- A step that has ended had ended before, or ends just now. -/
theorem ended_before {occurrence : Occurrence}
    (step : ((chronicle.after occurrence).life machine).step = some (position, some ending)) :
    (chronicle.life machine).step = some (position, some ending) ∨
      occurrence = .ended machine ending := by
  cases occurrence with
  | started other _ _ | called other _ =>
      by_cases same : machine = other
      · simp [after, same, Life.unborn] at step
      · exact .inl (by simpa [after, same] using step)
  | cancelled other | abandoned other | told other _ =>
      by_cases same : machine = other <;> exact .inl (by simpa [after, same] using step)
  | ended other result =>
      by_cases same : machine = other
      · subst same
        simp only [after, life_onLife, if_true, Option.map_eq_some_iff] at step
        obtain ⟨under, -, now⟩ := step
        cases now
        exact .inr rfl
      · exact .inl (by simpa [after, same] using step)
  | dispatched _ _ _ | began _ _ | worked _ _ | discarded _ | shown _ _ _ | announced _ _
  | interrupted _ => exact .inl step

/-- A step that has ended by now had ended before, or has ended since. -/
theorem ended_of_afterAll {occurrences : List Occurrence}
    (step : ((chronicle.afterAll occurrences).life machine).step = some (position, some ending)) :
    (chronicle.life machine).step = some (position, some ending) ∨
      .ended machine ending ∈ occurrences := by
  induction occurrences generalizing chronicle with
  | nil => exact .inl step
  | cons occurrence rest ih =>
      rcases ih step with before | later
      · rcases ended_before before with earlier | rfl
        · exact .inl earlier
        · exact .inr (List.mem_cons_self ..)
      · exact .inr (List.mem_cons_of_mem _ later)

/-- The end of the last step of a machine is part of what has happened. -/
theorem ended_of_step {trace : List Occurrence}
    (step : ((of trace).life machine).step = some (position, some ending)) :
    .ended machine ending ∈ trace := by
  rcases @ended_of_afterAll blank machine position ending trace step with before | ended
  · cases before
  · exact ended

end Chronicle

end Stepwise
