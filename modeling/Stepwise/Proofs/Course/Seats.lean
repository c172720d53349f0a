import Stepwise.Proofs.Course.Deeds

/-!
# Seats on a stack

While the step of a library machine is under way, what sits directly on the frame that
waits for it is the machine's own: its step, one of its hooks, the launch of a work, or
the reply.  Whatever else happens is stacked above.
-/

namespace Stepwise

/-- The machine whose step a frame waits for. -/
def Frame.steps? : Frame → Option Nat
  | .stepping machine => some machine
  | _ => none

/-- The place at whose step a frame waits for a hook or a launch. -/
def Frame.place? : Frame → Option Place
  | .inspected place _ _ => some place
  | .announced place _ => some place
  | .launched place _ _ => some place
  | _ => none

/-- Whether a frame is the holder of a waker's lock. -/
def Frame.isWaking : Frame → Bool
  | .waking _ _ => true
  | _ => false

/-- Whether a frame is no part of a step: it neither waits for one nor is within one.
Nor does it hold the lock of a waker. -/
def Frame.isPlain (frame : Frame) : Bool :=
  frame.steps?.isNone && frame.place?.isNone && !frame.isWaking

/-- The place whose step control is about to run. -/
def Control.place? : Control → Option Place
  | .task (.step place _) => some place
  | _ => none

/-- Whether control is not about to run the step of a started machine. -/
def Control.isPlain : Control → Bool
  | .task (.step (.started _) _) => false
  | _ => true

/-- The machine whose step the innermost frame waits for. -/
def Stack.stepper? : Stack → Option Nat
  | [] => none
  | frame :: _ => frame.steps?

/-- A frame sits directly on the one that waits for the step of a machine. -/
inductive Stack.Seats (machine : Nat) (frame : Frame) : Stack → Prop where
  | here {rest : Stack} : Seats machine frame (frame :: .stepping machine :: rest)
  | above {other : Frame} {rest : Stack} :
      Seats machine frame rest → Seats machine frame (other :: rest)

/-- Frames within the step of a started machine sit on the one that waits for it. -/
def Stack.Founded : Stack → Prop
  | [] => True
  | frame :: rest =>
      (∀ machine, frame.place? = some (.started machine) →
        Stack.stepper? rest = some machine) ∧ Stack.Founded rest

namespace Stack

variable {machine : Nat} {frame : Frame} {stack : Stack}

theorem seats_cons {other : Frame} :
    Seats machine frame (other :: stack) ↔
      (frame = other ∧ stepper? stack = some machine) ∨ Seats machine frame stack := by
  constructor
  · intro seats
    cases seats with
    | here => exact .inl ⟨rfl, rfl⟩
    | above seats => exact .inr seats
  · rintro (⟨rfl, steps⟩ | seats)
    · cases stack with
      | nil => cases steps
      | cons below rest =>
          cases below with
          | stepping other =>
              cases steps
              exact .here
          | _ => cases steps
    · exact .above seats

/-- What is stacked where no step waits takes no seat. -/
theorem seats_append {plain : Stack} (unsteady : stepper? stack ≠ some machine)
    (still : ∀ above ∈ plain, above.steps? = none) :
    Seats machine frame (plain ++ stack) ↔ Seats machine frame stack := by
  induction plain with
  | nil => rfl
  | cons other rest ih =>
      have below : stepper? (rest ++ stack) ≠ some machine := by
        cases rest with
        | nil => exact unsteady
        | cons next _ =>
            have quiet := still next (by simp)
            simp [stepper?, quiet]
      rw [List.cons_append, seats_cons,
        ih fun above member => still above (List.mem_cons_of_mem _ member)]
      simp [below]

/-- A machine that no frame steps has no seat. -/
theorem not_seats (absent : Frame.stepping machine ∉ stack) : ¬ Seats machine frame stack := by
  intro seats
  induction seats with
  | here => simp at absent
  | above _ ih => exact ih fun member => absent (List.mem_cons_of_mem _ member)

theorem stepping_mem_of_stepper (steps : stepper? stack = some machine) :
    Frame.stepping machine ∈ stack := by
  cases stack with
  | nil => cases steps
  | cons below rest =>
      cases below with
      | stepping other =>
          cases steps
          exact List.mem_cons_self ..
      | _ => cases steps

end Stack

namespace Frame

theorem steps_of_isPlain {frame : Frame} (plain : frame.isPlain = true) :
    frame.steps? = none := by
  simp only [isPlain, Bool.and_eq_true, Option.isNone_iff_eq_none] at plain
  exact plain.1.1

theorem place_of_isPlain {frame : Frame} (plain : frame.isPlain = true) :
    frame.place? = none := by
  simp only [isPlain, Bool.and_eq_true, Option.isNone_iff_eq_none] at plain
  exact plain.1.2

end Frame

end Stepwise
