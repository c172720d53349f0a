import Stepwise.Proofs.Origins

/-!
# The moves of a drive until a condition holds

A thread that drives a loop until a condition holds evaluates the condition, and as long as it
does not hold and the deadline has not passed, it makes a turn and evaluates again; at the
deadline it evaluates once more.  What such a drive does is a list of moves, and the moves follow
one pattern, whatever the condition answers and whatever the clock shows.  All that is to be
known about the moves is read off that pattern.
-/

namespace Stepwise

namespace Drive

/-- What a drive until a condition holds does. -/
inductive Move where
  /-- A program is called, which is to tell whether the condition holds. -/
  | asks (program : Program)
  /-- It has answered. -/
  | hears (holds : Bool)
  /-- A turn is made, which starts a continuation, or finds none. -/
  | turns (started : Option Continuation)

namespace Move

/-- The condition is called. -/
def isCall : Move → Bool
  | .asks _ => true
  | _ => false

def isTurn : Move → Bool
  | .turns _ => true
  | _ => false

/-- A turn finds no continuation. -/
def isIdle : Move → Bool
  | .turns none => true
  | _ => false

/-- The continuation that a turn starts. -/
def started? : Move → Option Continuation
  | .turns started => started
  | _ => none

end Move

/-- A drive when it has made some moves. -/
def after (drive : Drive) (moves : List Move) : Drive :=
  { drive with
    calls := moves.countP Move.isCall
    turns := moves.countP Move.isTurn
    idle := moves.countP Move.isIdle }

/-- What a drive reads off its clock when it has made some moves. -/
def time (drive : Drive) (moves : List Move) : Nat :=
  drive.clock (moves.countP Move.isTurn) (moves.countP Move.isIdle)

section

variable (drive : Drive) (moves : List Move)

@[simp] theorem after_asks (program : Program) :
    drive.after (moves ++ [.asks program]) =
      { drive.after moves with calls := (drive.after moves).calls + 1 } := by
  simp [after, Move.isCall, Move.isTurn, Move.isIdle]

@[simp] theorem after_hears (holds : Bool) :
    drive.after (moves ++ [.hears holds]) = drive.after moves := by
  simp [after, Move.isCall, Move.isTurn, Move.isIdle]

@[simp] theorem after_turns (continuation : Continuation) :
    drive.after (moves ++ [.turns (some continuation)]) =
      { drive.after moves with turns := (drive.after moves).turns + 1 } := by
  simp [after, Move.isCall, Move.isTurn, Move.isIdle]

@[simp] theorem after_idle :
    drive.after (moves ++ [.turns none]) =
      { drive.after moves with
        turns := (drive.after moves).turns + 1
        idle := (drive.after moves).idle + 1 } := by
  simp [after, Move.isCall, Move.isTurn, Move.isIdle]

/-- The clock is read after an evaluation as before it. -/
@[simp] theorem time_hears (holds : Bool) :
    drive.time (moves ++ [.hears holds]) = drive.time moves := by
  simp [time, Move.isTurn, Move.isIdle]

@[simp] theorem time_asks (program : Program) :
    drive.time (moves ++ [.asks program]) = drive.time moves := by
  simp [time, Move.isTurn, Move.isIdle]

end

/-- Where a drive has come to: it goes on to evaluate its condition, for the last time or not, it
waits for the answer, it has heard it, or it waits for what a turn has started. -/
inductive Stage where
  | asking (last : Bool)
  | evaluating (last : Bool)
  | heard (last holds : Bool)
  | turning

namespace Stage

/-- How many more evaluations than turns a drive has begun. -/
def ahead : Stage → Nat
  | .asking last => last.toNat
  | .evaluating last => last.toNat + 1
  | .heard last _ => last.toNat + 1
  | .turning => 0

theorem ahead_le_two (stage : Stage) : stage.ahead ≤ 2 := by
  cases stage with
  | asking last | evaluating last | heard last _ =>
      have bound := last.toNat_le
      simp only [ahead]
      omega
  | turning => exact Nat.zero_le 2

/-- The frame in which a drive waits. -/
def frame? (drive : Drive) : Stage → Option Frame
  | .evaluating last => some (.deciding drive last)
  | .turning => some (.pumping drive)
  | _ => none

theorem drives_of_frame {drive : Drive} {moves : List Move} {stage : Stage} {frame : Frame}
    (waits : stage.frame? (drive.after moves) = some frame) :
    frame.drives? = some drive.loop := by
  cases stage with
  | evaluating _ | turning => cases waits; rfl
  | asking _ | heard _ _ => cases waits

end Stage

/-- The pattern of a drive: the moves that lead to a stage. -/
inductive Leads (drive : Drive) : List Move → Stage → Prop where
  | begins : Leads drive [] (.asking false)
  | asks {moves : List Move} {last : Bool} : Leads drive moves (.asking last) →
      Leads drive (moves ++ [.asks drive.condition]) (.evaluating last)
  | hears {moves : List Move} {last : Bool} (holds : Bool) : Leads drive moves (.evaluating last) →
      Leads drive (moves ++ [.hears holds]) (.heard last holds)
  | expires {moves : List Move} : Leads drive moves (.heard false false) →
      drive.deadline ≤ drive.time moves → Leads drive moves (.asking true)
  | turns {moves : List Move} (started : Option Continuation) :
      Leads drive moves (.heard false false) → drive.time moves < drive.deadline →
        Leads drive (moves ++ [.turns started]) .turning
  | returns {moves : List Move} : Leads drive moves .turning → Leads drive moves (.asking false)

/-- What is to be known about the moves of a drive: it evaluates its condition before each turn,
and stops as soon as that holds or, when the deadline has passed, does not hold again. -/
structure Heeds (drive : Drive) (queued : List Continuation) (moves : List Move) : Prop where
  /-- The condition is evaluated first, and nothing else is. -/
  begins : [.asks drive.condition] <+: moves
  asks : ∀ program, .asks program ∈ moves → program = drive.condition
  /-- Before each turn it is evaluated and does not hold, and then the deadline has not passed. -/
  evaluates : ∀ before started, before ++ [.turns started] <+: moves →
    [.asks drive.condition, .hears false] <:+ before ∧ drive.time before < drive.deadline
  /-- After an evaluation that is true, no continuation is started, and nothing else is done. -/
  stops : ∀ before, before ++ [.hears true] <+: moves → moves = before ++ [.hears true]
  /-- A last evaluation that is false has begun when the deadline had passed. -/
  expires : ∀ before, moves = before ++ [.hears false] →
    [.hears false, .asks drive.condition] <:+ before ∧ drive.deadline ≤ drive.time before
  /-- The turns start what is queued, in order. -/
  inOrder : moves.filterMap Move.started? <+: queued
  /-- Where the deadline has passed from the beginning, no turn is made. -/
  immediate : drive.deadline = 0 →
    moves.countP Move.isTurn = 0 ∧ moves.countP Move.isCall ≤ 2

namespace Leads

variable {drive : Drive} {moves before : List Move} {stage : Stage} {last holds : Bool}
  {started : Option Continuation} {program : Program} {driven : Drive} {frame : Frame}
  {queued : List Continuation}

/-- Nothing but the condition is evaluated. -/
theorem eq_condition (leads : drive.Leads moves stage) (asked : .asks program ∈ moves) :
    program = drive.condition := by
  induction leads with
  | begins => cases asked
  | asks _ ih =>
      rcases List.mem_append.mp asked with earlier | now
      · exact ih earlier
      · cases List.mem_singleton.mp now
        rfl
  | hears _ _ ih | turns _ _ _ ih =>
      rcases List.mem_append.mp asked with earlier | now
      · exact ih earlier
      · cases List.mem_singleton.mp now
  | expires _ _ ih | returns _ ih => exact ih asked

/-- The last two moves before an answer has an effect. -/
theorem suffix_of_heard (leads : drive.Leads moves (.heard last holds)) :
    [.asks drive.condition, .hears holds] <:+ moves := by
  cases leads with
  | hears _ evaluating =>
      cases evaluating with
      | asks _ => simp

/-- Before each turn the condition is evaluated, and does not hold; the deadline has not passed. -/
theorem evaluates (leads : drive.Leads moves stage)
    (turned : before ++ [.turns started] <+: moves) :
    [.asks drive.condition, .hears false] <:+ before ∧ drive.time before < drive.deadline := by
  induction leads with
  | begins => simp at turned
  | asks _ ih | hears _ _ ih =>
      rcases List.prefix_concat_iff.mp turned with whole | earlier
      · simpa using List.append_inj_right' whole rfl
      · exact ih earlier
  | turns _ heard early ih =>
      rcases List.prefix_concat_iff.mp turned with whole | earlier
      · cases List.append_inj_left' whole rfl
        exact ⟨heard.suffix_of_heard, early⟩
      · exact ih earlier
  | expires _ _ ih | returns _ ih => exact ih turned

/-- An evaluation that is true is the last move. -/
theorem stops (leads : drive.Leads moves stage) (heard : before ++ [.hears true] <+: moves) :
    moves = before ++ [.hears true] ∧ ∃ last, stage = .heard last true := by
  induction leads with
  | begins => simp at heard
  | asks _ ih | turns _ _ _ ih =>
      rcases List.prefix_concat_iff.mp heard with whole | earlier
      · simpa using List.append_inj_right' whole rfl
      · obtain ⟨-, last, other⟩ := ih earlier
        cases other
  | @hears _ last holds _ ih =>
      rcases List.prefix_concat_iff.mp heard with whole | earlier
      · have same : true = holds := by simpa using List.append_inj_right' whole rfl
        subst same
        exact ⟨whole.symm, last, rfl⟩
      · obtain ⟨-, last, other⟩ := ih earlier
        cases other
  | expires _ _ ih | returns _ ih =>
      obtain ⟨-, last, other⟩ := ih heard
      cases other

/-- The last evaluation comes after one that did not hold, and after the deadline. -/
theorem expired (leads : drive.Leads moves (.heard true holds)) :
    ∃ before, moves = before ++ [.hears holds] ∧
      [.hears false, .asks drive.condition] <:+ before ∧ drive.deadline ≤ drive.time before := by
  cases leads with
  | hears _ evaluating =>
      refine ⟨_, rfl, ?_⟩
      cases evaluating with
      | asks asking =>
          cases asking with
          | expires heard late =>
              cases heard with
              | hears _ _ =>
                  constructor
                  · simp
                  · rw [time_asks]
                    exact late

/-- Evaluations and turns are begun in turn, but for the last evaluation. -/
theorem countP_isCall (leads : drive.Leads moves stage) :
    moves.countP Move.isCall = moves.countP Move.isTurn + stage.ahead := by
  induction leads with
  | begins => rfl
  | asks _ ih | turns _ _ _ ih | hears _ _ ih =>
      simp [ih, Move.isCall, Move.isTurn, Stage.ahead, Nat.add_assoc]
  | expires _ _ ih | returns _ ih => exact ih

/-- Where the deadline has passed from the beginning, no turn is made. -/
theorem countP_isTurn_of_zero (leads : drive.Leads moves stage) (zero : drive.deadline = 0) :
    moves.countP Move.isTurn = 0 := by
  apply List.countP_eq_zero.mpr
  intro move member
  cases move with
  | asks _ | hears _ => simp [Move.isTurn]
  | turns started =>
      obtain ⟨before, later, split⟩ := List.append_of_mem member
      have turned : before ++ [.turns started] <+: moves := ⟨later, by simp [split]⟩
      have early := (leads.evaluates turned).2
      omega

/-- A drive that has made a move has called its condition first. -/
theorem begins_asking (leads : drive.Leads moves stage) :
    moves = [] ∧ stage = .asking false ∨ [.asks drive.condition] <+: moves := by
  induction leads with
  | begins => exact .inl ⟨rfl, rfl⟩
  | asks _ ih =>
      rcases ih with ⟨rfl, -⟩ | begun
      · exact .inr (List.prefix_refl _)
      · exact .inr (begun.trans (List.prefix_append ..))
  | hears _ _ ih | turns _ _ _ ih =>
      rcases ih with ⟨-, other⟩ | begun
      · cases other
      · exact .inr (begun.trans (List.prefix_append ..))
  | expires _ _ ih | returns _ ih =>
      rcases ih with ⟨-, other⟩ | begun
      · cases other
      · exact .inr begun

/-- A drive that waits has not just heard an answer. -/
theorem ne_hears (leads : drive.Leads moves stage) (waits : stage.frame? driven = some frame) :
    moves ≠ before ++ [.hears holds] := by
  rintro rfl
  generalize whole : before ++ [Move.hears holds] = moves at leads
  cases leads with
  | asks _ | turns _ _ _ => simpa using List.append_inj_right' whole rfl
  | begins | hears _ _ | expires _ _ | returns _ => cases waits

/-- The pattern of a drive that has begun tells all that is to be known about its moves. -/
theorem heeds (leads : drive.Leads moves stage) (begun : stage ≠ .asking false)
    (inOrder : moves.filterMap Move.started? <+: queued)
    (expires : ∀ before, moves = before ++ [.hears false] → stage = .heard true false) :
    drive.Heeds queued moves where
  begins := by
    rcases leads.begins_asking with ⟨-, other⟩ | begins
    · exact absurd other begun
    · exact begins
  asks _ asked := leads.eq_condition asked
  evaluates _ _ turned := leads.evaluates turned
  stops _ heard := (leads.stops heard).1
  expires before ends := by
    cases expires before ends
    obtain ⟨earlier, same, evaluated⟩ := leads.expired
    cases List.append_inj_left' (ends.symm.trans same) rfl
    exact evaluated
  inOrder := inOrder
  immediate zero := by
    have idle := leads.countP_isTurn_of_zero zero
    have calls := leads.countP_isCall
    have bound := stage.ahead_le_two
    omega

/-- While a drive waits, it has not just heard an answer. -/
theorem heeds_of_waits (leads : drive.Leads moves stage) (waits : stage.frame? driven = some frame)
    (inOrder : moves.filterMap Move.started? <+: queued) : drive.Heeds queued moves := by
  refine leads.heeds ?_ inOrder fun before ends => absurd ends (leads.ne_hears waits)
  rintro rfl
  cases waits

/-- What a drive has heard in the end holds, or was asked for the last time. -/
theorem heeds_of_ends (leads : drive.Leads moves (.heard last holds))
    (ends : (holds || last) = true) (inOrder : moves.filterMap Move.started? <+: queued) :
    drive.Heeds queued moves := by
  refine leads.heeds (by simp) inOrder fun before whole => ?_
  obtain ⟨earlier, same⟩ := leads.suffix_of_heard
  have unheld : holds = false := by
    rw [← same, List.append_cons] at whole
    simpa using List.append_inj_right' whole rfl
  subst unheld
  rw [Bool.false_or] at ends
  rw [ends]

end Leads

end Drive

end Stepwise
