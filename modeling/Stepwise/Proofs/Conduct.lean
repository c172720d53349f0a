import Stepwise.Proofs.Chronicle

/-!
# Conducts

What a machine does of its own accord may depend on two things only: its snapshot, and the
results that it retrieves from deferreds it has awaited.  A conduct says how.  Deferreds have
labels here, since the same machine may await different ones in different runs.  Once it is
settled what each label's outcome is, and that the step after a suspension is called there,
nothing is left open: all plays of a conduct are beginnings of one.
-/

namespace Stepwise

/-- How a step ends, when what it awaits has a label. -/
inductive Ending (ι : Type) where
  | await (resumeAt : Nat) (label : ι)
  | complete (value : Value)
  | fail (error : Error)
  | panicked (payload : Payload)

/-- What can be seen of a machine: a step is called, and retrieves results until it ends. -/
inductive Move (ι : Type) where
  | called (position : Position)
  | retrieved (label : ι) (result : Outcome)
  | ended (ending : Ending ι)

/-- What a step does next. -/
inductive Intent (ι : Type) where
  | retrieve (label : ι)
  | finish (ending : Ending ι)

/-- How a machine goes about: the snapshot that it starts with, what a call and a result make
of a snapshot, and what the machine does next with it. -/
structure Conduct (σ ι : Type) where
  start : σ
  enter : σ → Position → σ
  learn : σ → Outcome → σ
  intent : σ → Intent ι

/-- Each element of a list is as those before it allow. -/
inductive Unfolds {α : Type} (allowed : List α → α → Prop) : List α → Prop where
  | nil : Unfolds allowed []
  | snoc {earlier : List α} {last : α} :
      Unfolds allowed earlier → allowed earlier last → Unfolds allowed (earlier ++ [last])

namespace Unfolds

variable {α : Type} {allowed : List α → α → Prop} {list other : List α}

/-- What comes next in a list is as the elements before it allow. -/
theorem allows {earlier later : List α} {next : α}
    (unfolds : Unfolds allowed (earlier ++ next :: later)) : allowed earlier next := by
  generalize whole : earlier ++ next :: later = list at unfolds
  induction unfolds generalizing later with
  | nil => simp at whole
  | @snoc before last _ allows ih =>
      rcases List.eq_nil_or_concat later with rfl | ⟨rest, final, rfl⟩
      · obtain ⟨rfl, same⟩ := List.append_inj' whole rfl
        cases same
        exact allows
      · rw [List.concat_eq_append, ← List.cons_append, ← List.append_assoc] at whole
        exact ih (List.append_inj' whole rfl).1

/-- The beginning of a list unfolds as the list does. -/
theorem of_append {later : List α} (unfolds : Unfolds allowed (list ++ later)) :
    Unfolds allowed list := by
  generalize whole : list ++ later = all at unfolds
  induction unfolds generalizing later with
  | nil =>
      rw [(List.append_eq_nil_iff.mp whole).1]
      exact .nil
  | @snoc before last unfolds allows ih =>
      rcases List.eq_nil_or_concat later with rfl | ⟨rest, final, rfl⟩
      · rw [List.append_nil] at whole
        rw [whole]
        exact .snoc unfolds allows
      · rw [List.concat_eq_append, ← List.append_assoc] at whole
        exact ih (List.append_inj' whole rfl).1

/-- Where one element is allowed at most, two lists that unfold are beginnings of one. -/
theorem comparable
    (unique : ∀ earlier first second, allowed earlier first → allowed earlier second →
      first = second)
    (unfolds : Unfolds allowed list) (others : Unfolds allowed other) :
    list <+: other ∨ other <+: list := by
  induction unfolds with
  | nil => exact .inl (List.nil_prefix ..)
  | @snoc earlier last _ allows ih =>
      rcases ih with ⟨rest, rfl⟩ | shorter
      · cases rest with
        | nil => exact .inr (by simp)
        | cons next rest =>
            rw [unique earlier last next allows others.allows]
            exact .inl ⟨rest, by simp⟩
      · exact .inr (shorter.trans (List.prefix_append ..))

end Unfolds

variable {σ ι κ : Type}

/-- Give what is awaited another label. -/
def Ending.map (relabel : ι → κ) : Ending ι → Ending κ
  | .await resumeAt label => .await resumeAt (relabel label)
  | .complete value => .complete value
  | .fail error => .fail error
  | .panicked payload => .panicked payload

/-- Give every deferred another label. -/
def Move.map (relabel : ι → κ) : Move ι → Move κ
  | .called position => .called position
  | .retrieved label result => .retrieved (relabel label) result
  | .ended ending => .ended (ending.map relabel)

/-! ## Where a machine stands -/

/-- The last step of a machine after one more move: where it was called, and how it ended. -/
def Move.after (last : Option (Position × Option (Ending ι))) :
    Move ι → Option (Position × Option (Ending ι))
  | .called position => some (position, none)
  | .retrieved _ _ => last
  | .ended ending => last.map fun step => (step.1, some ending)

/-- The last step of a machine after some moves: where it was called, and how it ended. -/
def standing (moves : List (Move ι)) : Option (Position × Option (Ending ι)) :=
  moves.foldl Move.after none

/-- A step has ended by awaiting a label. -/
def Awaited (moves : List (Move ι)) (label : ι) : Prop :=
  ∃ resumeAt, .ended (.await resumeAt label) ∈ moves

/-- The result of a label has been retrieved. -/
def Retrieved (moves : List (Move ι)) (label : ι) : Prop :=
  ∃ result, .retrieved label result ∈ moves

theorem standing_snoc (moves : List (Move ι)) (move : Move ι) :
    standing (moves ++ [move]) = move.after (standing moves) := by
  simp [standing]

/-- Other labels change nothing but the label that is awaited. -/
theorem standing_map (relabel : ι → κ) (moves : List (Move ι)) :
    standing (moves.map (Move.map relabel)) =
      (standing moves).map fun step => (step.1, step.2.map (Ending.map relabel)) := by
  suffices shifted : ∀ last : Option (Position × Option (Ending ι)),
      (moves.map (Move.map relabel)).foldl Move.after
          (last.map fun step => (step.1, step.2.map (Ending.map relabel))) =
        (moves.foldl Move.after last).map fun step =>
          (step.1, step.2.map (Ending.map relabel)) from shifted none
  induction moves with
  | nil => exact fun _ => rfl
  | cons move rest ih =>
      intro last
      rw [List.foldl_cons, ← ih]
      cases move <;> cases last <;> rfl

/-! ## Plays -/

namespace Conduct

variable (conduct : Conduct σ ι)

/-- The snapshot after one more move. -/
def change (snapshot : σ) : Move ι → σ
  | .called position => conduct.enter snapshot position
  | .retrieved _ result => conduct.learn snapshot result
  | .ended _ => snapshot

/-- The snapshot after some moves. -/
def snapshot (moves : List (Move ι)) : σ := moves.foldl conduct.change conduct.start

/-- A move is as intended, if the machine itself makes it; and what it retrieves it has
awaited. -/
def Intends (earlier : List (Move ι)) : Move ι → Prop
  | .called _ => True
  | .retrieved label _ =>
      conduct.intent (conduct.snapshot earlier) = .retrieve label ∧ Awaited earlier label
  | .ended ending => conduct.intent (conduct.snapshot earlier) = .finish ending

/-- What a machine does of its own accord is what the conduct says. -/
abbrev Follows (moves : List (Move ι)) : Prop := Unfolds conduct.Intends moves

/-- What can come next when it is settled what the outcomes are.  The first step is called
before the machine has started, and each other one where the last one awaits.  A result is
the outcome, but only once. -/
inductive Next (outcomes : ι → Outcome) (earlier : List (Move ι)) : Move ι → Prop where
  | starts : standing earlier = none → Next outcomes earlier (.called .notStarted)
  | resumes {position : Position} {resumeAt : Nat} {label : ι} :
      standing earlier = some (position, some (.await resumeAt label)) →
        Next outcomes earlier (.called (.suspension resumeAt))
  | takes {position : Position} {label : ι} : standing earlier = some (position, none) →
      conduct.intent (conduct.snapshot earlier) = .retrieve label →
        ¬ Retrieved earlier label →
        Next outcomes earlier (.retrieved label (outcomes label))
  | retakes {position : Position} {label : ι} : standing earlier = some (position, none) →
      conduct.intent (conduct.snapshot earlier) = .retrieve label →
        Retrieved earlier label →
        Next outcomes earlier (.retrieved label (.error (.invalid .alreadyTaken)))
  | finishes {position : Position} {ending : Ending ι} :
      standing earlier = some (position, none) →
        conduct.intent (conduct.snapshot earlier) = .finish ending →
        Next outcomes earlier (.ended ending)

/-- Moves that come one after the other when it is settled what the outcomes are. -/
abbrev Plays (outcomes : ι → Outcome) (moves : List (Move ι)) : Prop :=
  Unfolds (conduct.Next outcomes) moves

variable {conduct} {outcomes : ι → Outcome} {earlier : List (Move ι)}

/-- Nothing is left open about the next move. -/
theorem Next.unique {first second : Move ι} (one : conduct.Next outcomes earlier first)
    (other : conduct.Next outcomes earlier second) : first = second := by
  cases one <;> cases other <;> simp_all

/-- Where a step has ended otherwise than by awaiting, nothing comes next. -/
theorem Next.not_after {position : Position} {ending : Ending ι} {move : Move ι}
    (next : conduct.Next outcomes earlier move)
    (stands : standing earlier = some (position, some ending)) :
    ∃ resumeAt label, ending = .await resumeAt label := by
  cases next with
  | resumes before =>
      cases stands.symm.trans before
      exact ⟨_, _, rfl⟩
  | _ => simp_all

/-- Two plays with the same outcomes are beginnings of one. -/
theorem Plays.comparable {moves others : List (Move ι)} (plays : conduct.Plays outcomes moves)
    (playsToo : conduct.Plays outcomes others) : moves <+: others ∨ others <+: moves :=
  Unfolds.comparable (fun _ _ _ one other => one.unique other) plays playsToo

/-- A play whose last step has ended otherwise than by awaiting is no beginning of another. -/
theorem Plays.eq_of_prefix {moves others : List (Move ι)} {position : Position}
    {ending : Ending ι} (plays : conduct.Plays outcomes others) (shorter : moves <+: others)
    (stands : standing moves = some (position, some ending))
    (stops : ∀ resumeAt label, ending ≠ .await resumeAt label) : moves = others := by
  obtain ⟨rest, rfl⟩ := shorter
  cases rest with
  | nil => rw [List.append_nil]
  | cons next rest =>
      obtain ⟨resumeAt, label, same⟩ := (Unfolds.allows plays).not_after stands
      exact absurd same (stops resumeAt label)

end Conduct

end Stepwise
