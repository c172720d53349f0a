import Stepwise.Proofs.Course.Standing

/-!
# What works yield

A work is a program, and the library gives it nothing but replies.  So while a work is
run, what is in control right above the frame that captures it, or waits there for a
reply, is what its program has come to by the replies so far.  The result of a work is
then one that its program yields.
-/

namespace Stepwise

/-- A program may come to another by the replies to its requests. -/
inductive Program.Leads (program : Program) : Program → Prop where
  | refl : program.Leads program
  | replied {request : Request} {next : Reply → Program} (reply : Reply) :
      program.Leads (.call request next) → program.Leads (next reply)

/-- A work may have a result: its program may come to return or to panic so, or to make a
request whose panic passes it. -/
inductive Program.Yields (program : Program) : Except Failure Value → Prop where
  | returned {reply : Reply} : program.Leads (.ret reply) → program.Yields reply.asWork
  | panicked {payload : Payload} :
      program.Leads (.panic payload) → program.Yields (.error (.panicked payload.message))
  | passed {request : Request} {next : Reply → Program} (payload : Payload) :
      program.Leads (.call request next) →
        program.Yields (.error (.panicked payload.message))

/-- The result of a program that makes no request. -/
def Program.result? : Program → Option (Except Failure Value)
  | .ret reply => some reply.asWork
  | .panic payload => some (.error (.panicked payload.message))
  | .call _ _ => none

namespace Program

variable {program now : Program} {result settled : Except Failure Value}

theorem Leads.eq_of_result (leads : program.Leads now)
    (outright : program.result? = some settled) : now = program := by
  induction leads with
  | refl => rfl
  | replied reply _ ih =>
      subst ih
      cases outright

/-- A program that makes no request yields its one result. -/
theorem Yields.eq_of_result (yields : program.Yields result)
    (outright : program.result? = some settled) : result = settled := by
  cases yields with
  | returned leads | panicked leads | passed _ leads =>
      cases leads.eq_of_result outright
      cases outright <;> rfl

/-- What is right above the frame that captures a work is what its program has come to. -/
inductive Attends (program : Program) : Stack → Control → Prop where
  | runs {now : Program} : program.Leads now → Attends program [] (.program now)
  | returned {reply : Reply} : program.Leads (.ret reply) → Attends program [] (.reply reply)
  | panicked {payload : Payload} :
      program.Yields (.error (.panicked payload.message)) →
        Attends program [] (.unwind payload)
  | halted {reason : Halt} : Attends program [] (.halted reason)
  /-- A request is being carried out. -/
  | calls {above : Stack} {control : Control} {request : Request} {next : Reply → Program} :
      program.Leads (.call request next) → Attends program (above ++ [.program next]) control

end Program

namespace Program.Attends

variable {program : Program}

theorem yields_of_reply {reply : Reply} (attends : program.Attends [] (.reply reply)) :
    program.Yields reply.asWork := by
  generalize empty : ([] : Stack) = above at attends
  cases attends with
  | returned leads => exact .returned leads
  | calls _ => simp at empty

theorem yields_of_unwind {payload : Payload} (attends : program.Attends [] (.unwind payload)) :
    program.Yields (.error (.panicked payload.message)) := by
  generalize empty : ([] : Stack) = above at attends
  cases attends with
  | panicked yields => exact yields
  | calls _ => simp at empty

end Program.Attends

variable {trace : List Occurrence} {state : State} {deferred : Nat} {program : Program}

namespace State

/-! ## The course of a work -/

/-- Where the end of a work happens, nothing else does. -/
theorem occurrences_of_worked {result : Except Failure Value}
    (worked : .worked deferred result ∈ state.occurrences) :
    state.occurrences = [.worked deferred result] := by
  obtain ⟨⟨callers, placed⟩, how⟩ := drives_of_occurrences worked rfl
  obtain ⟨world, stack, control⟩ := state
  subst placed
  rcases how with ⟨reply, rfl, rfl⟩ | ⟨payload, rfl, rfl⟩
  · rfl
  · rfl

/-- A program comes along above the frame that captures it, as long as it does not end. -/
theorem attends_next {above below : Stack} (order : state.InOrder (.of trace))
    (placed : state.stack = above ++ .working deferred :: below)
    (attends : program.Attends above state.control)
    (goesOn : ∀ result, .worked deferred result ∉ state.occurrences) :
    ∃ later, state.next.stack = later ++ .working deferred :: below ∧
      program.Attends later state.next.control := by
  obtain ⟨new, stacked⟩ := stack_next order
  obtain ⟨world, stack, control⟩ := state
  subst placed
  cases attends with
  | halted => exact ⟨[], rfl, .halted⟩
  | returned _ | panicked _ => exact absurd (List.mem_singleton.mpr rfl) (goesOn _)
  | @runs now leads =>
      cases now with
      | ret reply => exact ⟨[], rfl, .returned leads⟩
      | panic payload => exact ⟨[], rfl, .panicked (.panicked leads)⟩
      | call request rest =>
          have custody : Custody world.ledger (.of trace) [] (.working deferred :: below) :=
            order
          have calm : State.Calm (world.ledger.Public (.of trace)) (fun _ => True) world
              (.program rest :: .working deferred :: below)
              (requesting world (.program rest :: .working deferred :: below) request) :=
            requesting_calm custody (fun _ _ => trivial) trivial
          obtain ⟨plain, extended, -⟩ := calm.stack
          exact ⟨plain ++ [.program rest], by simpa [State.next] using extended, .calls leads⟩
  | @calls above control request next leads =>
      cases above with
      | cons frame rest =>
          -- What is popped is above the frame that waits for the reply.
          cases control with
          | reply _ | unwind _ =>
              exact ⟨new ++ rest ++ [.program next], by simpa [base] using stacked,
                .calls leads⟩
          | program _ | task _ | halted _ =>
              exact ⟨new ++ frame :: rest ++ [.program next], by simpa [base] using stacked,
                .calls leads⟩
      | nil =>
          cases control with
          | reply reply => exact ⟨[], rfl, .runs (.replied reply leads)⟩
          | unwind payload => exact ⟨[], rfl, .panicked (.passed payload leads)⟩
          | program _ | task _ | halted _ =>
              exact ⟨new ++ [.program next], by simpa [base] using stacked, .calls leads⟩

end State

namespace Chronicle

variable {chronicle : Chronicle} {launcher : Option (Place × Nat)}

/-- A work is run only if it was, or begins just now. -/
theorem running_before {occurrences : List Occurrence}
    (permitted : chronicle.PermitsAll occurrences)
    (running : (chronicle.afterAll occurrences).work deferred =
      some ⟨program, launcher, .running⟩) :
    chronicle.work deferred = some ⟨program, launcher, .running⟩ ∨
      .began deferred program ∈ occurrences := by
  induction occurrences generalizing chronicle with
  | nil => exact .inl running
  | cons occurrence rest ih =>
      obtain ⟨allowed, later⟩ := permitted
      rcases ih later running with before | begins
      · cases occurrence with
        | began other work =>
            by_cases same : deferred = other
            · subst same
              obtain ⟨launcher, waiting⟩ := allowed
              simp only [after, work_onFate, waiting, if_true, Option.map_some,
                Option.some.injEq, Work.mk.injEq] at before
              exact .inr (before.1 ▸ List.mem_cons_self ..)
            · exact .inl (by simpa [after, same] using before)
        | dispatched other _ _ =>
            by_cases same : deferred = other
            · simp [after, same] at before
            · exact .inl (by simpa [after, same] using before)
        | worked other _ | discarded other =>
            by_cases same : deferred = other
            · simp [after, same] at before
            · exact .inl (by simpa [after, same] using before)
        | _ => exact .inl before
      · exact .inr (List.mem_cons_of_mem _ begins)

end Chronicle

/-- A work that is run has its frame on the stack, and its program attends to it above. -/
theorem Reaches.attends {launcher : Option (Place × Nat)} (reaches : Reaches trace state)
    (running : (Chronicle.of trace).work deferred = some ⟨program, launcher, .running⟩) :
    ∃ above below, state.stack = above ++ .working deferred :: below ∧
      program.Attends above state.control := by
  induction reaches with
  | begin _ => cases running
  | again _ _ ended ih =>
      obtain ⟨above, below, placed, -⟩ := ih running
      simp [ended.1] at placed
  | @next trace state reached ih =>
      rw [Chronicle.of_append] at running
      rcases Chronicle.running_before (State.permits_occurrences reached.inOrder) running with
        before | begins
      · obtain ⟨above, below, placed, attends⟩ := ih before
        have goesOn (result : Except Failure Value) :
            .worked deferred result ∉ state.occurrences := by
          intro ends
          rw [State.occurrences_of_worked ends] at running
          simp [Chronicle.after] at running
        obtain ⟨later, stacked, attendsLater⟩ :=
          State.attends_next reached.inOrder placed attends goesOn
        exact ⟨later, below, stacked, attendsLater⟩
      · obtain ⟨⟨callers, placed⟩, control⟩ := State.hasBegun_next begins
        exact ⟨[], callers, placed, control ▸ .runs .refl⟩

/-! ## The results of works -/

/-- Nothing is above the innermost frame. -/
theorem Stack.above_eq_nil {above below callers : Stack} {frame : Frame}
    (same : frame :: callers = above ++ frame :: below) (once : frame ∉ callers) :
    above = [] := by
  cases above with
  | nil => rfl
  | cons other rest =>
      cases same
      exact absurd (List.mem_append_right _ (List.mem_cons_self ..)) once

/-- A deferred is written by one frame at most. -/
theorem Custody.working_notMem {ledger : Ledger} {chronicle : Chronicle} {inHand : List Holding}
    {callers : Stack} (custody : Custody ledger chronicle inHand (.working deferred :: callers)) :
    Frame.working deferred ∉ callers := by
  intro member
  have account := custody.deferreds deferred
  have again : 0 < Holding.amount (.writer deferred) callers.holdings :=
    Holding.amount_pos_of_mem (List.mem_flatMap.mpr ⟨_, member, List.mem_singleton.mpr rfl⟩)
      (List.mem_singleton.mpr rfl)
  have twice : 1 < ledger.total inHand (.working deferred :: callers) (.writer deferred) := by
    have here : Holding.amount (.writer deferred) (Frame.working deferred).holdings = 1 := by
      simp [Frame.holdings, Holding.amount, Holding.assets]
    simp only [Ledger.total, Stack.holdings, List.flatMap_cons, Holding.amount_append] at again ⊢
    omega
  cases lookup : ledger.deferreds.get? deferred with
  | none =>
      simp only [Ledger.DeferredAccount, lookup] at account
      omega
  | some found =>
      simp only [Ledger.DeferredAccount, lookup, Deferred.Accords] at account
      have one := account.1
      split at one <;> omega

/-- A work ends with a result that its program yields. -/
theorem Reaches.yields {result : Except Failure Value} (reaches : Reaches trace state)
    (worked : .worked deferred result ∈ state.occurrences) :
    ∃ program launcher,
      (Chronicle.of trace).work deferred = some ⟨program, launcher, .running⟩ ∧
        program.Yields result := by
  have permitted := State.permits_occurrences reaches.inOrder
  rw [State.occurrences_of_worked worked] at permitted
  obtain ⟨⟨program, launcher, running⟩, -⟩ := permitted
  refine ⟨program, launcher, running, ?_⟩
  obtain ⟨above, below, placed, attends⟩ := reaches.attends running
  obtain ⟨⟨callers, stacked⟩, how⟩ := State.drives_of_occurrences worked rfl
  have order := reaches.inOrder
  obtain ⟨world, stack, control⟩ := state
  subst stacked
  have once : Frame.working deferred ∉ callers := by
    rcases how with ⟨reply, rfl, -⟩ | ⟨payload, rfl, -⟩
    · exact Custody.working_notMem order
    · exact Custody.working_notMem order
  cases Stack.above_eq_nil placed once
  rcases how with ⟨reply, rfl, rfl⟩ | ⟨payload, rfl, rfl⟩
  · exact attends.yields_of_reply
  · exact attends.yields_of_unwind

/-- A deed that ends a work comes from the end of a work. -/
theorem Chronicle.worked_of_deedsInAll {chronicle : Chronicle} {occurrences : List Occurrence}
    {machine number : Nat} {work : Program} {result : Except Failure Value}
    (deed : .worked number work result ∈ chronicle.deedsInAll machine occurrences) :
    ∃ deferred, .worked deferred result ∈ occurrences := by
  induction occurrences generalizing chronicle with
  | nil => cases deed
  | cons occurrence rest ih =>
      rcases List.mem_append.mp deed with here | later
      · cases occurrence with
        | worked deferred _ =>
            simp only [deedsIn, Option.mem_toList, Option.map_eq_some_iff] at here
            obtain ⟨_, -, same⟩ := here
            cases same
            exact ⟨deferred, List.mem_cons_self ..⟩
        | dispatched _ _ launcher =>
            cases launcher with
            | none => cases here
            | some pair =>
                simp only [deedsIn] at here
                split at here <;> simp at here
        | shown _ _ _ | announced _ _ =>
            simp only [deedsIn] at here
            split at here <;> simp at here
        | began _ _ | discarded _ => simp [deedsIn] at here
        | _ => cases here
      · obtain ⟨deferred, member⟩ := ih later
        exact ⟨deferred, List.mem_cons_of_mem _ member⟩

/-- A work of a machine has given a result that its program yields. -/
theorem Reaches.yields_of_deed {machine number : Nat} {work : Program}
    {result : Except Failure Value} (reaches : Reaches trace state)
    (deed : .worked number work result ∈ deeds machine trace) : work.Yields result := by
  induction reaches with
  | begin _ => cases deed
  | again _ _ _ ih => exact ih deed
  | @next trace state reached ih =>
      rw [deeds_append] at deed
      rcases List.mem_append.mp deed with before | now
      · exact ih before
      · obtain ⟨deferred, worked⟩ := Chronicle.worked_of_deedsInAll now
        obtain ⟨program, launcher, running, yields⟩ := reached.yields worked
        rw [State.occurrences_of_worked worked] at now
        simp only [Chronicle.deedsInAll, Chronicle.deedsIn, List.append_nil,
          Option.mem_toList, Option.map_eq_some_iff, Chronicle.launch?, running] at now
        obtain ⟨launch, launched, same⟩ := now
        cases launcher with
        | none => cases launched
        | some pair =>
            simp only [Option.ite_none_right_eq_some, Option.some.injEq] at launched
            obtain ⟨-, rfl⟩ := launched
            cases same
            exact yields

end Stepwise
