import Stepwise.Proofs.Course.Yields
import Stepwise.Proofs.Pools.Sent
import Stepwise.Proofs.Writer

/-!
# Dispatched work

A work runs once at most, and its deferred tells exactly what became of it: the value it
returned, the failure it returned or panicked with, or that it was dropped before it began.
-/

namespace Stepwise

/-- Whether an occurrence is the beginning of the work of a deferred. -/
def Occurrence.begins (deferred : Nat) : Occurrence → Bool
  | .began other _ => other == deferred
  | _ => false

/-- The deferred whose work an occurrence is about. -/
def Occurrence.work? : Occurrence → Option Nat
  | .dispatched deferred _ _ => some deferred
  | .began deferred _ => some deferred
  | .worked deferred _ => some deferred
  | .discarded deferred => some deferred
  | _ => none

/-- Whether a work has begun. -/
def Fate.hasBegun : Fate → Bool
  | .running => true
  | .ended _ => true
  | _ => false

variable {trace : List Occurrence} {chronicle : Chronicle} {occurrence : Occurrence}
  {past : List State} {state : State} {deferred : Nat}

/-! ## Fates and what happened -/

/-- The fate of a work is what has happened to it. -/
structure Tallies (deferred : Nat) (work : Option Work) (trace : List Occurrence) : Prop where
  dispatched : ∀ program launcher, .dispatched deferred program launcher ∈ trace →
    ∃ fate, work = some ⟨program, launcher, fate⟩
  begins : trace.countP (Occurrence.begins deferred) = (work.any (·.fate.hasBegun)).toNat
  began : ∀ program, .began deferred program ∈ trace → work.map (·.program) = some program
  worked : ∀ result, .worked deferred result ∈ trace ↔
    work.map (·.fate) = some (.ended result)
  discarded : .discarded deferred ∈ trace ↔ work.map (·.fate) = some .discarded

/-- What happens to other works leaves a work alone. -/
theorem Chronicle.work_of_foreign (foreign : occurrence.work? ≠ some deferred) :
    (chronicle.after occurrence).work deferred = chronicle.work deferred := by
  cases occurrence with
  | dispatched other _ _ | began other _ | worked other _ | discarded other =>
      have different : deferred ≠ other := by
        rintro rfl
        exact foreign rfl
      simp [after, different]
  | _ => rfl

/-- What happens to other works is none of its own. -/
theorem Tallies.foreign {work : Option Work} (tallies : Tallies deferred work trace)
    (foreign : occurrence.work? ≠ some deferred) :
    Tallies deferred work (trace ++ [occurrence]) := by
  have absent {own : Occurrence} (about : own.work? = some deferred) :
      own ∈ trace ++ [occurrence] ↔ own ∈ trace := by
    have different : own ≠ occurrence := by
      rintro rfl
      exact foreign about
    simp [different]
  refine ⟨fun program launcher member => tallies.dispatched program launcher ?_, ?_,
    fun program member => tallies.began program ?_,
    fun result => (absent rfl).trans (tallies.worked result),
    (absent rfl).trans tallies.discarded⟩
  · exact (absent rfl).mp member
  · have silent : occurrence.begins deferred = false := by
      cases occurrence <;> first | rfl | simpa [Occurrence.work?, Occurrence.begins] using foreign
    simp [silent, tallies.begins]
  · exact (absent rfl).mp member

/-- A work comes to another fate by what happens to it. -/
theorem Tallies.refated {program : Program} {launcher : Option (Place × Nat)} {was fate : Fate}
    (tallies : Tallies deferred (some ⟨program, launcher, was⟩) trace)
    (again : ∀ other launched, occurrence ≠ .dispatched deferred other launched)
    (begins : was.hasBegun.toNat + (occurrence.begins deferred).toNat = fate.hasBegun.toNat)
    (began : ∀ other, occurrence = .began deferred other → other = program)
    (worked : ∀ result, was = .ended result ∨ .worked deferred result = occurrence ↔
      fate = .ended result)
    (discarded : was = .discarded ∨ .discarded deferred = occurrence ↔ fate = .discarded) :
    Tallies deferred (some ⟨program, launcher, fate⟩) (trace ++ [occurrence]) where
  dispatched := by
    intro other launched member
    rcases List.mem_append.mp member with before | now
    · obtain ⟨_, same⟩ := tallies.dispatched other launched before
      cases same
      exact ⟨fate, rfl⟩
    · exact absurd (List.mem_singleton.mp now).symm (again other launched)
  begins := by
    have now : [occurrence].countP (Occurrence.begins deferred) =
        (occurrence.begins deferred).toNat := by
      cases begun : occurrence.begins deferred <;> simp [begun]
    rw [List.countP_append, tallies.begins, now]
    exact begins
  began := by
    intro other member
    rcases List.mem_append.mp member with before | now
    · exact tallies.began other before
    · rw [began other (List.mem_singleton.mp now).symm]
      rfl
  worked := by
    intro result
    have before := tallies.worked result
    simp only [Option.map_some, Option.some.injEq] at before ⊢
    rw [List.mem_append, List.mem_singleton, before, worked]
  discarded := by
    have before := tallies.discarded
    simp only [Option.map_some, Option.some.injEq] at before ⊢
    rw [List.mem_append, List.mem_singleton, before, discarded]

/-- Work that is dispatched is waiting, and nothing has happened to it before. -/
theorem Tallies.fresh {program : Program} {launcher : Option (Place × Nat)}
    (tallies : Tallies deferred none trace) :
    Tallies deferred (some ⟨program, launcher, .waiting⟩)
      (trace ++ [.dispatched deferred program launcher]) where
  dispatched := by
    intro other launched member
    rcases List.mem_append.mp member with before | now
    · obtain ⟨_, same⟩ := tallies.dispatched other launched before
      cases same
    · cases List.mem_singleton.mp now
      exact ⟨.waiting, rfl⟩
  begins := by
    rw [List.countP_append, tallies.begins]
    rfl
  began := by
    intro other member
    rcases List.mem_append.mp member with before | now
    · cases tallies.began other before
    · cases List.mem_singleton.mp now
  worked := by
    intro result
    simpa using tallies.worked result
  discarded := by simpa using tallies.discarded

/-- What is permitted next keeps the tally. -/
theorem Tallies.snoc (tallies : Tallies deferred (chronicle.work deferred) trace)
    (permitted : chronicle.Permits occurrence) :
    Tallies deferred ((chronicle.after occurrence).work deferred) (trace ++ [occurrence]) := by
  by_cases foreign : occurrence.work? ≠ some deferred
  · rw [Chronicle.work_of_foreign foreign]
    exact tallies.foreign foreign
  rw [not_not] at foreign
  cases occurrence with
  | dispatched other program launcher =>
      cases foreign
      have unknown : chronicle.work deferred = none := permitted
      rw [unknown] at tallies
      simpa [Chronicle.after] using tallies.fresh
  | began other program =>
      cases foreign
      obtain ⟨launcher, waiting⟩ := permitted
      rw [waiting] at tallies
      simp only [Chronicle.after, Chronicle.work_onFate, if_true, waiting, Option.map_some]
      exact tallies.refated (by simp) (by simp [Fate.hasBegun, Occurrence.begins])
        (by simp [eq_comm]) (by simp) (by simp)
  | worked other result =>
      cases foreign
      obtain ⟨program, launcher, running⟩ := permitted
      rw [running] at tallies
      simp only [Chronicle.after, Chronicle.work_onFate, if_true, running, Option.map_some]
      exact tallies.refated (by simp) (by simp [Fate.hasBegun, Occurrence.begins])
        (by simp) (by simp [eq_comm]) (by simp)
  | discarded other =>
      cases foreign
      obtain ⟨program, launcher, waiting⟩ := permitted
      rw [waiting] at tallies
      simp only [Chronicle.after, Chronicle.work_onFate, if_true, waiting, Option.map_some]
      exact tallies.refated (by simp) (by simp [Fate.hasBegun, Occurrence.begins])
        (by simp) (by simp) (by simp)
  | _ => cases foreign

theorem Tallies.append {more : List Occurrence}
    (tallies : Tallies deferred (chronicle.work deferred) trace)
    (permitted : chronicle.PermitsAll more) :
    Tallies deferred ((chronicle.afterAll more).work deferred) (trace ++ more) := by
  induction more generalizing trace chronicle with
  | nil => simpa using tallies
  | cons occurrence rest ih =>
      have longer := ih (tallies.snoc permitted.1) permitted.2
      rwa [List.append_assoc] at longer

/-- In every run the fate of a work is what has happened to it. -/
theorem Reaches.tallies (reaches : Reaches trace state) (deferred : Nat) :
    Tallies deferred ((Chronicle.of trace).work deferred) trace := by
  have nothing : Tallies deferred (Chronicle.blank.work deferred) [] :=
    ⟨fun _ _ member => absurd member List.not_mem_nil, rfl,
      fun _ member => absurd member List.not_mem_nil,
      fun _ => ⟨fun member => absurd member List.not_mem_nil, by rintro ⟨⟩⟩,
      ⟨fun member => absurd member List.not_mem_nil, by rintro ⟨⟩⟩⟩
  exact nothing.append reaches.permitsAll

/-! ## Where works end -/

/-- The work of a deferred has just returned with a result. -/
def State.HasReturned (state : State) (deferred : Nat) (result : Except Failure Value) : Prop :=
  (∃ callers, state.stack = .working deferred :: callers) ∧
    ∃ reply, state.control = .reply reply ∧ reply.asWork = result

/-- The work of a deferred has just panicked. -/
def State.HasPanicked (state : State) (deferred : Nat) (payload : Payload) : Prop :=
  (∃ callers, state.stack = .working deferred :: callers) ∧ state.control = .unwind payload

/-- The outcome of a deferred has been published. -/
def Published (past : List State) (deferred : Nat) (outcome : Outcome) : Prop :=
  ∃ before ∈ past, before.control = .task (.publish deferred outcome)

namespace State

theorem HasReturned.occurrences {result : Except Failure Value}
    (returned : state.HasReturned deferred result) :
    state.occurrences = [.worked deferred result] := by
  obtain ⟨world, stack, control⟩ := state
  obtain ⟨⟨callers, rfl⟩, reply, rfl, rfl⟩ := returned
  rfl

theorem HasPanicked.occurrences {payload : Payload}
    (panicked : state.HasPanicked deferred payload) :
    state.occurrences = [.worked deferred (.error (.panicked payload.message))] := by
  obtain ⟨world, stack, control⟩ := state
  obtain ⟨⟨callers, rfl⟩, rfl⟩ := panicked
  rfl

/-- A work ends where it returns or panics. -/
theorem ends_of_worked {result : Except Failure Value}
    (member : .worked deferred result ∈ state.occurrences) :
    state.HasReturned deferred result ∨
      ∃ payload, state.HasPanicked deferred payload ∧
        .error (.panicked payload.message) = result := by
  obtain ⟨callers, ⟨reply, replies, same⟩ | ⟨payload, unwinds, same⟩⟩ :=
    drives_of_occurrences member rfl
  · exact .inl ⟨callers, reply, replies, same⟩
  · exact .inr ⟨payload, ⟨callers, unwinds⟩, same⟩

/-- Once a work has ended, its result is published next, whether it returned or panicked. -/
theorem control_of_worked {result : Except Failure Value}
    (member : .worked deferred result ∈ state.occurrences) :
    state.next.control = .task (.publish deferred (result.mapError .work)) := by
  obtain ⟨world, stack, control⟩ := state
  rcases ends_of_worked member with ⟨⟨callers, rfl⟩, reply, rfl, rfl⟩ |
    ⟨payload, ⟨⟨callers, rfl⟩, rfl⟩, rfl⟩
  · simp only [next, returning, worked]
    cases reply.asWork <;> rfl
  · rfl

end State

/-! ## What is published -/

/-- A run goes on from every state that it has gone out of, unless all code has ended. -/
theorem Passes.next_mem {before : State} (passes : Passes past state) (member : before ∈ past) :
    before.next ∈ past ∨ state = before.next ∨ before.next.hasEnded := by
  induction passes with
  | begin _ => cases member
  | next _ ih =>
      rcases List.mem_append.mp member with earlier | last
      · rcases ih earlier with inside | same | ended
        · exact .inl (List.mem_append_left _ inside)
        · exact .inl (List.mem_append_right _ (List.mem_singleton.mpr same.symm))
        · exact .inr (.inr ended)
      · rw [List.mem_singleton.mp last]
        exact .inr (.inl rfl)
  | again _ _ ended ih =>
      rcases ih member with inside | same | left
      · exact .inl inside
      · exact .inr (.inr (same ▸ ended))
      · exact .inr (.inr left)

/-- Where code may run, the library has carried out every task that it came to. -/
theorem Passes.task_mem {before : State} {task : Task} (passes : Passes past state)
    (isOpen : state.isOpen = true) (member : before ∈ past)
    (comes : before.next.control = .task task)
    (closed : before.next.isOpen = false) : before.next ∈ past := by
  rcases passes.next_mem member with inside | rfl | ⟨-, ⟨reply, replies⟩ | ⟨payload, unwinds⟩⟩
  · exact inside
  · rw [closed] at isOpen
    cases isOpen
  · cases comes.symm.trans replies
  · cases comes.symm.trans unwinds

/-- Where code may run, the result of a work that has ended is published. -/
theorem Passes.published_of_worked {result : Except Failure Value} (passes : Passes past state)
    (isOpen : state.isOpen = true)
    (worked : .worked deferred result ∈ past.flatMap State.occurrences) :
    Published past deferred (result.mapError .work) := by
  obtain ⟨before, member, ends⟩ := List.mem_flatMap.mp worked
  have publishes := State.control_of_worked ends
  exact ⟨before.next, passes.task_mem isOpen member publishes (by simp [State.isOpen, publishes]),
    publishes⟩

/-- Where code may run, the deferred of a work that was dropped tells so. -/
theorem Passes.published_of_discarded (passes : Passes past state)
    (isOpen : state.isOpen = true)
    (discarded : .discarded deferred ∈ past.flatMap State.occurrences) :
    Published past deferred (.error .shutdown) := by
  obtain ⟨before, member, loses⟩ := List.mem_flatMap.mp discarded
  obtain ⟨work, drops⟩ := State.control_of_discarded loses
  have gives : before.next.control = .task (.discard (.writer deferred)) := by
    simp [State.next, State.carryingOut, State.discarding, drops]
  have publishes : before.next.next.control = .task (.publish deferred (.error .shutdown)) := by
    generalize before.next = given at gives ⊢
    simp [State.next, State.carryingOut, State.discarding, gives]
  have given := passes.task_mem isOpen member gives (by simp [State.isOpen, gives])
  exact ⟨before.next.next,
    passes.task_mem isOpen given publishes (by simp [State.isOpen, publishes]), publishes⟩

namespace Chronicle

/-- A work that is over stays as it is. -/
theorem work_afterAll_of_over {occurrences : List Occurrence} {work : Work}
    (permitted : chronicle.PermitsAll occurrences)
    (recorded : chronicle.work deferred = some work)
    (through : work.fate.outcome?.isSome = true) :
    (chronicle.afterAll occurrences).work deferred = some work := by
  induction occurrences generalizing chronicle with
  | nil => exact recorded
  | cons occurrence rest ih =>
      exact ih permitted.2 (outcome_of_over permitted.1 recorded through)

/-- New work is recorded only where it is dispatched. -/
theorem dispatched_of_work_afterAll {occurrences : List Occurrence} {work : Work}
    (absent : chronicle.work deferred = none)
    (recorded : (chronicle.afterAll occurrences).work deferred = some work) :
    ∃ program launcher, .dispatched deferred program launcher ∈ occurrences := by
  induction occurrences generalizing chronicle with
  | nil => cases absent.symm.trans recorded
  | cons occurrence rest ih =>
      cases now : (chronicle.after occurrence).work deferred with
      | none =>
          obtain ⟨program, launcher, member⟩ := ih now recorded
          exact ⟨program, launcher, List.mem_cons_of_mem _ member⟩
      | some added =>
          rcases work_before now with ⟨was, present, -⟩ | rfl
          · cases absent.symm.trans present
          · exact ⟨_, _, List.mem_cons_self ..⟩

end Chronicle

/-- The outcome of a dispatched work that was published is the one that it has come to. -/
theorem Passes.outcome_of_published {outcome : Outcome} {work : Work}
    (passes : Passes past state) (published : Published past deferred outcome)
    (recorded : (Chronicle.of (past.flatMap State.occurrences)).work deferred = some work) :
    work.fate.outcome? = some outcome := by
  induction passes generalizing work with
  | begin _ => cases recorded
  | again _ _ _ ih => exact ih published recorded
  | @next past state passes ih =>
      have order := passes.reaches.inOrder
      rw [List.flatMap_append, List.flatMap_singleton, Chronicle.of_append] at recorded
      obtain ⟨before, member, publishes⟩ := published
      rcases List.mem_append.mp member with earlier | now
      · have once : Published past deferred outcome := ⟨before, earlier, publishes⟩
        cases known : (Chronicle.of (past.flatMap State.occurrences)).work deferred with
        | some was =>
            have settled := ih once known
            have same := Chronicle.work_afterAll_of_over (State.permits_occurrences order) known
              (by simp [settled])
            cases same.symm.trans recorded
            exact settled
        | none =>
            -- What was published is there, and work is dispatched on what is not there yet.
            obtain ⟨program, launcher, dispatched⟩ :=
              Chronicle.dispatched_of_work_afterAll known recorded
            obtain ⟨newest, -⟩ := State.dispatching_of_mem dispatched
            have counted : 0 < past.countP (State.publishes deferred) :=
              List.countP_pos_iff.mpr ⟨before, earlier, State.publishes_iff.mpr ⟨_, publishes⟩⟩
            rcases passes.countP_publishes deferred with ⟨⟨found, lookup, -⟩, -⟩ | ⟨-, none⟩
            · have present : state.world.deferreds.get? deferred = some found := lookup
              simp [newest, Store.get?, Store.size] at present
            · omega
      · rw [List.mem_singleton.mp now] at publishes
        have custody := order.custody (by simp [publishes])
        have silent : state.occurrences = [] := by
          simp [State.occurrences, publishes, World.performed]
        rw [publishes] at custody
        rw [silent] at recorded
        exact custody.rightful_head work recorded

/-- A deferred is complete just when an outcome of it has been published. -/
theorem Passes.completed_iff_published (passes : Passes past state) :
    state.world.ledger.Completed deferred ↔ ∃ outcome, Published past deferred outcome := by
  have counted : 0 < past.countP (State.publishes deferred) ↔
      ∃ outcome, Published past deferred outcome := by
    simp only [List.countP_pos_iff, State.publishes_iff, Published]
    constructor
    · rintro ⟨before, member, outcome, publishes⟩
      exact ⟨outcome, before, member, publishes⟩
    · rintro ⟨outcome, before, member, publishes⟩
      exact ⟨before, member, outcome, publishes⟩
  rw [← counted]
  rcases passes.countP_publishes deferred with ⟨completed, one⟩ | ⟨pending, none⟩
  · simp [completed, one]
  · simp [pending, none]

/-- One outcome of a deferred is published. -/
theorem Passes.published_unique {outcome other : Outcome} (passes : Passes past state)
    (published : Published past deferred outcome) (again : Published past deferred other) :
    outcome = other := by
  induction passes with
  | begin _ =>
      obtain ⟨_, member, -⟩ := published
      cases member
  | again _ _ _ ih => exact ih published again
  | @next past state passes ih =>
      -- What was published before is not published now.
      have fresh {first second : Outcome} {before : State} (member : before ∈ past)
          (earlier : before.control = .task (.publish deferred first))
          (now : state.control = .task (.publish deferred second)) : False := by
        have custody := passes.reaches.inOrder.custody (by simp [now])
        rw [now] at custody
        exact custody.not_completed_of_inHand
          (by simp [Control.holdings, Task.holdings, Holding.assets])
          (passes.completed_iff_published.mpr ⟨first, before, member, earlier⟩)
      obtain ⟨before, member, publishes⟩ := published
      obtain ⟨after, among, publishesToo⟩ := again
      rcases List.mem_append.mp member with first | last <;>
        rcases List.mem_append.mp among with firstToo | lastToo
      · exact ih ⟨before, first, publishes⟩ ⟨after, firstToo, publishesToo⟩
      · rw [List.mem_singleton.mp lastToo] at publishesToo
        exact (fresh first publishes publishesToo).elim
      · rw [List.mem_singleton.mp last] at publishes
        exact (fresh firstToo publishesToo publishes).elim
      · rw [List.mem_singleton.mp last] at publishes
        rw [List.mem_singleton.mp lastToo] at publishesToo
        cases publishes.symm.trans publishesToo
        rfl

/-- An outcome that a deferred holds has been published. -/
theorem Passes.published_of_complete {found : Deferred} {outcome : Outcome}
    (passes : Passes past state) (lookup : state.world.deferreds.get? deferred = some found)
    (complete : found.progress = .complete outcome) : Published past deferred outcome := by
  induction passes generalizing found with
  | begin _ => simp [State.ofProgram, World.initial] at lookup
  | again _ _ _ ih => exact ih lookup complete
  | @next past state passes ih =>
      have order := passes.reaches.inOrder
      have completed : state.next.world.ledger.Completed deferred :=
        ⟨found, lookup, by simp [Deferred.isComplete, complete]⟩
      rcases State.completes_next passes.reaches.tidy completed with
        ⟨was, present, whole⟩ | ⟨published, publishes⟩
      · obtain ⟨changed, later, onward⟩ := State.onward_next order deferred was present
        cases later.symm.trans lookup
        rw [complete] at onward
        have before : was.progress = .complete outcome := by
          cases progress : was.progress with
          | pending => simp [Deferred.isComplete, progress] at whole
          | complete _ =>
              rw [progress] at onward
              cases onward
              rfl
          | taken =>
              rw [progress] at onward
              cases onward
        obtain ⟨earlier, member, publishes⟩ := ih present before
        exact ⟨earlier, List.mem_append_left _ member, publishes⟩
      · have custody := order.custody (by simp [publishes])
        rw [publishes] at custody
        obtain ⟨⟨was, present, -⟩, -⟩ :=
          custody.pending_of_writer deferred
            (by simp [Task.holdings, Control.holdings, Holding.assets])
        have known : state.world.deferreds.get? deferred = some was := present
        have same : found.progress = .complete published := by
          simp only [State.next, publishes, State.carryingOut, State.publishing, known,
            World.record, World.modifyDeferred, Store.get?_modify, if_true, Option.map_some,
            Option.some.injEq] at lookup
          rw [← lookup]
          rfl
        cases same.symm.trans complete
        exact ⟨state, by simp, publishes⟩

namespace State

/-- The job of a deferred waits, in the queue of a pool, or among the jobs that are being
dropped with their queue. -/
def IsQueued (state : State) (deferred : Nat) (work : Program) : Prop :=
  (∃ pool, state.world.ledger.Holds (.queued (.pool pool)) (.job deferred work)) ∨
    state.Drops (.job deferred work)

/-- What is being dropped is held by the stack. -/
theorem Drops.mem_holdings {continuation : Continuation} (drops : state.Drops continuation) :
    .continuation .loose continuation ∈ Stack.holdings state.stack := by
  obtain ⟨rest, placed | ⟨payload, placed⟩, member⟩ := drops
  all_goals
    exact List.mem_flatMap.mpr ⟨_, placed, List.mem_flatMap.mpr
      ⟨_, member, List.mem_singleton.mpr rfl⟩⟩

/-- A deferred whose job waits or runs is pending. -/
theorem pending_of_queued_or_running {inHand : List Holding} {program : Program}
    (custody : Custody state.world.ledger chronicle inHand state.stack)
    (held : state.IsQueued deferred program ∨ Frame.working deferred ∈ state.stack) :
    ¬ state.world.ledger.Completed deferred := by
  refine custody.not_completed_of_owned ?_
  have resting : 0 < state.world.ledger.total [] state.stack (.writer deferred) := by
    rcases held with (⟨pool, holds⟩ | drops) | running
    · exact Ledger.total_pos_of_holds holds (List.mem_singleton.mpr rfl)
    · exact Ledger.total_pos_of_mem drops.mem_holdings (List.mem_singleton.mpr rfl)
    · exact Ledger.total_pos_of_mem
        (List.mem_flatMap.mpr ⟨_, running, List.mem_singleton.mpr rfl⟩) (List.mem_singleton.mpr rfl)
  rw [Ledger.total_inHand]
  omega

/-- Where code may run, the writer of a deferred whose work is not over is with its job, or
with the frame that captures the work. -/
theorem queued_or_running {work : Work} (order : state.InOrder chronicle) (tidy : state.Tidy)
    (isOpen : state.isOpen = true) (recorded : chronicle.work deferred = some work)
    (under : work.fate.outcome? = none) {found : Deferred}
    (lookup : state.world.deferreds.get? deferred = some found)
    (pending : found.isComplete = false) :
    state.IsQueued deferred work.program ∨ Frame.working deferred ∈ state.stack := by
  obtain ⟨-, custody⟩ := custody_of_isOpen order isOpen
  have job {site : Site} {program : Program}
      (admits : site.Admits state.world.ledger chronicle (.job deferred program)) :
      program = work.program := by
    obtain ⟨launcher, waiting⟩ : ∃ launcher,
        chronicle.work deferred = some ⟨program, launcher, .waiting⟩ := by
      cases site with
      | queued scheduler => cases scheduler <;> first | exact admits | exact admits.elim
      | loose => exact admits
      | registered _ | fired _ | sent _ => exact admits.elim
    cases waiting.symm.trans recorded
    rfl
  cases (writers_of_isOpen order tidy isOpen lookup).2 pending with
  | named named => cases (custody.named _ _ named).symm.trans recorded
  | observing observed _ observes =>
      cases (custody.observed _ _ _ observed observes).symm.trans recorded
  | displaced placed =>
      have held : Holding.writer deferred ∈ [] ++ Stack.holdings state.stack := by
        simp [placed, Frame.holdings, Owned.holdings]
      have settled := custody.rightful _ held work recorded
      rw [under] at settled
      cases settled
  | queued holds => exact .inl (.inl ⟨_, job (custody.kept _ _ holds) ▸ holds⟩)
  | @drained program drops =>
      have admits : Site.loose.Admits state.world.ledger chronicle (.job deferred program) :=
        custody.rightful (.continuation .loose (.job deferred program))
          (by simpa using drops.mem_holdings)
      exact .inl (.inr (job admits ▸ drops))
  | running working => exact .inr working

end State

/-- What a deferred tells of its work, wherever code may run.  A failure that tells of a
panic is told of a work that panicked, or of one that returned just such a failure. -/
structure Tells (past : List State) (state : State) (deferred : Nat) (work : Program) :
    Prop where
  value : ∀ value, Published past deferred (.ok value) ↔
    ∃ before ∈ past, before.HasReturned deferred (.ok value)
  failure : ∀ failure, Published past deferred (.error (.work failure)) ↔
    (∃ before ∈ past, before.HasReturned deferred (.error failure)) ∨
      ∃ before ∈ past, ∃ payload, before.HasPanicked deferred payload ∧
        failure = .panicked payload.message
  shutdown : Published past deferred (.error .shutdown) ↔
    .discarded deferred ∈ past.flatMap State.occurrences
  nothingElse : ∀ error, Published past deferred (.error error) →
    error = .shutdown ∨ ∃ failure, error = .work failure
  pending : ∃ found, state.world.deferreds.get? deferred = some found ∧
    (found.progress = .pending ↔
      state.IsQueued deferred work ∨ Frame.working deferred ∈ state.stack) ∧
    (found.progress = .pending ↔ ∀ outcome, ¬ Published past deferred outcome) ∧
    ∀ outcome, found.progress = .complete outcome → Published past deferred outcome

/-- A work that is over has ended with a result, or was dropped. -/
theorem Fate.eq_of_outcome {fate : Fate} {outcome : Outcome}
    (through : fate.outcome? = some outcome) :
    (∃ result, fate = .ended result ∧ outcome = result.mapError .work) ∨
      (fate = .discarded ∧ outcome = .error .shutdown) := by
  cases fate with
  | waiting | running => cases through
  | ended result =>
      cases through
      exact .inl ⟨result, rfl, rfl⟩
  | discarded =>
      cases through
      exact .inr ⟨rfl, rfl⟩

section

variable {work : Program} {launcher : Option (Place × Nat)}

/-- A result of a work that is published is the one that the work has ended with. -/
theorem Passes.ends_of_published {result : Except Failure Value} (passes : Passes past state)
    (dispatched : .dispatched deferred work launcher ∈ past.flatMap State.occurrences)
    (published : Published past deferred (result.mapError .work)) :
    ∃ before ∈ past, before.HasReturned deferred result ∨
      ∃ payload, before.HasPanicked deferred payload ∧
        .error (.panicked payload.message) = result := by
  have tallies := passes.reaches.tallies deferred
  obtain ⟨fate, recorded⟩ := tallies.dispatched work launcher dispatched
  have ended : fate = .ended result := by
    rcases Fate.eq_of_outcome (passes.outcome_of_published published recorded) with
      ⟨other, ended, same⟩ | ⟨-, same⟩
    · cases result <;> cases other <;> cases same <;> exact ended
    · cases result <;> cases same
  have worked : .worked deferred result ∈ past.flatMap State.occurrences :=
    (tallies.worked result).mpr (by simp [recorded, ended])
  obtain ⟨before, member, ends⟩ := List.mem_flatMap.mp worked
  exact ⟨before, member, State.ends_of_worked ends⟩

/-- Where code may run, a work that was dispatched and has no outcome published waits or is
being run. -/
theorem Passes.queued_or_running (passes : Passes past state) (isOpen : state.isOpen = true)
    (dispatched : .dispatched deferred work launcher ∈ past.flatMap State.occurrences)
    {found : Deferred} (lookup : state.world.deferreds.get? deferred = some found)
    (pending : found.progress = .pending)
    (untold : ∀ outcome, ¬ Published past deferred outcome) :
    state.IsQueued deferred work ∨ Frame.working deferred ∈ state.stack := by
  have tallies := passes.reaches.tallies deferred
  obtain ⟨fate, recorded⟩ := tallies.dispatched work launcher dispatched
  refine State.queued_or_running passes.reaches.inOrder passes.reaches.tidy isOpen recorded ?_
    lookup (Deferred.pending_iff.mp pending)
  cases fate with
  | waiting | running => rfl
  | ended result =>
      have worked := (tallies.worked result).mpr (by simp [recorded])
      exact absurd (passes.published_of_worked isOpen worked) (untold _)
  | discarded =>
      have dropped := tallies.discarded.mpr (by simp [recorded])
      exact absurd (passes.published_of_discarded isOpen dropped) (untold _)

/-- Where code may run, a deferred tells exactly what became of its work. -/
theorem Passes.tells (passes : Passes past state) (isOpen : state.isOpen = true)
    (dispatched : .dispatched deferred work launcher ∈ past.flatMap State.occurrences) :
    Tells past state deferred work := by
  have reaches := passes.reaches
  have tallies := reaches.tallies deferred
  obtain ⟨fate, recorded⟩ := tallies.dispatched work launcher dispatched
  have settled {outcome : Outcome} (published : Published past deferred outcome) :
      (∃ result, fate = .ended result ∧ outcome = result.mapError .work) ∨
        (fate = .discarded ∧ outcome = .error .shutdown) :=
    Fate.eq_of_outcome (passes.outcome_of_published published recorded)
  have publishes {before : State} {result : Except Failure Value} (member : before ∈ past)
      (ends : before.occurrences = [.worked deferred result]) :
      Published past deferred (result.mapError .work) :=
    passes.published_of_worked isOpen
      (List.mem_flatMap.mpr ⟨before, member, ends ▸ List.mem_singleton.mpr rfl⟩)
  constructor
  case value =>
    intro value
    constructor
    · intro published
      have outcome : Published past deferred (Except.mapError .work (.ok value)) := published
      obtain ⟨before, member, returns | ⟨_, -, same⟩⟩ :=
        passes.ends_of_published dispatched outcome
      · exact ⟨before, member, returns⟩
      · cases same
    · rintro ⟨before, member, returns⟩
      exact publishes member returns.occurrences
  case failure =>
    intro failure
    constructor
    · intro published
      have outcome : Published past deferred (Except.mapError .work (.error failure)) := published
      obtain ⟨before, member, returns | ⟨payload, panics, same⟩⟩ :=
        passes.ends_of_published dispatched outcome
      · exact .inl ⟨before, member, returns⟩
      · cases same
        exact .inr ⟨before, member, payload, panics, rfl⟩
    · rintro (⟨before, member, returns⟩ | ⟨before, member, payload, panics, rfl⟩)
      · exact publishes member returns.occurrences
      · exact publishes member panics.occurrences
  case shutdown =>
    refine ⟨fun published => tallies.discarded.mpr ?_, passes.published_of_discarded isOpen⟩
    rcases settled published with ⟨result, -, same⟩ | ⟨dropped, -⟩
    · cases result <;> cases same
    · simp [recorded, dropped]
  case nothingElse =>
    intro error published
    rcases settled published with ⟨result, -, same⟩ | ⟨-, same⟩
    · cases result with
      | ok _ => cases same
      | error failure =>
          cases same
          exact .inr ⟨failure, rfl⟩
    · cases same
      exact .inl rfl
  case pending =>
    obtain ⟨-, custody⟩ := State.custody_of_isOpen reaches.inOrder isOpen
    cases lookup : state.world.deferreds.get? deferred with
    | none =>
        have account := custody.deferreds deferred
        have absent : state.world.ledger.deferreds.get? deferred = none := lookup
        simp [Ledger.DeferredAccount, absent, recorded] at account
    | some found =>
        have pending : found.progress = .pending ↔ ¬ state.world.ledger.Completed deferred :=
          Ledger.pending_iff lookup
        have untold : found.progress = .pending ↔ ∀ outcome, ¬ Published past deferred outcome := by
          rw [pending, passes.completed_iff_published, not_exists]
        refine ⟨found, rfl, ⟨?_, ?_⟩, untold, fun outcome => passes.published_of_complete lookup⟩
        · intro waits
          exact passes.queued_or_running isOpen dispatched lookup waits (untold.mp waits)
        · exact fun held => pending.mpr (State.pending_of_queued_or_running custody held)

end

/-- Work that is sent to a pool which accepts no jobs has been dropped, or is just about to
be. -/
theorem Passes.discarded_of_refused {before : State} {pool : Nat} (passes : Passes past state)
    (member : before ∈ past) (sends : before.Sends pool deferred)
    (refuses : before.world.acceptsJobs pool = false) :
    .discarded deferred ∈ past.flatMap State.occurrences ∨
      ∃ work, state.control = .task (.discard (.continuation (.job deferred work))) := by
  obtain ⟨work, drops⟩ := sends.refused refuses
  rcases passes.next_mem member with inside | rfl | ⟨-, ⟨reply, replies⟩ | ⟨payload, unwinds⟩⟩
  · left
    refine List.mem_flatMap.mpr ⟨before.next, inside, ?_⟩
    generalize before.next = given at drops ⊢
    simp [State.occurrences, drops, World.performed, World.discarded]
  · exact .inr ⟨work, drops⟩
  · cases drops.symm.trans replies
  · cases drops.symm.trans unwinds

/-- Work that is sent to a pool which accepts no jobs never begins. -/
theorem Passes.begins_of_refused {before : State} {pool : Nat} (passes : Passes past state)
    (member : before ∈ past) (sends : before.Sends pool deferred)
    (refuses : before.world.acceptsJobs pool = false) :
    (past.flatMap State.occurrences).countP (Occurrence.begins deferred) = 0 := by
  have tallies := passes.reaches.tallies deferred
  rw [tallies.begins]
  rcases passes.discarded_of_refused member sends refuses with discarded | ⟨work, drops⟩
  · obtain ⟨_, recorded, dropped⟩ := Option.map_eq_some_iff.mp (tallies.discarded.mp discarded)
    simp [recorded, dropped, Fate.hasBegun]
  · have custody := passes.reaches.inOrder.custody (by simp [drops])
    rw [drops] at custody
    obtain ⟨launcher, waiting⟩ : Site.loose.Admits state.world.ledger _ (.job deferred work) :=
      custody.rightful_head
    simp [waiting, Fate.hasBegun]

/-- Dispatched work runs once at most, and its deferred tells exactly what became of it.  No
other program runs in its place.  Its panic goes no further than the frame that captures it,
which is there as long as the work runs.  Work that a pool refuses never runs. -/
theorem deferred_tells_work {work : Program} {launcher : Option (Place × Nat)}
    (passes : Passes past state)
    (dispatched : .dispatched deferred work launcher ∈ past.flatMap State.occurrences) :
    (past.flatMap State.occurrences).countP (Occurrence.begins deferred) ≤ 1 ∧
    (∀ before ∈ past, ∀ program, .began deferred program ∈ before.occurrences →
      program = work ∧ before.next.HasBegun deferred work) ∧
    (∀ before ∈ past, ∀ payload, before.HasPanicked deferred payload →
      before.stack = .working deferred :: before.next.stack ∧
        before.next.control =
          .task (.publish deferred (.error (.work (.panicked payload.message))))) ∧
    ((past.flatMap State.occurrences).countP (Occurrence.begins deferred) = 1 →
      (∀ result, .worked deferred result ∉ past.flatMap State.occurrences) →
        Frame.working deferred ∈ state.stack) ∧
    (∀ before ∈ past, ∀ pool, before.Sends pool deferred →
      before.world.acceptsJobs pool = false →
        (past.flatMap State.occurrences).countP (Occurrence.begins deferred) = 0 ∧
          (state.isOpen = true → Published past deferred (.error .shutdown))) ∧
    (state.isOpen = true → Tells past state deferred work) := by
  have tallies := passes.reaches.tallies deferred
  obtain ⟨fate, recorded⟩ := tallies.dispatched work launcher dispatched
  refine ⟨?_, ?_, ?_, ?_, ?_, fun isOpen => passes.tells isOpen dispatched⟩
  · rw [tallies.begins]
    exact Bool.toNat_le _
  · intro before member program began
    have same := tallies.began program (List.mem_flatMap.mpr ⟨before, member, began⟩)
    simp only [recorded, Option.map_some, Option.some.injEq] at same
    subst same
    exact ⟨rfl, State.hasBegun_next began⟩
  · rintro before - payload panicked
    have ends : .worked deferred (.error (.panicked payload.message)) ∈ before.occurrences :=
      panicked.occurrences ▸ List.mem_singleton.mpr rfl
    refine ⟨?_, State.control_of_worked ends⟩
    obtain ⟨world, stack, control⟩ := before
    obtain ⟨⟨callers, rfl⟩, rfl⟩ := panicked
    rfl
  · intro begun unended
    cases fate with
    | waiting | discarded => simp [tallies.begins, recorded, Fate.hasBegun] at begun
    | ended result =>
        exact absurd ((tallies.worked result).mpr (by simp [recorded])) (unended result)
    | running =>
        obtain ⟨above, below, placed, -⟩ := passes.reaches.attends recorded
        simp [placed]
  · intro before member pool sends refuses
    refine ⟨passes.begins_of_refused member sends refuses, fun isOpen => ?_⟩
    rcases passes.discarded_of_refused member sends refuses with discarded | ⟨_, drops⟩
    · exact passes.published_of_discarded isOpen discarded
    · simp [State.isOpen, drops] at isOpen

/-- Have works return, panic, wait for a worker until their runtime is displaced, and come too
late for it. -/
def Program.commissioning : Program :=
  .call (.newRuntime (.shared "runtime") 1 "worker") fun _ =>
    .call (.dispatch (.shared "returning") false false .immediate
      (.ret (.outcome (.ok (.bool true))))) fun _ =>
      .call (.dispatch (.shared "panicking") false false .immediate
        (.panic (.text "boom"))) fun _ =>
        .call (.dispatch (.shared "waiting") false false (.pool 0) (.ret .done)) fun _ =>
          .call (.newRuntime (.shared "runtime") 1 "worker") fun _ =>
            .call (.dispatch (.shared "late") false false (.pool 0) (.ret .done)) .ret

/-- The four deferreds tell what became of their works; while the third waits for a worker, its
deferred is pending. -/
theorem deferred_tells_work_commissioning :
    let past := (State.ofProgram .initial .commissioning).visits 45
    Published past 0 (.ok (.bool true)) ∧
    Published past 1 (.error (.work (.panicked "boom"))) ∧
    Published past 2 (.error .shutdown) ∧
    Published past 3 (.error .shutdown) ∧
    (past.flatMap State.occurrences).countP (Occurrence.begins 0) ≤ 1 ∧
    (past.flatMap State.occurrences).countP (Occurrence.begins 3) = 0 ∧
    ∃ found, ((State.ofProgram .initial .commissioning).walk 21).2.world.deferreds.get? 2 =
      some found ∧ found.progress = .pending := by
  have passes := Passes.begin .commissioning
  have visited (step count : Nat) (fewer : step < count) :
      ((State.ofProgram .initial .commissioning).walk step).2 ∈
        [] ++ (State.ofProgram .initial .commissioning).visits count :=
    State.walk_mem_visits fewer
  have happens {occurrence : Occurrence} (step count : Nat) (fewer : step < count)
      (member : occurrence ∈
        ((State.ofProgram .initial .commissioning).walk step).2.occurrences) :
      occurrence ∈ ([] ++ (State.ofProgram .initial .commissioning).visits count).flatMap
        State.occurrences :=
    List.mem_flatMap.mpr ⟨_, visited step count fewer, member⟩
  obtain ⟨once, -, -, -, -, returned⟩ := deferred_tells_work (passes.walk 45)
    (happens 2 45 (by decide) (List.mem_cons_self ..))
  obtain ⟨-, -, -, -, -, panicked⟩ := deferred_tells_work (passes.walk 45)
    (happens 10 45 (by decide) (List.mem_cons_self ..))
  obtain ⟨-, -, -, -, -, dropped⟩ := deferred_tells_work (passes.walk 45)
    (happens 18 45 (by decide) (List.mem_cons_self ..))
  obtain ⟨-, -, -, -, late, -⟩ := deferred_tells_work (passes.walk 45)
    (happens 35 45 (by decide) (List.mem_cons_self ..))
  obtain ⟨-, -, -, -, -, waiting⟩ := deferred_tells_work (passes.walk 21)
    (happens 18 21 (by decide) (List.mem_cons_self ..))
  obtain ⟨never, shutdown⟩ :=
    late _ (visited 35 45 (by decide)) 0 ⟨rfl, _, _, rfl, rfl⟩ rfl
  refine ⟨((returned rfl).value _).mpr ⟨_, visited 4 45 (by decide), ⟨_, rfl⟩, _, rfl, rfl⟩,
    ((panicked rfl).failure _).mpr
      (.inr ⟨_, visited 12 45 (by decide), .text "boom", ⟨⟨_, rfl⟩, rfl⟩, rfl⟩),
    (dropped rfl).shutdown.mpr (happens 26 45 (by decide) (List.mem_cons_self ..)),
    shutdown rfl, once, never, ?_⟩
  obtain ⟨found, lookup, pending, -, -⟩ := (waiting rfl).pending
  exact ⟨found, lookup, pending.mpr (.inl (.inl ⟨0, _, rfl, List.mem_cons_self ..⟩))⟩

end Stepwise
