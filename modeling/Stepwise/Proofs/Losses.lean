import Stepwise.Proofs.Cancellation
import Stepwise.Proofs.Compliance
import Stepwise.Proofs.Promise

/-!
# Receipts and handles that are dropped

Whatever a receipt or a handle gives access to is owned by others as long as it matters: a
suspended machine by its resumption, a running one by the call that resumes it, a deferred by its
writer.  So to drop a receipt, or the handle of a machine that keeps the protocol, makes no
difference to anything but the name, and the number of the machine's owners.
-/

namespace Stepwise

variable {trace : List Occurrence} {state later seen visited : State}
  {past more others : List State} {machine : Nat} {name : Name}

/-- The machine whose step ends with a breach of protocol, of which it dies. -/
def Occurrence.breach? : Occurrence → Option Nat
  | .ended machine (.returned (.fail error)) => if error.isFatal then some machine else none
  | _ => none

/-- Something that code has under a name and drops: a receipt, or the handle of a machine. -/
inductive Loss where
  | receipt (name : Name)
  | handle (name : Name) (machine : Nat)

namespace Loss

/-- The request that drops it. -/
def request : Loss → Request
  | receipt name => .dropReceipt name
  | handle name _ => .dropHandle name

/-- Code has it. -/
def Held (world : World) : Loss → Prop
  | receipt name => (world.receipts.find? name).isSome = true
  | handle name machine => world.handles.find? name = some machine

/-- How many small steps it takes to drop it. -/
def steps : Loss → Nat
  | receipt _ => 1
  | handle _ _ => 3

/-- The next small step uses its name. -/
def NamedIn (state : State) : Loss → Prop
  | receipt name => state.receipt? = some name
  | handle name _ => state.handle? = some name

/-- The machine dies of a breach of protocol. -/
def BrokenBy (occurrence : Occurrence) : Loss → Prop
  | receipt _ => False
  | handle _ machine => occurrence.breach? = some machine

instance (loss : Loss) (state : State) : Decidable (loss.NamedIn state) :=
  match loss with
  | receipt name => inferInstanceAs (Decidable (state.receipt? = some name))
  | handle name _ => inferInstanceAs (Decidable (state.handle? = some name))

instance (loss : Loss) (occurrence : Occurrence) : Decidable (loss.BrokenBy occurrence) :=
  match loss with
  | receipt _ => inferInstanceAs (Decidable False)
  | handle _ machine => inferInstanceAs (Decidable (occurrence.breach? = some machine))

/-- On the way, its name is not used, and the machine keeps the protocol. -/
def Spared (loss : Loss) (visited : List State) : Prop :=
  ∀ state ∈ visited, ¬ loss.NamedIn state ∧
    ∀ occurrence ∈ state.occurrences, ¬ loss.BrokenBy occurrence

instance (loss : Loss) (visited : List State) : Decidable (loss.Spared visited) :=
  inferInstanceAs (Decidable (∀ state ∈ visited, ¬ loss.NamedIn state ∧
    ∀ occurrence ∈ state.occurrences, ¬ loss.BrokenBy occurrence))

end Loss

/-- How often an asset is owned, by the world, by the control, and by the calls in progress. -/
def State.owned (state : State) (asset : Asset) : Nat :=
  state.world.ledger.total state.control.holdings state.stack asset

/-- What it gives access to is kept by others.  A deferred that is pending has its writer, and one
that is complete has no continuations left.  A machine that is suspended has its resumption, one
that is running is claimed by the call that resumes it, and one that is finished has no observer
left. -/
def Loss.Dispensable (state : State) : Loss → Prop
  | .receipt name => ∃ receipt found, state.world.receipts.find? name = some receipt ∧
      state.world.deferreds.get? receipt.deferred = some found ∧
      if found.isComplete then found.continuations = []
      else state.owned (.writer receipt.deferred) = 1
  | .handle _ machine => ∃ found, state.world.activations.get? machine = some found ∧
      match found.status with
      | .idle => state.owned (.resumption machine) = 1
      | .running => state.owned (.claim machine) = 1
      | .finished => found.observer = none

/-- The world without it: the name is gone, and with a handle one of the machine's owners. -/
def World.without (world : World) : Loss → World
  | .receipt name => { world with receipts := world.receipts.erase name }
  | .handle name machine =>
      { world.modifyActivation machine fun activation =>
          { activation with owners := activation.owners - 1 } with
        handles := world.handles.erase name }

/-- The state without it, with the same control and the same calls in progress. -/
def State.without (state : State) (loss : Loss) : State :=
  { state with world := state.world.without loss }

/-- Runs from a state on go on without it as they do with it, while nothing uses its name and the
machine keeps the protocol. -/
structure Loss.Inert (loss : Loss) (state : State) : Prop where
  /-- Where a run goes on with it, one goes on without it, from state to state. -/
  goesOn : ∀ others seen, state.GoesOn others seen → loss.Spared others →
    (state.without loss).GoesOn (others.map (·.without loss)) (seen.without loss)
  /-- There is no other run without it. -/
  comes : ∀ more later, (state.without loss).GoesOn more later → loss.Spared more →
    ∃ others seen, state.GoesOn others seen ∧ more = others.map (·.without loss) ∧
      later = seen.without loss
  /-- The same happens on the way. -/
  happens : ∀ others seen, state.GoesOn others seen → loss.Spared others →
    ∀ visited ∈ others, (visited.without loss).occurrences = visited.occurrences

/-! ## The last share -/

/-- A machine whose last step broke the protocol has done so. -/
theorem Chronicle.exists_of_violated (violated : ((of trace).life machine).Violated) :
    ∃ error, error.isFatal = true ∧ .ended machine (.returned (.fail error)) ∈ trace := by
  obtain ⟨position, error, step, fatal⟩ := violated
  exact ⟨error, fatal, ended_of_step step⟩

/-- Who holds the last share in a machine that keeps the protocol finds it without an observer:
nothing is left that would resume it, or that is resuming it. -/
theorem Custody.unobserved_of_last {ledger : Ledger} {chronicle : Chronicle} {stack : Stack}
    {found : Activation} (custody : Custody ledger chronicle [.share machine] stack)
    (lookup : ledger.activations.get? machine = some found) (last : found.owners ≤ 1)
    (sound : ¬ (chronicle.life machine).Violated) : found.observer = none := by
  obtain ⟨-, owned, accords⟩ := custody.accords_of_lookup lookup
  have share : Holding.amount (.share machine) [Holding.share machine] = 1 := by
    simp [Holding.assets]
  cases status : found.status with
  | idle =>
      simp only [status] at accords
      omega
  | running =>
      simp only [status] at accords
      exact absurd (accords.2.2.2.2 (by omega)) sound
  | finished =>
      simp only [status] at accords
      exact accords.2.2.2.2.2

/-- To give up a share in a machine that keeps the protocol makes an owner less, and does nothing
else. -/
theorem State.next_of_release {chronicle : Chronicle} (order : state.InOrder chronicle)
    (releases : state.control = .task (.discard (.activation machine)))
    (sound : ¬ (chronicle.life machine).Violated) :
    state.next = .replying (state.world.modifyActivation machine fun activation =>
      { activation with owners := activation.owners - 1 }) state.stack .done := by
  obtain ⟨world, stack, control⟩ := state
  subst releases
  have custody : Custody world.ledger chronicle [.share machine] stack := order
  obtain ⟨found, lookup⟩ := custody.exists_of_owned machine (.tail _ (.tail _ (.head _)))
    (by simp [Holding.assets])
  have present : world.activations.get? machine = some found := lookup
  simp only [next, carryingOut, discarding, releasingShare, present]
  by_cases last : found.owners ≤ 1
  · have unobserved := custody.unobserved_of_last lookup last sound
    simp only [last, if_true, unobserved, World.emptied_of_unobserved world present unobserved]
  · simp only [last, if_false]

/-! ## The stain of what is dropped -/

/-- The stain that is left where something is dropped. -/
def Loss.stain : Loss → Stain
  | receipt name => .ofReceipt name
  | handle name machine => .ofHandle name machine

theorem World.without_eq_stained (world : World) (loss : Loss) :
    world.without loss = world.stained loss.stain := by
  cases loss with
  | receipt name =>
      have blank : ¬ (Stain.ofReceipt name).Shows := by simp [Stain.Shows, Stain.ofReceipt]
      simp only [without, stained, Loss.stain, Stain.touch_of_not_shows _ _ blank, Store.modify_id]
      simp [Stain.ofReceipt, Table.without]
  | handle name machine =>
      have touches : (Stain.ofHandle name machine).touch machine =
          fun activation => { activation with owners := activation.owners - 1 } := by
        funext activation
        simp [Stain.touch, Stain.ofHandle]
      simp only [without, stained, modifyActivation, Loss.stain]
      simp [Stain.ofHandle, Table.without, ← touches]

/-- A state without what is dropped has its stain. -/
theorem State.without_eq_stained (state : State) (loss : Loss) :
    state.without loss = state.stained loss.stain := by
  rw [without, stained, World.without_eq_stained]

/-! ## Small steps -/

/-- What has happened leaves what is dropped to whoever needs it: the machine was started, and has
kept the protocol. -/
def Loss.Lives (trace : List Occurrence) : Loss → Prop
  | .receipt _ => True
  | .handle name machine => (Chronicle.of trace).life machine ≠ .unborn ∧
      ∀ occurrence ∈ trace, ¬ (Loss.handle name machine).BrokenBy occurrence

/-- A machine that has never broken the protocol did not do so last. -/
theorem Loss.Lives.keeps (lives : (Loss.handle name machine).Lives trace) :
    ¬ ((Chronicle.of trace).life machine).Violated := by
  intro violated
  obtain ⟨error, fatal, ended⟩ := Chronicle.exists_of_violated violated
  exact lives.2 _ ended (by simp [Loss.BrokenBy, Occurrence.breach?, fatal])

/-- A machine that keeps the protocol goes on to live. -/
theorem Loss.Lives.goesOn {loss : Loss} (lives : loss.Lives (past.flatMap State.occurrences))
    (passes : Passes past state) (goesOn : state.GoesOn more later)
    (sound : ∀ occurrence ∈ more.flatMap State.occurrences, ¬ loss.BrokenBy occurrence) :
    loss.Lives ((past ++ more).flatMap State.occurrences) := by
  cases loss with
  | receipt name => trivial
  | handle name machine =>
      have permitted := (passes.goesOn goesOn).reaches.permitsAll
      rw [List.flatMap_append] at permitted ⊢
      refine ⟨?_, fun occurrence member => ?_⟩
      · rw [Chronicle.of_append]
        exact Chronicle.born_afterAll ((Chronicle.permitsAll_append _ _ _).mp permitted).2 lives.1
      · rcases List.mem_append.mp member with before | after
        · exact lives.2 occurrence before
        · exact sound occurrence after

/-- A receipt that is missing does not show in a small step that does not use it. -/
theorem State.misses_ofReceipt (unnamed : state.receipt? ≠ some name) :
    state.Misses (.ofReceipt name) where
  idle := fun marked => by cases marked
  present := fun shows => by simp [Stain.Shows, Stain.ofReceipt] at shows
  harmless := fun _ _ _ several last => absurd last (Nat.not_le_of_lt several)
  receipt := fun _ uses same => unnamed (uses.trans same.symm)
  handle := fun _ _ same => by cases same

/-- A handle that is missing does not show in a small step that does not use it, as the machine has
kept the protocol. -/
theorem State.misses_ofHandle {chronicle : Chronicle}
    (order : (state.stained (.ofHandle name machine)).InOrder chronicle)
    (born : chronicle.life machine ≠ .unborn) (sound : ¬ (chronicle.life machine).Violated)
    (unnamed : state.handle? ≠ some name) : state.Misses (.ofHandle name machine) where
  idle := fun marked => by cases marked
  present := fun _ running => by
    have present := (order.custody running).lt_size_of_born born
    rwa [← World.size_activations_stained state.world (.ofHandle name machine)]
  harmless := fun releases found lookup _ last => by
    have custody := order.custody (by simp [releases])
    rw [State.control_stained, releases] at custody
    have touched : (state.world.stained (.ofHandle name machine)).activations.get? machine =
        some ((Stain.ofHandle name machine).touch machine found) := by
      rw [World.get?_activations_stained]
      exact congrArg (Option.map _) lookup
    have fewer : found.owners - 1 ≤ 1 := last
    have unobserved := Custody.unobserved_of_last custody touched
      (by simpa [Stain.touch, Stain.ofHandle] using fewer) sound
    simpa using unobserved
  receipt := fun _ _ same => by cases same
  handle := fun _ uses same => unnamed (uses.trans same.symm)

/-- What was dropped does not show in a small step that does not use its name. -/
theorem Loss.Lives.misses {loss : Loss} (lives : loss.Lives (past.flatMap State.occurrences))
    (passes : Passes past (visited.stained loss.stain)) (unnamed : ¬ loss.NamedIn visited) :
    visited.Misses loss.stain := by
  cases loss with
  | receipt name => exact State.misses_ofReceipt unnamed
  | handle name machine =>
      exact State.misses_ofHandle passes.reaches.inOrder lives.1 lives.keeps unnamed

/-! ## Runs -/

namespace Loss

variable {loss : Loss}

/-- What was dropped does not show on the way of a run that spares it. -/
theorem Lives.misses_of_goesOn (lives : loss.Lives (past.flatMap State.occurrences))
    (passes : Passes past (state.stained loss.stain)) (goesOn : state.GoesOn others seen)
    (spared : loss.Spared others) : ∀ visited ∈ others, visited.Misses loss.stain := by
  induction goesOn with
  | here => simp
  | again program _ _ ih => exact ih spared
  | @next others seen goesOn ih =>
      have missed := ih fun visited member => spared visited (List.mem_append_left _ member)
      have comes := goesOn.stained missed
      have still := lives.goesOn passes comes (by
        rw [State.flatMap_occurrences_stained missed]
        intro occurrence member
        obtain ⟨visited, among, happens⟩ := List.mem_flatMap.mp member
        exact (spared visited (List.mem_append_left _ among)).2 occurrence happens)
      have last := still.misses (passes.goesOn comes) (spared seen (by simp)).1
      intro visited member
      rcases List.mem_append.mp member with before | now
      · exact missed visited before
      · rw [List.mem_singleton.mp now]
        exact last

/-- A run that has come to a state without what was dropped goes on as it would with it. -/
theorem Lives.inert (lives : loss.Lives (past.flatMap State.occurrences))
    (passes : Passes past (state.without loss)) : loss.Inert state := by
  rw [State.without_eq_stained] at passes
  refine ⟨?_, ?_, ?_⟩ <;> simp only [State.without_eq_stained]
  · intro others seen goesOn spared
    exact goesOn.stained (lives.misses_of_goesOn passes goesOn spared)
  · intro more later goesOn spared
    refine goesOn.unstained fun visited member => ?_
    obtain ⟨first, rest, rfl, comes⟩ := goesOn.exists_of_mem member
    have still := lives.goesOn passes comes fun occurrence among => by
      obtain ⟨earlier, before, happens⟩ := List.mem_flatMap.mp among
      exact (spared earlier (List.mem_append_left _ before)).2 occurrence happens
    exact still.misses (passes.goesOn comes) (spared _ member).1
  · intro others seen goesOn spared visited member
    exact (lives.misses_of_goesOn passes goesOn spared visited member).occurrences

end Loss

/-- What a receipt, or the handle of a machine that keeps the protocol, gives access to is kept by
others. -/
theorem Loss.Lives.dispensable {loss : Loss} (lives : loss.Lives (past.flatMap State.occurrences))
    (passes : Passes past state) (running : ∀ reason, state.control ≠ .halted reason)
    (held : loss.Held state.world) : loss.Dispensable state := by
  have custody := passes.reaches.inOrder.custody running
  cases loss with
  | receipt name =>
      obtain ⟨receipt, named⟩ := Option.isSome_iff_exists.mp held
      obtain ⟨present, -⟩ := custody.receipts name receipt named
      obtain ⟨found, lookup⟩ := Option.isSome_iff_exists.mp present
      have account := custody.deferreds receipt.deferred
      simp only [Ledger.DeferredAccount, lookup] at account
      obtain ⟨writers, emptied, -⟩ := account
      refine ⟨receipt, found, named, lookup, ?_⟩
      split
      · next complete => exact emptied complete
      · next pending => exact writers.trans (if_neg pending)
  | handle name machine =>
      obtain ⟨found, lookup, -⟩ := custody.exists_of_handle (.named held)
      have account := custody.machines machine
      have present : state.world.ledger.activations.get? machine = some found := lookup
      simp only [Ledger.MachineAccount, present] at account
      obtain ⟨-, -, accords⟩ := account
      refine ⟨found, lookup, ?_⟩
      cases status : found.status with
      | idle =>
          simp only [status] at accords
          exact accords.1
      | running =>
          simp only [status] at accords
          obtain ⟨-, most, -, -, broken⟩ := accords
          have claimed : state.owned (.claim machine) ≠ 0 := fun unclaimed =>
            lives.keeps (broken unclaimed)
          exact Nat.le_antisymm most (Nat.pos_of_ne_zero claimed)
      | finished =>
          simp only [status] at accords
          exact accords.2.2.2.2.2

/-- What happens in a number of small steps is what happens in each state on the way. -/
theorem State.flatMap_visits (state : State) (count : Nat) :
    (state.visits count).flatMap State.occurrences = (state.walk count).1 := by
  induction count generalizing state with
  | zero => rfl
  | succ count ih => rw [visits, List.flatMap_cons, ih, walk]

/-- To drop something takes a few small steps, in which nothing happens. -/
theorem Passes.walk_of_drop {loss : Loss} {rest : Reply → Program} (passes : Passes past state)
    (drops : state.control = .program (.call loss.request rest)) (held : loss.Held state.world)
    (lives : loss.Lives (past.flatMap State.occurrences)) :
    state.walk loss.steps = ([], (state.answered rest).without loss) := by
  have nothing : state.occurrences = [] := by
    cases loss <;> simp [State.occurrences, drops, Loss.request, World.requested]
  cases loss with
  | receipt name =>
      obtain ⟨world, stack, control⟩ := state
      subst drops
      obtain ⟨found, lookup⟩ := Option.isSome_iff_exists.mp held
      have present : world.receipts.find? name = some found := lookup
      simp only [Loss.steps, State.walk, nothing, List.append_nil]
      simp [State.next, State.requesting, Loss.request, State.withReceipt, present,
        State.replying, State.answered, State.without, World.without]
  | handle name machine =>
      have order := passes.next.reaches.inOrder
      have keeps : ¬ ((Chronicle.of ((past ++ [state]).flatMap State.occurrences)).life
          machine).Violated := by simpa [nothing] using lives.keeps
      obtain ⟨world, stack, control⟩ := state
      subst drops
      have present : world.handles.find? name = some machine := held
      have asked : State.next ⟨world, stack, .program (.call (.dropHandle name) rest)⟩ =
          .performing { world with handles := world.handles.erase name } (.program rest :: stack)
            (.discard (.activation machine)) .done := by
        simp [State.next, State.requesting, State.withNamed, present]
      simp only [Loss.request] at order nothing ⊢
      rw [asked] at order
      have released := State.next_of_release order rfl keeps
      simp only [Loss.steps, State.walk, nothing, asked, released]
      rfl

/-- Dropping is inert.  A receipt, or the handle of a machine that has kept the protocol, is not
what keeps the deferred or the machine.  To drop it takes a few small steps in which nothing
happens, and leaves everything as it was but for the name, and for one of the machine's owners.
From there on, runs are those that there would be without the drop, state by state, and the same
happens in them, as long as nothing uses the name and the machine keeps the protocol.  It does not
matter whether the machine is suspended, running or finished, and whether the deferred is pending,
complete or taken. -/
theorem loss_inert {loss : Loss} {rest : Reply → Program} (passes : Passes past state)
    (drops : state.control = .program (.call loss.request rest)) (held : loss.Held state.world)
    (sound : ∀ occurrence ∈ past.flatMap State.occurrences, ¬ loss.BrokenBy occurrence) :
    loss.Dispensable state ∧ state.walk loss.steps = ([], (state.answered rest).without loss) ∧
      loss.Inert (state.answered rest) := by
  have lives : loss.Lives (past.flatMap State.occurrences) := by
    cases loss with
    | receipt name => trivial
    | handle name machine =>
        have custody := passes.reaches.inOrder.custody (by simp [drops])
        obtain ⟨found, lookup, -⟩ := custody.exists_of_handle (.named held)
        exact ⟨custody.born lookup, sound⟩
  have dropped := passes.walk_of_drop drops held lives
  refine ⟨lives.dispensable passes (by simp [drops]) held, dropped, ?_⟩
  have comes := passes.walk loss.steps
  have still := lives.goesOn passes (state.goesOn_walk loss.steps)
    (by simp [State.flatMap_visits, dropped])
  rw [dropped] at comes
  exact still.inert comes

/-- Drop the receipt of a deferred, and complete it. -/
def Program.forgetting : Program :=
  .call (.dropReceipt (.shared "result")) fun _ =>
    .call (.complete (.shared "writer") (.ok .null)) .ret

/-- Start a machine that awaits the deferred, and drop its handle first. -/
def Program.disowning : Program :=
  .call (.pending (.shared "result") false (.shared "writer")) fun _ =>
    .call (.startAwaitable (.shared "machine") (.custom fun
        | .notStarted => .call (.suspend (.shared "result") 0) .ret
        | _ => .ret (.outcome (.ok .null))) .inline (.shared "outcome") false) fun _ =>
      .call (.dropHandle (.shared "machine")) fun _ => .forgetting

/-- The handle of the machine is about to be dropped. -/
def State.disowning : State := ((State.ofProgram .initial .disowning).walk 13).2

/-- The receipt of the deferred is about to be dropped. -/
def State.forgetting : State := ((State.ofProgram .initial .disowning).walk 17).2

/-- The handle of the machine is kept instead. -/
def State.owning : State := State.disowning.answered fun _ => .forgetting

/-- The receipt of the deferred is kept instead. -/
def State.knowing : State :=
  State.forgetting.answered fun _ => .call (.complete (.shared "writer") (.ok .null)) .ret

/-- Without its handle, and without the receipt of what it awaits, the machine is resumed and
finishes as it does with them. -/
theorem loss_inert_disowning :
    (Loss.handle (.shared "machine") 0).Dispensable State.disowning ∧
    (Loss.receipt (.shared "result")).Dispensable State.forgetting ∧
    State.disowning.walk 3 = ([], State.owning.without (.handle (.shared "machine") 0)) ∧
    (State.owning.without (.handle (.shared "machine") 0)).GoesOn
      ((State.owning.visits 23).map (·.without (.handle (.shared "machine") 0)))
      ((State.owning.walk 23).2.without (.handle (.shared "machine") 0)) ∧
    State.forgetting.walk 1 = ([], State.knowing.without (.receipt (.shared "result"))) ∧
    (State.knowing.without (.receipt (.shared "result"))).GoesOn
      ((State.knowing.visits 21).map (·.without (.receipt (.shared "result"))))
      ((State.knowing.walk 21).2.without (.receipt (.shared "result"))) ∧
    (State.owning.walk 23).2.world.isFinished 0 = true ∧
    (State.knowing.walk 21).2.world.isFinished 0 = true := by
  have sound : ∀ occurrence ∈ ((State.ofProgram .initial .disowning).visits 13).flatMap
      State.occurrences, ¬ (Loss.handle (.shared "machine") 0).BrokenBy occurrence := by
    decide +kernel
  obtain ⟨kept, disowned, owned⟩ := @loss_inert State.disowning _ (.handle (.shared "machine") 0) _
    ((Passes.begin .disowning).walk 13) rfl rfl sound
  obtain ⟨written, forgotten, known⟩ := @loss_inert State.forgetting _ (.receipt (.shared "result")) _
    ((Passes.begin .disowning).walk 17) rfl rfl fun _ _ => id
  refine ⟨kept, written, disowned, ?_, forgotten, ?_, by decide +kernel, by decide +kernel⟩
  · exact owned.goesOn _ _ (State.goesOn_walk _ 23) (by decide +kernel)
  · exact known.goesOn _ _ (State.goesOn_walk _ 21) (by decide +kernel)

end Stepwise
