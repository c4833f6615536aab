import TickMachine.Proofs.Deferral
import TickMachine.Proofs.Queue

/-!
# A prompt machine and a patient one

A machine in immediate mode and one in deferred mode are abreast when they differ in nothing but the
mode and the times in their histories, nothing waits in an inbox, and nothing is pending.  Programs
that do not look at the mode leave them abreast.  Where a transition is submitted, the prompt
machine makes it, and the patient one falls behind: it has yet to do the same, and will be abreast
again when it has done so.
-/

namespace TickMachine

variable {β D N α γ : Type}

/-- No hook asks for transitions, except that a state that is to restart asks for a new state of its
own kind and does nothing else. -/
structure Conduct.IsPlain (conduct : Conduct β D N) : Prop where
  quiet (hook : Hook) (behavior : β) (view : View D) :
    hook ≠ .restart → (conduct.react hook behavior view).requests = []
  restart (behavior : β) (view : View D) :
    conduct.react .restart behavior view = .replace behavior view

/-- Histories are equal up to the times of their records. -/
def History.IsLike (history record : History) : Prop :=
  record.limit = history.limit ∧
    record.records.map Passage.course = history.records.map Passage.course

theorem History.IsLike.record
    {history other : History}
    (like : history.IsLike other)
    (source target : Option Kind)
    (subject : Option Serial)
    (now later : Instant) :
    (history.record ⟨source, target, subject, now⟩).IsLike
      (other.record ⟨source, target, subject, later⟩) :=
  (Likeness.timeless.record source target subject now later
    (show Likeness.timeless.same {} history {} other from ⟨rfl, like⟩)).2

/-- Whether a journal entry says that a transition became the pending one. -/
def Entry.isDeferral : Entry β N → Bool
  | .logged (.deferred _ _ _) => true
  | _ => false

/-- A journal without the entries that say that a transition became the pending one. -/
def undeferred (journal : Array (Entry β N)) : List (Entry β N) :=
  journal.toList.filter fun entry => !entry.isDeferral

theorem undeferred_push (journal : Array (Entry β N)) (entry : Entry β N) :
    undeferred (journal.push entry) = undeferred journal ++ undeferred #[entry] := by
  simp only [undeferred, Array.toList_push, List.filter_append]

/-! ## Runs that are abreast -/

/-- The left machine is in immediate mode and the right one in deferred mode.  They differ in
nothing else but the times in their histories, no request waits, and nothing is pending. -/
structure Abreast (left right : Run β D N) : Prop where
  machine : ∃ history, left.machine.history.IsLike history ∧
    right.machine = { left.machine with
      config := { left.machine.config with immediate := false }
      history := history }
  hands : right.hands = left.hands
  journal : undeferred right.journal = undeferred left.journal
  prompt : left.machine.config.immediate = true
  chained : left.machine.config.chainLimit ≠ 0
  empty : left.machine.inbox = []
  free : left.machine.pending = none

namespace Abreast

variable {conduct : Conduct β D N} {left right : Run β D N}

theorem patient (abreast : Abreast left right) : right.machine.config.immediate = false := by
  obtain ⟨_, -, shared⟩ := abreast.machine
  rw [shared]

theorem right_empty (abreast : Abreast left right) : right.machine.inbox = [] := by
  obtain ⟨_, -, shared⟩ := abreast.machine
  rw [shared]
  exact abreast.empty

theorem right_free (abreast : Abreast left right) : right.machine.pending = none := by
  obtain ⟨_, -, shared⟩ := abreast.machine
  rw [shared]
  exact abreast.free

/-- The clocks do not matter. -/
theorem clock
    (abreast : Abreast left right)
    (now later : Instant) :
    Abreast { left with now := now } { right with now := later } :=
  ⟨abreast.machine, abreast.hands, abreast.journal, abreast.prompt, abreast.chained,
    abreast.empty, abreast.free⟩

/-- Callers do the same to the states in their hands. -/
theorem mapHands
    (abreast : Abreast left right)
    (change : Hands β → Hands β) :
    Abreast { left with hands := change left.hands } { right with hands := change right.hands } :=
  ⟨abreast.machine, congrArg change abreast.hands, abreast.journal, abreast.prompt, abreast.chained,
    abreast.empty, abreast.free⟩

/-- Runs that are abreast are bound. -/
theorem bond : Bond (Abreast : Run β D N → Run β D N → Prop) where
  shown {left _} abreast := by
    obtain ⟨history, -, shared⟩ := abreast.machine
    exact ⟨_, history, left.machine.inbox, left.machine.pending, shared⟩
  hands abreast := abreast.hands
  write entry abreast := by
    refine ⟨abreast.machine, abreast.hands, ?_, abreast.prompt, abreast.chained, abreast.empty,
      abreast.free⟩
    rw [Run.write_journal, Run.write_journal, undeferred_push, undeferred_push, abreast.journal]
  change {left right} change isLocal abreast := by
    obtain ⟨history, like, shared⟩ := abreast.machine
    obtain ⟨config, past, inbox, pending⟩ := isLocal.frame left.machine
    refine ⟨⟨history, ?_, ?_⟩, abreast.hands, abreast.journal, ?_, ?_, ?_, ?_⟩
    · rw [Run.mapMachine_machine, past]
      exact like
    · rw [Run.mapMachine_machine, Run.mapMachine_machine, shared, config]
      exact isLocal.exchange left.machine _ history
    · rw [Run.mapMachine_machine, config]
      exact abreast.prompt
    · rw [Run.mapMachine_machine, config]
      exact abreast.chained
    · rw [Run.mapMachine_machine, inbox]
      exact abreast.empty
    · rw [Run.mapMachine_machine, pending]
      exact abreast.free
  recorded {left right} source target subject abreast := by
    obtain ⟨history, like, shared⟩ := abreast.machine
    refine ⟨⟨_, like.record source target subject left.now right.now, ?_⟩, abreast.hands,
      abreast.journal, abreast.prompt, abreast.chained, abreast.empty, abreast.free⟩
    rw [Run.recorded, Run.mapMachine_machine, shared]
    rfl

/-- Hooks that ask for nothing leave runs abreast. -/
theorem spared
    (plain : conduct.IsPlain)
    (hook : Hook)
    (other : hook ≠ .restart) :
    Spared conduct Abreast hook := by
  intro left right subject abreast
  have reaction : right.reaction conduct hook subject = left.reaction conduct hook subject :=
    bond.reaction abreast hook subject
  have quiet : (left.reaction conduct hook subject).requests = [] :=
    plain.quiet hook subject.behavior (left.view subject) other
  obtain ⟨history, like, shared⟩ := abreast.machine
  have inbox : left.machine.inbox ++ left.asked conduct hook subject = [] := by
    rw [abreast.empty, Run.asked, quiet]
    rfl
  refine ⟨⟨history, like, ?_⟩, ?_, ?_, abreast.prompt, abreast.chained, inbox, abreast.free⟩
  · rw [Run.reacted, Run.reacted, Run.asked, Run.asked, reaction, abreast.hands, shared]
  · rw [Run.reacted, Run.reacted, reaction, abreast.hands]
  · rw [Run.reacted, Run.reacted, reaction]
    have journal := abreast.journal
    simp only [undeferred, Array.toList_appendList, Array.toList_push, List.filter_append]
      at journal ⊢
    rw [journal]

theorem spared_exit (plain : conduct.IsPlain) : Spared conduct Abreast .exit :=
  spared plain .exit nofun

end Abreast

/-- The patient machine has yet to make the transition that is pending, and will be abreast of the
prompt one when it has done so. -/
structure Behind
    (conduct : Conduct β D N)
    (transition : Transition β)
    (left right : Run β D N) : Prop where
  pending : right.machine.pending = some transition
  empty : right.machine.inbox = []
  catches (now : Instant) :
    ∃ after, Abreast left after ∧
      Kernel.carryOut conduct transition
        (Run.mapMachine { right with now := now } fun machine =>
          { machine with pending := none }) = .ok () after

/-- The clocks do not matter. -/
theorem Behind.clock
    {conduct : Conduct β D N}
    {transition : Transition β}
    {left right : Run β D N}
    (behind : Behind conduct transition left right)
    (now later : Instant) :
    Behind conduct transition { left with now := now } { right with now := later } where
  pending := behind.pending
  empty := behind.empty
  catches again := by
    obtain ⟨after, abreast, carried⟩ := behind.catches again
    exact ⟨after, abreast.clock now after.now, carried⟩

/-- The prompt machine breaks off, or both machines come to the same and are abreast, or else the
prompt machine has made a transition that the patient one has deferred, and their answers depend on
this outcome in the same way. -/
inductive Delay (conduct : Conduct β D N) (answer : Outcome → α) :
    EStateM.Result Interruption (Run β D N) α →
      EStateM.Result Interruption (Run β D N) α → Prop where
  | broken (message : String) (run : Run β D N)
      (other : EStateM.Result Interruption (Run β D N) α) :
      Delay conduct answer (.error (.brokenOff message) run) other
  | abreast {first second : EStateM.Result Interruption (Run β D N) α}
      (ends : Ends Abreast first second) :
      Delay conduct answer first second
  | behind (transition : Transition β) {left right : Run β D N}
      (behind : Behind conduct transition left right) :
      Delay conduct answer
        (.ok (answer (.applied transition.kind transition.serial)) left)
        (.ok (answer (.deferred transition.kind transition.serial none)) right)

namespace Delay

variable {conduct : Conduct β D N} {answer : Outcome → α} {left right : Run β D N}

/-- Programs that go on where both machines are abreast. -/
theorem bind
    {start finish : Kernel β D N γ}
    {next rest : γ → Kernel β D N α}
    (abreast : Abreast left right)
    (parallel : Parallel Abreast start finish)
    (continue_ : ∀ value {left right : Run β D N}, Abreast left right →
      Delay conduct answer (next value left) (rest value right)) :
    Delay conduct answer ((start >>= next) left) ((finish >>= rest) right) := by
  have ends := parallel abreast
  rw [Kernel.bind_apply, Kernel.bind_apply]
  generalize start left = ended, finish right = other at ends ⊢
  cases ends with
  | ok value together => exact continue_ value together
  | error cause together => exact .abreast (.error cause together)

theorem map
    {first second : Kernel β D N α}
    (delay : Delay conduct answer (first left) (second right))
    (change : α → γ) :
    Delay conduct (change ∘ answer) ((change <$> first) left) ((change <$> second) right) := by
  rw [map_eq_pure_bind, map_eq_pure_bind, Kernel.bind_apply, Kernel.bind_apply]
  generalize first left = ended, second right = other at delay ⊢
  cases delay with
  | broken message run other => exact .broken message run _
  | abreast ends =>
      cases ends with
      | ok value together => exact .abreast (.ok (change value) together)
      | error cause together => exact .abreast (.error cause together)
  | behind transition behind => exact .behind transition behind

end Delay

/-! ## Own work of calls -/

namespace Abreast

variable {conduct : Conduct β D N} {left right : Run β D N}

/-- The entry for a transition that is pending is all that is left of it when it is taken out of the
machine. -/
theorem waiting
    (abreast : Abreast left right)
    (transition : Transition β)
    (now : Instant) :
    let deferred := (right.mapMachine fun machine =>
      { machine with pending := some transition }).write
        (.logged (.deferred transition.kind (right.machine.shownName transition.kind)
          transition.serial))
    Abreast left (Run.mapMachine { deferred with now := now } fun machine =>
      { machine with pending := none }) := by
  refine ⟨?_, abreast.hands, ?_, abreast.prompt, abreast.chained, abreast.empty, abreast.free⟩
  · obtain ⟨history, like, shared⟩ := abreast.machine
    refine ⟨history, like, ?_⟩
    dsimp only [Run.mapMachine, Run.write]
    rw [shared, ← abreast.free]
  · dsimp only [Run.mapMachine, Run.write]
    rw [undeferred_push, abreast.journal]
    exact List.append_nil _

/-- A transition that is submitted is made by the prompt machine and deferred by the patient one. -/
theorem submit
    (plain : conduct.IsPlain)
    (abreast : Abreast left right)
    (transition : Transition β)
    {answer : Outcome → α}
    {next rest : Outcome → Kernel β D N α}
    (goesOn : ∀ outcome (run : Run β D N), run.machine.inbox = [] →
      next outcome run = .ok (answer outcome) run)
    (goesOnToo : ∀ outcome (run : Run β D N), run.machine.inbox = [] →
      rest outcome run = .ok (answer outcome) run) :
    Delay conduct answer ((Kernel.submit conduct transition >>= next) left)
      ((Kernel.submit conduct transition >>= rest) right) := by
  have carries := bond.carryOut transition (spared_exit plain) (spared plain .enter nofun)
  rw [Kernel.bind_apply, Kernel.bind_apply,
    Kernel.submit_apply_immediate conduct transition left abreast.prompt,
    Kernel.submit_apply_deferred conduct transition right abreast.patient]
  cases carried : Kernel.carryOut conduct transition left with
  | error cause after =>
      cases cause with
      | refused refusal => exact (Kernel.carryOut_willing conduct transition carried).elim
      | brokenOff message => exact .broken message after _
  | ok value after =>
      obtain ⟨undiscarded, deferred⟩ := right.deferred_of_free transition abreast.right_free
      have behind : Behind conduct transition after (right.deferred transition) := by
        rw [deferred]
        refine ⟨rfl, abreast.right_empty, fun now => ?_⟩
        -- Without the pending transition, the patient machine is where the prompt one started from.
        have ends := carries (abreast.waiting transition now)
        rw [carried] at ends
        generalize carriedToo : Kernel.carryOut conduct transition _ = other at ends ⊢
        cases ends with
        | ok value together => exact ⟨_, together, rfl⟩
      obtain ⟨_, caught, -⟩ := behind.catches .epoch
      dsimp only
      rw [goesOn _ after caught.empty, goesOnToo _ _ behind.empty, undiscarded]
      exact .behind transition behind

/-! ### Serving -/

theorem serveHooks_pure
    {run : Run β D N}
    (empty : run.machine.inbox = [])
    (value : α) :
    (do Kernel.serveHooks conduct; pure value) run = .ok value run := by
  rw [Kernel.bind_apply, Kernel.serveHooks_apply_empty conduct run empty]
  rfl

/-- With empty inboxes there is nothing to serve in either machine. -/
theorem serveHooks : Parallel Abreast (Kernel.serveHooks conduct) (Kernel.serveHooks conduct) := by
  intro left right abreast
  rw [Kernel.serveHooks_apply_empty conduct left abreast.empty,
    Kernel.serveHooks_apply_empty conduct right abreast.right_empty]
  exact .ok () abreast

/-- Where a request is all that waits, it is served. -/
theorem serveHooks_enqueued
    (conduct : Conduct β D N)
    (run : Run β D N)
    (request : Request β)
    (budget : Nat)
    (empty : run.machine.inbox = [])
    (enough : Kernel.chainBudget (run.enqueue request).machine = budget + 1) :
    Kernel.serveHooks conduct (run.enqueue request) =
      (do
        let transition ← Kernel.orMend (Kernel.takeUp .hook request) Kernel.emptied
        let _ ← Kernel.submit conduct transition
        Kernel.serveWithin conduct budget) run := by
  have inbox : (run.enqueue request).machine.inbox = [request] := by
    rw [Run.enqueue, Run.mapMachine_machine, empty]
    rfl
  have drawn : (run.enqueue request).mapMachine (fun machine => { machine with inbox := [] }) =
      run := by
    rw [← empty]
    rfl
  rw [Kernel.serveHooks, Kernel.bind_apply, Kernel.machine_apply]
  dsimp only
  rw [enough, Kernel.serveWithin, Kernel.bind_apply, Kernel.nextRequest_apply, inbox]
  dsimp only
  rw [drawn, Kernel.serveAsked]
  simp only [bind_assoc, pure_bind]

/-- A request is taken up in the same way, and where it is refused, nothing waits that could be
lost. -/
theorem takeUp (origin : Origin) (request : Request β) :
    Parallel Abreast (Kernel.takeUp origin request : Kernel β D N (Transition β))
      (Kernel.takeUp origin request) :=
  bond.takeUp origin origin request fun _ _ abreast => .ok () (bond.write _ abreast)

theorem mended (abreast : Abreast left right) :
    Abreast (left.mapMachine Kernel.emptied) (right.mapMachine Kernel.emptied) := by
  obtain ⟨history, like, shared⟩ := abreast.machine
  refine ⟨⟨history, like, ?_⟩, abreast.hands, abreast.journal, abreast.prompt, abreast.chained, rfl,
    abreast.free⟩
  rw [Run.mapMachine_machine, shared]
  rfl

/-- Both machines take up the same request of a hook, or refuse it for the same reason. -/
theorem takeUpAsked (request : Request β) :
    Parallel Abreast
      (Kernel.orMend (Kernel.takeUp .hook request) Kernel.emptied : Kernel β D N (Transition β))
      (Kernel.orMend (Kernel.takeUp .hook request) Kernel.emptied) :=
  (takeUp .hook request).orMend fun _ _ abreast => abreast.mended

/-! ### Calls -/

/-- A requested transition is made by the prompt machine and deferred by the patient one. -/
theorem switchOwn
    (plain : conduct.IsPlain)
    (abreast : Abreast left right)
    (wanted : Request β) :
    Delay conduct id (Kernel.switchOwn conduct wanted left)
      (Kernel.switchOwn conduct wanted right) := by
  exact .bind abreast (takeUp .caller wanted) fun transition _ _ abreast =>
    submit plain abreast transition (fun outcome _ empty => serveHooks_pure empty outcome)
      (fun outcome _ empty => serveHooks_pure empty outcome)

/-- Where a state is found again, it leaves its place, which is not the pending transition. -/
theorem retrieved
    (abreast : Abreast left right)
    {serial : Serial}
    {below : List Serial}
    {transition : Transition β}
    {rest : Machine β D}
    (retrieved : { left.machine with stack := below }.retrieve serial = some (transition, rest)) :
    ∃ parked, rest = { left.machine with stack := below, parked := parked } := by
  obtain ⟨_, _, _, rfl⟩ | ⟨_, _, _, _, _, rfl⟩ | ⟨_, _, waiting, _, _⟩ :=
    Machine.retrieve_cases retrieved
  · exact ⟨_, rfl⟩
  · exact ⟨left.machine.parked, rfl⟩
  · exact absurd (waiting.symm.trans abreast.free) nofun

/-- A pop leads both machines back to the same state: the prompt one at once, the patient one
later. -/
theorem popOwn
    (plain : conduct.IsPlain)
    (abreast : Abreast left right) :
    Delay conduct some (Kernel.popOwn conduct left) (Kernel.popOwn conduct right) := by
  obtain ⟨history, like, shared⟩ := abreast.machine
  have stack : right.machine.stack = left.machine.stack := by rw [shared]
  rw [Kernel.popOwn_apply, Kernel.popOwn_apply, stack]
  cases left.machine.stack with
  | nil => exact .abreast (.ok none (bond.write _ abreast))
  | cons serial below =>
      have found : Machine.retrieve { right.machine with stack := below } serial =
          (Machine.retrieve { left.machine with stack := below } serial).map fun found =>
            (found.1, { found.2 with
              config := { left.machine.config with immediate := false }
              history := history }) := by
        rw [shared]
        exact Machine.retrieve_alike { left.machine with stack := below } _ history serial
      dsimp only
      rw [found]
      cases retrieved : Machine.retrieve { left.machine with stack := below } serial with
      | none =>
          exact .abreast (.error _ (bond.change _ (fun _ _ _ _ _ => rfl) abreast))
      | some entry =>
          obtain ⟨transition, rest⟩ := entry
          obtain ⟨parked, rfl⟩ := abreast.retrieved retrieved
          have moved := bond.change
            (fun machine => { machine with stack := below, parked := parked })
            (fun _ _ _ _ _ => rfl) abreast
          have popped := bond.write (.logged (.popped serial below.length)) moved
          rw [Run.mapMachine, Run.mapMachine, shared] at popped
          exact submit plain popped transition
            (fun outcome _ empty => serveHooks_pure empty (some outcome))
            (fun outcome _ empty => serveHooks_pure empty (some outcome))

/-- A state that is to restart only asks for a new state of its kind. -/
theorem called_restart
    (plain : conduct.IsPlain)
    (run : Run β D N)
    (subject : Instance β)
    (present : run.machine.current = some subject) :
    Kernel.callCurrent conduct .restart run =
      .ok () ((run.write (.called .restart subject.kind subject.serial)).enqueue
        (.fresh subject.kind)) := by
  have reaction : run.reaction conduct .restart subject =
      .replace subject.behavior (run.view subject) :=
    plain.restart subject.behavior (run.view subject)
  rw [Kernel.callCurrent_apply_some conduct .restart run subject present, Run.hooked, Run.reacted,
    Run.settled, Run.asked, reaction]
  simp [Reaction.replace, Reaction.idle, Hands.claim, Kernel.ended, Run.withCurrent, Run.enqueue,
    Run.mapMachine, Run.write, Run.view, present]

/-- A restart asks for a new state in both machines, which only the prompt one enters at once. -/
theorem restartOwn
    (plain : conduct.IsPlain)
    (abreast : Abreast left right) :
    Delay conduct (fun _ => ()) (Kernel.restartOwn conduct left)
      (Kernel.restartOwn conduct right) := by
  have current := bond.current abreast
  rw [Kernel.restartOwn, Kernel.bind_apply, Kernel.bind_apply, Kernel.machine_apply,
    Kernel.machine_apply]
  dsimp only
  rw [current]
  cases present : left.machine.current with
  | none => exact .abreast (.ok () (bond.write _ abreast))
  | some subject =>
      have called := bond.write (.called .restart subject.kind subject.serial) abreast
      -- The prompt machine may serve as many requests as the chain limit says, the patient one only
      -- those that wait.  Both may serve the one request that the state makes.
      obtain ⟨budget, enough⟩ : ∃ budget, left.machine.config.chainLimit.toNat = budget + 1 := by
        refine Nat.exists_eq_succ_of_ne_zero fun zero => abreast.chained ?_
        exact UInt64.toNat_inj.mp zero
      have idle (budget : Nat) (outcome : Outcome) (run : Run β D N)
          (empty : run.machine.inbox = []) :
          Kernel.serveWithin conduct budget run = .ok ((fun _ => ()) outcome) run :=
        Kernel.serveWithin_apply_empty conduct budget run empty
      have enoughLeft : Kernel.chainBudget ((left.write (.called .restart subject.kind
          subject.serial)).enqueue (.fresh subject.kind)).machine = budget + 1 :=
        (if_pos abreast.prompt).trans enough
      have enoughRight : Kernel.chainBudget ((right.write (.called .restart subject.kind
          subject.serial)).enqueue (.fresh subject.kind)).machine = 0 + 1 := by
        refine (if_neg (ne_true_of_eq_false abreast.patient)).trans ?_
        change (right.machine.inbox ++ [_]).length = 1
        rw [abreast.right_empty]
        rfl
      dsimp only
      rw [Kernel.bind_apply, Kernel.bind_apply, called_restart plain left subject present,
        called_restart plain right subject (current.trans present)]
      dsimp only
      rw [serveHooks_enqueued conduct _ _ budget called.empty enoughLeft,
        serveHooks_enqueued conduct _ _ 0 called.right_empty enoughRight]
      exact .bind called (takeUpAsked (.fresh subject.kind)) fun transition _ _ abreast =>
        submit plain abreast transition (idle budget) (idle 0)

/-- A shutdown to a shutdown state is a requested transition; one without is done by both machines
at once. -/
theorem shutdownOwn
    (plain : conduct.IsPlain)
    (abreast : Abreast left right) :
    Delay conduct some (Kernel.shutdownOwn conduct left) (Kernel.shutdownOwn conduct right) := by
  obtain ⟨history, like, shared⟩ := abreast.machine
  have goal : right.machine.config.shutdown = left.machine.config.shutdown := by rw [shared]
  have name (kind : Kind) : right.machine.shownName kind = left.machine.shownName kind := by
    rw [shared]
    rfl
  cases terminal : left.machine.config.shutdown with
  | none =>
      rw [Kernel.shutdownOwn, Kernel.bind_apply, Kernel.bind_apply, Kernel.machine_apply,
        Kernel.machine_apply]
      dsimp only
      rw [goal, terminal]
      have dropped :
          Parallel Abreast (Kernel.dropPending : Kernel β D N Unit) Kernel.dropPending := by
        intro left right abreast
        rw [Kernel.dropPending_apply, Kernel.dropPending_apply, Run.pendingDropped,
          Run.pendingDropped, abreast.free, abreast.right_free]
        exact .ok () abreast
      exact .abreast ((Parallel.bind dropped fun _ =>
        .bind (bond.exitForGood (spared_exit plain)) fun _ =>
          .bind serveHooks fun _ => .pure none) abreast)
  | some kind =>
      have announced :=
        bond.write (.logged (.shuttingDown kind (left.machine.shownName kind))) abreast
      rw [Kernel.shutdownOwn_apply_some conduct terminal abreast.empty,
        Kernel.shutdownOwn_apply_some conduct (goal.trans terminal) abreast.right_empty,
        Run.announced, Run.announced, name]
      exact (switchOwn plain announced (.fresh kind)).map some

end Abreast

/-! ## Ticks -/

theorem carryOutPending_apply_free
    (conduct : Conduct β D N)
    (run : Run β D N)
    (free : run.machine.pending = none) :
    Kernel.carryOutPending conduct run = .ok () run := by
  rw [Kernel.carryOutPending, Kernel.bind_apply, Kernel.takePending_apply,
    Kernel.mapMachine_free run free, free]
  rfl

/-- What a tick does when the pending transition has been made. -/
theorem Abreast.tickRest
    {conduct : Conduct β D N}
    (plain : conduct.IsPlain)
    (delta : Single) :
    Parallel Abreast (do Kernel.tickCurrent conduct delta; Kernel.serveHooks conduct)
      (do Kernel.tickCurrent conduct delta; Kernel.serveHooks conduct) :=
  .bind (bond.tickCurrent delta (spared plain (.tick delta) nofun)) fun _ => serveHooks

/-- A tick with nothing pending is a call of the tick hook and no more. -/
theorem Abreast.tickOwn
    {conduct : Conduct β D N}
    {left right : Run β D N}
    (plain : conduct.IsPlain)
    (abreast : Abreast left right)
    (delta : Single) :
    Ends Abreast (Kernel.tickOwn conduct delta left) (Kernel.tickOwn conduct delta right) := by
  rw [Kernel.tickOwn, Kernel.bind_apply, Kernel.bind_apply,
    carryOutPending_apply_free conduct left abreast.free,
    carryOutPending_apply_free conduct right abreast.right_free]
  exact tickRest plain delta abreast

/-- A patient machine that is behind is abreast again after a tick. -/
theorem Behind.tickOwn
    {conduct : Conduct β D N}
    {left right : Run β D N}
    {transition : Transition β}
    (plain : conduct.IsPlain)
    (behind : Behind conduct transition left right)
    (delta : Single) :
    Ends Abreast (Kernel.tickOwn conduct delta left) (Kernel.tickOwn conduct delta right) := by
  obtain ⟨after, abreast, carried⟩ := behind.catches right.now
  have caught : Kernel.carryOutPending conduct right = .ok () after := by
    rw [Kernel.carryOutPending, Kernel.bind_apply, Kernel.takePending_apply, behind.pending]
    dsimp only
    rw [Kernel.bind_apply, carried]
    exact Kernel.serveHooks_apply_empty conduct after abreast.right_empty
  rw [Kernel.tickOwn, Kernel.bind_apply, Kernel.bind_apply,
    carryOutPending_apply_free conduct left abreast.free, caught]
  exact Abreast.tickRest plain delta abreast

end TickMachine
