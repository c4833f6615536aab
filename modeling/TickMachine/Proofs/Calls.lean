import TickMachine.Proofs.Inbox

/-!
# Calls and their own work

Most calls of a machine begin by serving what was posted through handles.  What they do after that
is their own work.  When the inbox is empty, a call does its own work only, and it leaves the inbox
empty again.
-/

namespace TickMachine

variable {β D N α γ : Type}

/-- The calls that serve what was posted through handles before their own work. -/
inductive Call (β : Type) where
  /-- Request a transition. -/
  | switchTo (wanted : Request β)
  /-- Let time pass.  The time step is a number that is not negative. -/
  | tick (delta : Single) (valid : (delta.isNaN || delta.isNegative) = false)
  /-- Come back to the state that was pushed last. -/
  | pop
  /-- Ask the current state to have itself replaced. -/
  | restart
  /-- Enter the shutdown state, or leave the current state for good. -/
  | shutdown

/-- Puts a state on the stack. -/
def Run.pushed (run : Run β D N) (subject : Instance β) : Run β D N :=
  (run.mapMachine fun machine => { machine with stack := subject.serial :: machine.stack }).write
    (.logged (.pushed subject.serial (run.machine.stack.length + 1)))

/-- Announces that a shutdown asks for the shutdown state. -/
def Run.announced (run : Run β D N) (kind : Kind) : Run β D N :=
  run.write (.logged (.shuttingDown kind (run.machine.shownName kind)))

namespace Kernel

variable (conduct : Conduct β D N)

/-- What a requested transition is when nothing was posted through handles. -/
def switchOwn (wanted : Request β) : Kernel β D N Outcome := do
  let transition ← takeUp .caller wanted
  let outcome ← submit conduct transition
  serveHooks conduct
  pure outcome

/-- The own work of a tick. -/
def tickOwn (delta : Single) : Kernel β D N Unit := do
  carryOutPending conduct
  tickCurrent conduct delta
  serveHooks conduct

/-- The own work of coming back to a state. -/
def popOwn : Kernel β D N (Option Outcome) := do
  match (← machine).stack with
  | [] =>
      log .popIgnored
      pure none
  | serial :: below =>
      changeMachine fun machine => { machine with stack := below }
      match (← machine).retrieve serial with
      | none => refuse (.lost serial)
      | some (transition, rest) =>
          changeMachine fun _ => rest
          log (.popped serial below.length)
          let outcome ← submit conduct transition
          serveHooks conduct
          pure (some outcome)

/-- The own work of a restart. -/
def restartOwn : Kernel β D N Unit := do
  match (← machine).current with
  | none => log .restartIgnored
  | some _ =>
      callCurrent conduct .restart
      serveHooks conduct

/-- The own work of a shutdown. -/
def shutdownOwn : Kernel β D N (Option Outcome) := do
  let before ← machine
  match before.config.shutdown with
  | some kind =>
      log (.shuttingDown kind (before.shownName kind))
      let outcome ← switchTo conduct (.fresh kind)
      pure (some outcome)
  | none =>
      dropPending
      exitForGood conduct
      serveHooks conduct
      pure none

/-- A tick serves what was posted through handles and then does its own work. -/
theorem tick_eq
    (delta : Single)
    (valid : (delta.isNaN || delta.isNegative) = false) :
    tick conduct delta = (do serveHandles conduct; tickOwn conduct delta) := by
  rw [tick, valid]
  rfl

/-- A tick with a bad time step is refused at once. -/
theorem tick_of_bad
    {delta : Single}
    (run : Run β D N)
    (bad : delta.isNaN = true ∨ delta.isNegative = true) :
    tick conduct delta run = .error (.refused (.badDelta delta)) run := by
  rw [tick, if_pos (Bool.or_eq_true _ _ ▸ bad)]
  rfl

theorem tickCurrent_apply_none
    {run : Run β D N}
    (delta : Single)
    (absent : run.machine.current = none) :
    tickCurrent conduct delta run = .ok () run := by
  rw [tickCurrent, bind_apply, machine_apply]
  dsimp only
  rw [absent]
  rfl

/-- A paused state is passed over, and any other one is ticked. -/
theorem tickCurrent_apply_some
    {run : Run β D N}
    {subject : Instance β}
    (delta : Single)
    (present : run.machine.current = some subject) :
    tickCurrent conduct delta run =
      if subject.paused then .ok () (run.write (.logged (.tickSkipped subject.serial)))
      else
        ended (run.reaction conduct (.tick delta) subject).breakdown ()
          (run.hooked conduct (.tick delta) subject) := by
  rw [tickCurrent, bind_apply, machine_apply]
  dsimp only
  rw [present]
  dsimp only
  split
  · rfl
  · exact callCurrent_apply_some conduct (.tick delta) run subject present

/-- A requested transition comes after the posted requests, and only if they are all served. -/
theorem switchTo_apply (wanted : Request β) (run : Run β D N) :
    switchTo conduct wanted run =
      match serveInOrder conduct run.machine.inbox (run.mapMachine emptied) with
      | .ok _ middle => switchOwn conduct wanted middle
      | .error cause after => .error cause after := by
  have parts : switchTo conduct wanted = (do serveHandles conduct; switchOwn conduct wanted) := rfl
  rw [parts, bind_apply, serveHandles_apply]
  cases serveInOrder conduct run.machine.inbox (run.mapMachine emptied) <;> rfl

theorem switchTo_apply_empty
    (wanted : Request β)
    (run : Run β D N)
    (empty : run.machine.inbox = []) :
    switchTo conduct wanted run = switchOwn conduct wanted run := by
  have served := serveHandles_apply_empty conduct run empty
  rw [serveHandles_apply] at served
  rw [switchTo_apply, served]

theorem pushCurrent_apply (run : Run β D N) :
    pushCurrent run =
      match run.machine.current with
      | none => .error (.refused .nothingCurrent) run
      | some subject => .ok subject.serial (run.pushed subject) := by
  rw [pushCurrent, bind_apply, machine_apply]
  dsimp only
  cases run.machine.current <;> rfl

theorem push_apply (run : Run β D N) :
    push run =
      match run.machine.current with
      | none => .ok false (run.write (.logged (.pushIgnored .nothingCurrent)))
      | some subject => .ok true (run.pushed subject) := by
  rw [push, bind_apply, machine_apply]
  dsimp only
  cases present : run.machine.current with
  | none => rfl
  | some subject =>
      dsimp only
      rw [bind_apply, pushCurrent_apply, present]
      rfl

theorem popOwn_apply (run : Run β D N) :
    popOwn conduct run =
      match run.machine.stack with
      | [] => .ok none (run.write (.logged .popIgnored))
      | serial :: below =>
          match { run.machine with stack := below }.retrieve serial with
          | none =>
              .error (.refused (.lost serial))
                (run.mapMachine fun machine => { machine with stack := below })
          | some (transition, rest) =>
              (do
                let outcome ← submit conduct transition
                serveHooks conduct
                pure (some outcome))
              (Run.write { run with machine := rest } (.logged (.popped serial below.length))) := by
  rw [popOwn, bind_apply, machine_apply]
  dsimp only
  cases run.machine.stack with
  | nil => rfl
  | cons serial below =>
      dsimp only
      rw [bind_apply, changeMachine_apply]
      dsimp only
      rw [bind_apply, machine_apply]
      dsimp only [Run.mapMachine]
      cases { run.machine with stack := below }.retrieve serial <;> rfl

/-- The own work of a shutdown with a shutdown state is a request for it. -/
theorem shutdownOwn_apply_some
    {run : Run β D N}
    {kind : Kind}
    (terminal : run.machine.config.shutdown = some kind)
    (empty : run.machine.inbox = []) :
    shutdownOwn conduct run =
      (some <$> switchOwn conduct (.fresh kind)) (run.announced kind) := by
  have direct := switchTo_apply_empty conduct (.fresh kind) (run.announced kind) empty
  rw [shutdownOwn, bind_apply, machine_apply]
  dsimp only
  rw [terminal]
  dsimp only
  rw [bind_apply, log_apply]
  dsimp only
  rw [← bind_pure_comp, bind_apply, bind_apply, ← direct]
  rfl

end Kernel

namespace Call

/-- Makes a call. -/
def perform (conduct : Conduct β D N) : Call β → Kernel β D N Reply
  | .switchTo wanted => Reply.outcome <$> Kernel.switchTo conduct wanted
  | .tick delta _ => do
      Kernel.tick conduct delta
      pure .done
  | .pop => Reply.ofOutcome <$> Kernel.pop conduct
  | .restart => do
      Kernel.restart conduct
      pure .done
  | .shutdown => Reply.ofOutcome <$> Kernel.shutdown conduct

/-- The own work of a call. -/
def work (conduct : Conduct β D N) : Call β → Kernel β D N Reply
  | .switchTo wanted => Reply.outcome <$> Kernel.switchOwn conduct wanted
  | .tick delta _ => do
      Kernel.tickOwn conduct delta
      pure .done
  | .pop => Reply.ofOutcome <$> Kernel.popOwn conduct
  | .restart => do
      Kernel.restartOwn conduct
      pure .done
  | .shutdown => Reply.ofOutcome <$> Kernel.shutdownOwn conduct

/-- Every call serves the posted requests first and does its own work then. -/
theorem perform_eq (conduct : Conduct β D N) (call : Call β) :
    call.perform conduct = (do Kernel.serveHandles conduct; call.work conduct) := by
  cases call with
  | switchTo wanted => exact map_bind _ _ _
  | tick delta valid =>
      rw [perform, Kernel.tick_eq conduct delta valid]
      exact bind_assoc _ _ _
  | pop => exact map_bind _ _ _
  | restart => exact bind_assoc _ _ _
  | shutdown => exact map_bind _ _ _

/-- Every call is refused when a posted request is. -/
theorem perform_apply
    (conduct : Conduct β D N)
    (call : Call β)
    (run : Run β D N) :
    call.perform conduct run =
      match Kernel.serveInOrder conduct run.machine.inbox (run.mapMachine Kernel.emptied) with
      | .ok _ middle => call.work conduct middle
      | .error cause after => .error cause after := by
  rw [perform_eq, Kernel.bind_apply, Kernel.serveHandles_apply]
  cases Kernel.serveInOrder conduct run.machine.inbox (run.mapMachine Kernel.emptied) <;> rfl

end Call

/-! ## What calls leave in the inbox -/

/-- Nothing waits in the inbox at the end of a program, unless a hook broke off. -/
def Tidied : EStateM.Result Interruption (Run β D N) α → Prop
  | .ok _ after => after.machine.inbox = []
  | .error (.refused _) after => after.machine.inbox = []
  | .error (.brokenOff _) _ => True

namespace Tidied

variable {program : Kernel β D N α} {next : α → Kernel β D N γ} {run : Run β D N}

theorem bind
    (refused : ∀ refusal after,
      program run = .error (.refused refusal) after → after.machine.inbox = [])
    (goes : ∀ value after, program run = .ok value after → Tidied (next value after)) :
    Tidied ((program >>= next) run) := by
  rw [Kernel.bind_apply]
  cases ends : program run with
  | ok value after => exact goes value after ends
  | error cause after =>
      cases cause with
      | refused refusal => exact refused refusal after ends
      | brokenOff message => trivial

/-- A program that is never refused can come before one that tidies up. -/
theorem bind_willing
    (willing : Willing program)
    (goes : ∀ value after, Tidied (next value after)) :
    Tidied ((program >>= next) run) :=
  bind (fun _ _ refused => (willing refused).elim) fun value after _ => goes value after

/-- A program that starts with a look at the machine. -/
theorem machine
    {next : Machine β D → Kernel β D N α}
    (tidied : Tidied (next run.machine run)) :
    Tidied ((Kernel.machine >>= next) run) :=
  tidied

/-- The value of a program does not matter to what it leaves. -/
theorem map
    (tidied : Tidied (program run))
    (change : α → γ) :
    Tidied ((change <$> program) run) := by
  rw [← bind_pure_comp]
  refine bind (fun refusal after ends => ?_) fun value after ends => ?_
  · rw [ends] at tidied
    exact tidied
  · rw [ends] at tidied
    exact tidied

end Tidied

namespace Kernel

variable (conduct : Conduct β D N)

/-- Served or refused, the requests of hooks are gone. -/
theorem serveHooks_tidied (run : Run β D N) : Tidied (serveHooks conduct run) := by
  cases ends : serveHooks conduct run with
  | ok value after => exact serveHooks_ok conduct ends
  | error cause after =>
      cases cause with
      | refused refusal => exact serveHooks_clearing conduct ends
      | brokenOff message => trivial

/-- When a transition has been submitted, what its hooks ask for is served. -/
theorem submit_tidied
    (transition : Transition β)
    (answer : Outcome → α)
    (run : Run β D N) :
    Tidied ((do
      let outcome ← submit conduct transition
      serveHooks conduct
      pure (answer outcome)) run) := by
  refine .bind_willing (submit_willing conduct transition) fun outcome after => ?_
  rw [bind_pure_comp]
  exact (serveHooks_tidied conduct after).map _

theorem switchOwn_tidied
    (wanted : Request β)
    (run : Run β D N)
    (empty : run.machine.inbox = []) :
    Tidied (switchOwn conduct wanted run) := by
  refine .bind (fun refusal after refused => ?_) fun transition after _ =>
    submit_tidied conduct transition id after
  rw [takeUp_refused refused]
  exact empty

/-- A tick leaves nothing in the inbox. -/
theorem tickOwn_tidied (delta : Single) (run : Run β D N) :
    Tidied (tickOwn conduct delta run) := by
  have carries : Clearing (carryOutPending conduct) := by
    refine .bind (.of_ok fun run => ⟨_, _, takePending_apply run⟩) fun pending => ?_
    cases pending with
    | none => exact .of_willing (.pure ())
    | some transition =>
        exact .bind (.of_willing (carryOut_willing conduct transition)) fun _ =>
          serveHooks_clearing conduct
  have ticks : Willing (tickCurrent conduct delta) := by
    apply RefusedWith.machine
    intro machine
    split
    · exact .pure ()
    · split
      · exact .log _
      · exact callCurrent_willing conduct (.tick delta)
  exact .bind (fun _ _ refused => carries refused) fun _ _ _ =>
    .bind_willing ticks fun _ after => serveHooks_tidied conduct after

theorem popOwn_tidied
    (run : Run β D N)
    (empty : run.machine.inbox = []) :
    Tidied (popOwn conduct run) := by
  rw [popOwn_apply]
  split
  · exact empty
  · split
    · exact empty
    · exact submit_tidied conduct _ some _

theorem restartOwn_tidied
    (run : Run β D N)
    (empty : run.machine.inbox = []) :
    Tidied (restartOwn conduct run) := by
  refine .machine ?_
  cases run.machine.current with
  | none => exact empty
  | some subject =>
      exact .bind_willing (callCurrent_willing conduct .restart) fun _ after =>
        serveHooks_tidied conduct after

theorem exitForGood_willing : Willing (exitForGood conduct) := by
  refine .bind (exitCurrent_willing conduct) fun previous => ?_
  cases previous with
  | none => exact .pure ()
  | some previous =>
      exact .bind (.addToHistory _ _ _) fun _ => .bind (.log _) fun _ =>
        parkOrDrop_willing previous

theorem shutdownOwn_tidied
    (run : Run β D N)
    (empty : run.machine.inbox = []) :
    Tidied (shutdownOwn conduct run) := by
  cases terminal : run.machine.config.shutdown with
  | some kind =>
      rw [shutdownOwn_apply_some conduct terminal empty]
      exact (switchOwn_tidied conduct (.fresh kind) (run.announced kind) empty).map some
  | none =>
      refine .machine ?_
      rw [terminal]
      refine .bind_willing (.of_ok fun run => ⟨_, _, dropPending_apply run⟩) fun _ _ => ?_
      refine .bind_willing (exitForGood_willing conduct) fun _ after => ?_
      rw [bind_pure_comp]
      exact (serveHooks_tidied conduct after).map _

end Kernel

/-- The own work of a call leaves the inbox empty if it finds it empty. -/
theorem Call.work_tidied
    (conduct : Conduct β D N)
    (call : Call β)
    (run : Run β D N)
    (empty : run.machine.inbox = []) :
    Tidied (call.work conduct run) := by
  cases call with
  | switchTo wanted => exact (Kernel.switchOwn_tidied conduct wanted run empty).map _
  | tick delta valid =>
      rw [work, bind_pure_comp]
      exact (Kernel.tickOwn_tidied conduct delta run).map _
  | pop => exact (Kernel.popOwn_tidied conduct run empty).map _
  | restart =>
      rw [work, bind_pure_comp]
      exact (Kernel.restartOwn_tidied conduct run empty).map _
  | shutdown => exact (Kernel.shutdownOwn_tidied conduct run empty).map _

/-! ## Operations that make calls -/

/-- The call that an operation makes, and the run on which it is made.  An empty slot makes no call,
and neither does a time step that is bad. -/
def Operation.call? (run : Run β D N) : Operation β D → Option (Call β × Run β D N)
  | .switchTo target =>
      (run.take target).1.map fun wanted => (.switchTo wanted, (run.take target).2)
  | .tick delta =>
      if valid : (delta.isNaN || delta.isNegative) = false then some (.tick delta valid, run)
      else none
  | .pop => some (.pop, run)
  | .restart => some (.restart, run)
  | .shutdown => some (.shutdown, run)
  | _ => none

/-- Whether an operation is a call, or would be one if its slot were not empty or its time step not
bad. -/
def Operation.isCall : Operation β D → Bool
  | .switchTo _ | .tick _ | .pop | .restart | .shutdown => true
  | _ => false

/-- An operation that makes a call does nothing else, except that it takes a state out of the
caller's hands before. -/
theorem Kernel.perform_of_call
    (conduct : Conduct β D N)
    {run start : Run β D N}
    {operation : Operation β D}
    {call : Call β}
    (calls : operation.call? run = some (call, start)) :
    perform conduct operation run = call.perform conduct start ∧
      ∃ hands, start = { run with hands := hands } := by
  cases operation with
  | switchTo target =>
      obtain ⟨wanted, taken, made⟩ := Option.map_eq_some_iff.mp calls
      cases made
      refine ⟨?_, (run.take target).2.hands, ?_⟩
      · rw [perform, bind_apply, takeTarget_apply, taken]
        dsimp only
        rw [bind_pure_comp]
        rfl
      · exact run.take_frame target
  | tick delta =>
      rw [Operation.call?] at calls
      split at calls
      · cases calls
        exact ⟨rfl, run.hands, rfl⟩
      · nomatch calls
  | pop =>
      cases calls
      refine ⟨?_, run.hands, rfl⟩
      rw [perform, bind_pure_comp]
      rfl
  | restart =>
      cases calls
      exact ⟨rfl, run.hands, rfl⟩
  | shutdown =>
      cases calls
      refine ⟨?_, run.hands, rfl⟩
      rw [perform, bind_pure_comp]
      rfl
  | _ => nomatch calls

section Call

variable {conduct : Conduct β D N} {run start : Run β D N} {operation : Operation β D}
  {call : Call β}

/-- If what was posted has been served, a call goes on with its own work. -/
theorem Kernel.perform_of_drained
    {drained : Run β D N}
    (calls : operation.call? run = some (call, start))
    (drains : serveHandles conduct start = .ok () drained) :
    perform conduct operation run = call.work conduct drained := by
  obtain ⟨same, -⟩ := perform_of_call conduct calls
  rw [same, Call.perform_eq, bind_apply, drains]

/-- If what was posted cannot be served, a call ends with the serving. -/
theorem Kernel.perform_of_failed
    {failed : Run β D N}
    {cause : Interruption}
    (calls : operation.call? run = some (call, start))
    (fails : serveHandles conduct start = .error cause failed) :
    perform conduct operation run = .error cause failed := by
  obtain ⟨same, -⟩ := perform_of_call conduct calls
  rw [same, Call.perform_eq, bind_apply, fails]

end Call

end TickMachine
