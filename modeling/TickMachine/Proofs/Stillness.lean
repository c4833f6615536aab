import TickMachine.Proofs.Discarded

/-!
# Requests that wait for a tick

In deferred mode a request for a transition, or the remembering of a state, calls no hook.
Whatever waits in the inbox is served on the way and may be taken up, refused or let go, but nothing
that the owner or the states of the machine can see has moved when the operation is over, however it
ends.  Only the next tick makes the transition that is pending then.
-/

namespace TickMachine

variable {β D N α : Type}

/-! ## Steps that move nothing -/

/-- No hook was called, and the current state, the data, the history and the status of the machine
are as they were. -/
structure Run.Unmoved (before after : Run β D N) : Prop where
  calls : after.calls = before.calls
  current : after.machine.current = before.machine.current
  data : after.machine.data = before.machine.data
  history : after.machine.history = before.machine.history
  status : after.machine.status = before.machine.status

namespace Run.Unmoved

variable {before middle after : Run β D N}

theorem refl (run : Run β D N) : run.Unmoved run :=
  ⟨rfl, rfl, rfl, rfl, rfl⟩

theorem trans (first : before.Unmoved middle) (second : middle.Unmoved after) :
    before.Unmoved after where
  calls := second.calls.trans first.calls
  current := second.current.trans first.current
  data := second.data.trans first.data
  history := second.history.trans first.history
  status := second.status.trans first.status

/-- To look at the clock moves nothing. -/
theorem clock (run : Run β D N) (now : Instant) : run.Unmoved { run with now := now } :=
  ⟨rfl, rfl, rfl, rfl, rfl⟩

/-- What is written into the journal moves nothing, unless it is a call of a hook. -/
theorem write (run : Run β D N) (entry : Entry β N) (quiet : ¬ entry.IsCall) :
    run.Unmoved (run.write entry) :=
  ⟨run.calls_write entry quiet, rfl, rfl, rfl, rfl⟩

theorem log (run : Run β D N) (event : LogEvent) :
    run.Unmoved (run.write (.logged event)) :=
  write run _ not_false

theorem released (run : Run β D N) (subject : Instance β) :
    run.Unmoved (run.released subject) := by
  refine ⟨run.calls_released subject, ?_, ?_, ?_, ?_⟩
  all_goals rw [released_machine]
  rfl

end Run.Unmoved

/-- Whether a deed changes the current state, the data or the history, or leads to a call of a
hook. -/
def Deed.moves : Deed → Bool
  | .setData | .pause | .resume | .tick | .restart | .leave => true
  | _ => false

section Steps

variable {conduct : Conduct β D N} {deeds : List Deed} {before after : Stage β D N}

/-- In deferred mode a step moves nothing, unless a deed does or a transition is being made. -/
theorem Step.unmoved
    (step : Step conduct deeds before after)
    (inert : ∀ deed ∈ deeds, deed.moves = false)
    (patient : before.run.machine.config.immediate = false)
    (still : ¬ before.phase.IsMoving) :
    before.run.Unmoved after.run := by
  cases step with
  | write entry quiet => exact .write _ entry quiet
  | setData _ done | pause _ done | tick _ _ _ _ done | restart _ _ done | leave _ _ _ done =>
      exact absurd (inert _ done) nofun
  | take destination request taken =>
      rw [Run.take_frame]
      exact ⟨rfl, rfl, rfl, rfl, rfl⟩
  | make | create => exact ⟨Run.calls_log _ _, rfl, rfl, rfl, rfl⟩
  | letGo subject => exact .released _ subject
  | pop serial below transition rest top retrieved =>
      obtain ⟨_, _, rfl⟩ := Machine.retrieve_frame retrieved
      exact ⟨Run.calls_log _ _, rfl, rfl, rfl, rfl⟩
  | exit subject next present => exact absurd trivial still
  | release source previous next => exact absurd trivial still
  | record source next => exact absurd trivial still
  | enter next absent => exact absurd trivial still
  | exitInPlace kind subject present => exact absurd trivial still
  | enterAgain kind subject present => exact absurd trivial still
  | recordAgain kind subject present => exact absurd trivial still
  | skip kind serial elsewhere => exact absurd trivial still
  | recordLeaving previous => exact absurd trivial still
  | _ => exact ⟨rfl, rfl, rfl, rfl, rfl⟩

/-- In deferred mode no number of steps moves anything, if none of the deeds does. -/
theorem Steps.unmoved
    (steps : Steps conduct deeds before after)
    (inert : ∀ deed ∈ deeds, deed.moves = false)
    (patient : before.run.machine.config.immediate = false)
    (still : ¬ before.phase.IsMoving) :
    before.run.Unmoved after.run := by
  have never (deed : Deed) (moves : deed.moves = true) : deed ∉ deeds := fun done =>
    absurd ((inert deed done).symm.trans moves) nofun
  suffices before.run.Unmoved after.run ∧ ¬ after.phase.IsMoving from this.1
  induction steps with
  | refl => exact ⟨.refl _, still⟩
  | tail earlier step inductionHypothesis =>
      obtain ⟨unmoved, stillThen⟩ := inductionHypothesis
      have patientThen := (congrArg Config.immediate (Steps.fixed earlier).2.1).trans patient
      exact ⟨unmoved.trans (step.unmoved inert patientThen stillThen),
        step.still patientThen (never .resume rfl) (never .leave rfl) stillThen⟩

end Steps

/-! ## Programs that move nothing -/

section Programs

variable {conduct : Conduct β D N} {run : Run β D N}

/-- However a program ends that does no deed that moves anything, it has moved nothing. -/
theorem Follows.unmoved
    {deeds : List Deed}
    {program : Kernel β D N α}
    {phase : α → Phase β}
    {asked batch left : List (Request β)}
    (follows : Follows conduct deeds program ⟨.idle, asked, run⟩ phase batch left)
    (inert : ∀ deed ∈ deeds, deed.moves = false)
    (patient : run.machine.config.immediate = false) :
    run.Unmoved (program.final run) := by
  obtain ⟨_, _, steps⟩ := follows.steps
  exact steps.unmoved inert patient not_false

/-- The serving of requests that were posted through handles moves nothing in deferred mode. -/
theorem Kernel.serveHandles_unmoved
    (conduct : Conduct β D N)
    (patient : run.machine.config.immediate = false) :
    run.Unmoved ((serveHandles conduct).final run) := by
  have follows : Follows conduct [.serve] (serveHandles conduct) ⟨.idle, [], run⟩
      (fun _ => .idle) [] [] :=
    serveHandles_follows List.mem_cons_self
  exact follows.unmoved (by decide) patient

/-- The serving of what hooks ask for moves nothing in deferred mode. -/
theorem Kernel.serveHooks_unmoved
    (conduct : Conduct β D N)
    (patient : run.machine.config.immediate = false) :
    run.Unmoved ((serveHooks conduct).final run) := by
  have follows : Follows conduct [] (serveHooks conduct) ⟨.idle, [], run⟩
      (fun _ => .idle) [] [] :=
    serveHooks_follows
  exact follows.unmoved nofun patient

end Programs

/-! ## Restarts -/

/-- At most the restart hook of the current state was called.  The same state is current as before,
and the history is as it was. -/
structure Run.AskedAtMost (before after : Run β D N) : Prop where
  calls : after.calls = before.calls ∨
    ∃ subject, before.machine.current = some subject ∧
      after.calls = before.calls ++ [(.restart, subject.kind, subject.serial)]
  current : after.machine.current.map Instance.identity =
    before.machine.current.map Instance.identity
  history : after.machine.history = before.machine.history

namespace Run

variable {before middle after : Run β D N}

theorem Unmoved.askedAtMost (unmoved : before.Unmoved after) : before.AskedAtMost after :=
  ⟨.inl unmoved.calls, congrArg _ unmoved.current, unmoved.history⟩

theorem AskedAtMost.before_unmoved
    (first : before.Unmoved middle)
    (second : middle.AskedAtMost after) :
    before.AskedAtMost after where
  calls := by
    rw [← first.calls, ← first.current]
    exact second.calls
  current := second.current.trans (congrArg _ first.current)
  history := second.history.trans first.history

theorem AskedAtMost.unmoved_after
    (first : before.AskedAtMost middle)
    (second : middle.Unmoved after) :
    before.AskedAtMost after where
  calls := by
    rw [second.calls]
    exact first.calls
  current := (congrArg _ second.current).trans first.current
  history := second.history.trans first.history

/-- The current state reacts to a restart. -/
theorem AskedAtMost.hooked
    (conduct : Conduct β D N)
    (run : Run β D N)
    (subject : Instance β)
    (present : run.machine.current = some subject) :
    run.AskedAtMost (run.hooked conduct .restart subject) where
  calls := .inr ⟨subject, present, run.calls_reacted conduct .restart subject⟩
  current := run.identity_hooked conduct .restart subject present
  history := rfl

end Run

namespace Kernel

variable (conduct : Conduct β D N) {run : Run β D N}

/-- In deferred mode, a restart calls the restart hook at most, and the same state stays current. -/
theorem restartOwn_askedAtMost (patient : run.machine.config.immediate = false) :
    run.AskedAtMost ((restartOwn conduct).final run) := by
  cases present : run.machine.current with
  | none =>
      have ignored : restartOwn conduct run = .ok () (run.write (.logged .restartIgnored)) := by
        rw [restartOwn, bind_apply, machine_apply]
        dsimp only
        rw [present]
        rfl
      rw [final_of_ok ignored]
      exact (Run.Unmoved.log run .restartIgnored).askedAtMost
  | some subject =>
      have asks := Run.AskedAtMost.hooked conduct run subject present
      have called := callCurrent_apply_some conduct .restart run subject present
      have parts : (restartOwn conduct).final run =
          (do
            callCurrent conduct .restart
            serveHooks conduct : Kernel β D N Unit).final run := by
        rw [final, restartOwn, bind_apply, machine_apply]
        dsimp only
        rw [present]
        rfl
      rw [parts]
      cases breaks : (run.reaction conduct .restart subject).breakdown with
      | none =>
          rw [breaks] at called
          rw [final_bind_ok called]
          exact asks.unmoved_after (serveHooks_unmoved conduct patient)
      | some message =>
          rw [breaks] at called
          rw [final_bind_error called, final_of_ended called]
          exact asks

/-- So does a restart together with the posted requests before it. -/
theorem restart_askedAtMost (patient : run.machine.config.immediate = false) :
    run.AskedAtMost ((restart conduct).final run) := by
  have parts : restart conduct = (do serveHandles conduct; restartOwn conduct) := rfl
  have serves := serveHandles_unmoved conduct patient
  rw [parts]
  cases served : serveHandles conduct run with
  | ok value middle =>
      have steps : Steps conduct [.serve] ⟨.idle, [], run⟩ ⟨.idle, [], middle⟩ :=
        (serveHandles_follows List.mem_cons_self).steps_ok served
      have patientThen := (congrArg Config.immediate steps.fixed.2.1).trans patient
      rw [final_of_ok served] at serves
      rw [final_bind_ok served]
      exact .before_unmoved serves (restartOwn_askedAtMost conduct patientThen)
  | error cause after =>
      rw [final_bind_error served]
      exact serves.askedAtMost

end Kernel

/-! ## Operations -/

/-- Whether an operation is a request for a transition, or remembers the current state. -/
def Operation.isRequest : Operation β D → Bool
  | .switchTo _ | .push | .pushCurrent | .pop => true
  | _ => false

/-- No operation that only requests a transition has a deed that moves states. -/
theorem Operation.deeds_of_isRequest
    {operation : Operation β D}
    (request : operation.isRequest = true) :
    ∀ deed ∈ operation.deeds, deed.moves = false := by
  cases operation with
  | switchTo target => exact List.forall_mem_singleton.mpr rfl
  | push => exact List.forall_mem_singleton.mpr rfl
  | pushCurrent => exact List.forall_mem_singleton.mpr rfl
  | pop => exact List.forall_mem_cons.mpr ⟨rfl, List.forall_mem_singleton.mpr rfl⟩
  | _ => cases request

/-- An operation that answers that a transition is deferred has made it the pending one. -/
theorem Run.pending_of_deferred
    {conduct : Conduct β D N}
    {run : Run β D N}
    {now : Instant}
    {operation : Operation β D}
    {kind : Kind}
    {serial : Serial}
    {discarded : Option Serial}
    (patient : run.machine.config.immediate = false)
    (answer : (run.perform conduct now operation).1 =
      .ok (.outcome (.deferred kind serial discarded))) :
    (run.perform conduct now operation).2.machine.pendingKind = some kind ∧
      (run.perform conduct now operation).2.machine.pendingSerial = some serial := by
  obtain ⟨call, start, drained, -, drains, steps, works⟩ := Run.perform_outcome answer
  have patientThen : drained.machine.config.immediate = false := by
    rw [steps.fixed.2.1]
    exact patient
  obtain ⟨_, transition, found, -, -, names, after⟩ :=
    call.work_defers patientThen (Kernel.serveHandles_ok conduct drains) works
  obtain ⟨rfl, rfl, -⟩ := Outcome.deferred.inj names
  obtain ⟨-, -, parked, machine⟩ := found.deferred_frame transition
  rw [after]
  constructor
  · rw [Machine.pendingKind, machine]
    rfl
  · rw [Machine.pendingSerial, machine]
    rfl

/-- In deferred mode the requests of the owner and the remembering of a state call no hook, and
leave the current state, the data, the history and the status alone, whatever waits in the inbox
and whatever they answer.  If the answer is that a transition is deferred, this one is pending.  A
restart calls at most the restart hook of the current state, which stays current, and leaves the
history alone. -/
theorem requests_wait_for_tick
    (conduct : Conduct β D N)
    {run : Run β D N}
    (patient : run.machine.config.immediate = false)
    (now : Instant)
    (operation : Operation β D) :
    let answer := (run.perform conduct now operation).1
    let after := (run.perform conduct now operation).2
    (operation.isRequest = true → run.Unmoved after) ∧
      (∀ kind serial discarded,
        answer = .ok (.outcome (.deferred kind serial discarded)) →
          after.machine.pendingKind = some kind ∧ after.machine.pendingSerial = some serial) ∧
      (operation = .restart → run.AskedAtMost after) := by
  intro answer after
  refine ⟨fun request => ?_, fun kind serial discarded named => ?_, ?_⟩
  · obtain ⟨_, _, steps⟩ := run.perform_anyhow conduct now operation
    exact (Run.Unmoved.clock run now).trans
      (steps.unmoved (Operation.deeds_of_isRequest request) patient not_false)
  · exact Run.pending_of_deferred patient named
  · rintro rfl
    have asked : Run.AskedAtMost { run with now := now }
        ((Kernel.restart conduct).final { run with now := now }) :=
      Kernel.restart_askedAtMost conduct patient
    have ends : after = (Kernel.restart conduct).final { run with now := now } := by
      dsimp only [after]
      rw [run.perform_final, Kernel.perform, Kernel.final, Kernel.bind_apply, Kernel.final]
      cases Kernel.restart conduct { run with now := now } <;> rfl
    rw [ends]
    exact .before_unmoved (.clock run now) asked

/-- The request for a second state leaves the first state of the relay where it is. -/
theorem requests_wait_for_tick_relay :
    (relayStarted false).Unmoved
      ((relayStarted false).perform Actor.conduct .epoch (.switchTo (.fresh ⟨2⟩))).2 :=
  (requests_wait_for_tick Actor.conduct (by decide +kernel) .epoch (.switchTo (.fresh ⟨2⟩))).1 rfl

end TickMachine
