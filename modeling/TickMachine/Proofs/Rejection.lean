import TickMachine.Proofs.Chain
import TickMachine.Proofs.Queue
import TickMachine.Proofs.Registering
import TickMachine.Proofs.Resting

/-!
# Calls that are rejected

A call does nothing of its own before everything that was posted has been served.  If serving fails,
the call gives the same error and leaves the machine as it is then.  If the machine cannot resolve
what the owner asks for, the call leaves the machine as it was after serving.
-/

namespace TickMachine

variable {β D N : Type}

/-! ## Requests that a machine cannot resolve -/

/-- A machine cannot resolve a request, because a kind has no prototype or because the state belongs
to another machine. -/
inductive Request.Unfit (machine : Machine β D) : Request β → Refusal → Prop where
  | unavailable {kind : Kind} {reason : Unavailable} (lacks : machine.registry.Lacks kind reason) :
      Unfit machine (.fresh kind) (.unavailable kind reason)
  | foreign {subject : Instance β} (elsewhere : subject.owner ≠ machine.id) :
      Unfit machine (.existing subject) (.foreign subject.serial)

/-- A request is refused exactly if the machine cannot resolve it. -/
theorem Request.refusal?_eq_some_iff
    {machine : Machine β D}
    {request : Request β}
    {refusal : Refusal} :
    request.refusal? machine = some refusal ↔ request.Unfit machine refusal := by
  constructor
  · intro refused
    cases request with
    | fresh kind =>
        rw [refusal?] at refused
        split at refused
        next cause lacking =>
          cases refused
          obtain ⟨reason, lacks, rfl⟩ := Registry.prototype_eq_error_iff.mp lacking
          exact .unavailable lacks
        next => cases refused
    | existing subject =>
        rw [refusal?] at refused
        split at refused
        next => cases refused
        next elsewhere =>
          cases refused
          exact .foreign elsewhere
  · rintro (⟨lacks⟩ | ⟨elsewhere⟩)
    · rw [refusal?, Registry.prototype_eq_error_iff.mpr ⟨_, lacks, rfl⟩]
    · exact if_neg elsewhere

/-- What a machine cannot resolve depends on its number and its kinds only. -/
theorem Request.Unfit.of_fixed
    {before after : Machine β D}
    {request : Request β}
    {refusal : Refusal}
    (unfit : request.Unfit before refusal)
    (id : after.id = before.id)
    (registry : after.registry = before.registry) :
    request.Unfit after refusal := by
  cases unfit with
  | unavailable lacks => exact .unavailable (registry ▸ lacks)
  | foreign elsewhere => exact .foreign (id ▸ elsewhere)

/-! ## Calls that end before their own work is done -/

/-- A request that its caller has made and that the machine cannot resolve is refused. -/
theorem Call.work_unfit
    {conduct : Conduct β D N}
    {drained : Run β D N}
    {wanted : Request β}
    {refusal : Refusal}
    (unfit : wanted.Unfit drained.machine refusal) :
    (Call.switchTo wanted).work conduct drained =
      .error (.refused refusal) (drained.write (.taken .caller wanted.label)) := by
  have refused := Kernel.takeUp_unresolved .caller (Request.refusal?_eq_some_iff.mpr unfit)
  rw [work, ← bind_pure_comp, Kernel.bind_apply, Kernel.switchOwn, Kernel.bind_apply, refused]

/-- If everything that was posted has been served and the machine cannot resolve what its owner asks
for, the owner is told why, and the machine is as it was after the serving; if nothing was posted,
it is as it was before.  And if the serving fails, a call gives the same error and does nothing of
its own, whatever call it is. -/
theorem rejection_atomic
    (conduct : Conduct β D N)
    (run : Run β D N)
    (now : Instant) :
    (∀ target wanted start drained refusal,
      { run with now := now }.take target = (some wanted, start) →
      Kernel.serveHandles conduct start = .ok () drained →
      wanted.Unfit run.machine refusal →
      ∃ after,
        run.perform conduct now (.switchTo target) = (.error (.refused refusal), after) ∧
        after.machine = drained.machine ∧
        drained.machine.inbox = [] ∧
        after.calls = drained.calls ∧
        (run.machine.inbox = [] →
          after.machine = run.machine ∧ after.calls = run.calls)) ∧
    (∀ operation call start cause failed,
      operation.call? { run with now := now } = some (call, start) →
      Kernel.serveHandles conduct start = .error cause failed →
      run.perform conduct now operation = (.error cause, failed) ∧
        failed.machine.stack = run.machine.stack ∧
        Run.CallsOnly (fun call => call.1.IsMove) run failed) := by
  constructor
  · intro target wanted start drained refusal takes drains unfit
    have calls : (Operation.switchTo target).call? { run with now := now } =
        some (.switchTo wanted, start) := by
      rw [Operation.call?, takes]
      rfl
    obtain ⟨-, hands, began⟩ := Kernel.perform_of_call conduct calls
    have steps : Steps conduct [.serve] ⟨.idle, [], start⟩ ⟨.idle, [], drained⟩ :=
      (Kernel.serveHandles_follows List.mem_cons_self).steps_ok drains
    obtain ⟨id, -, registry⟩ := steps.fixed
    rw [began] at id registry
    have refused : (Call.switchTo wanted).work conduct drained =
        .error (.refused refusal) (drained.write (.taken .caller wanted.label)) :=
      Call.work_unfit (unfit.of_fixed id registry)
    have quiet : (drained.write (.taken .caller wanted.label)).calls = drained.calls :=
      drained.calls_write _ not_false
    refine ⟨drained.write (.taken .caller wanted.label), ?_, rfl,
      Kernel.serveHandles_ok conduct drains, quiet, fun empty => ?_⟩
    · rw [Run.perform, Kernel.perform_of_drained calls drains, refused]
    · rw [Kernel.serveHandles_apply_empty conduct start (by rw [began]; exact empty)] at drains
      cases drains
      rw [quiet, began]
      exact ⟨rfl, rfl⟩
  · intro operation call start cause failed calls fails
    obtain ⟨-, hands, began⟩ := Kernel.perform_of_call conduct calls
    have follows : Follows conduct [.serve] (Kernel.serveHandles conduct) ⟨.idle, [], start⟩
        (fun _ => .idle) [] [] :=
      Kernel.serveHandles_follows List.mem_cons_self
    obtain ⟨_, _, steps⟩ := follows.steps
    rw [Kernel.final, fails] at steps
    have stack := steps.stack_eq (by decide) (by decide)
    have moves := steps.callsOnly_moves (by decide) (by decide)
    rw [began] at stack moves
    refine ⟨?_, stack, moves⟩
    rw [Run.perform, Kernel.perform_of_failed calls fails]

/-- A relay that has pushed its first state, and for which somebody has posted a request for a kind
that nobody registered. -/
def relayPushedMisled : Run Actor Meter Note :=
  (((relayStarted true).perform Actor.conduct .epoch .push).2.perform Actor.conduct .epoch
    (.post (.fresh ⟨3⟩))).2

/-- When the owner of a relay asks for a kind that nobody registered, nothing changes.  When
somebody else has asked for it, a pop is refused for this and leaves the stack as it is. -/
theorem rejection_atomic_relay :
    (∃ after,
      (relayStarted true).perform Actor.conduct .epoch (.switchTo (.fresh ⟨3⟩)) =
        (.error (.refused (.unavailable ⟨3⟩ .unregistered)), after) ∧
      after.machine = (relayStarted true).machine) ∧
    ∃ failed,
      relayPushedMisled.perform Actor.conduct .epoch .pop =
        (.error (.refused (.unavailable ⟨3⟩ .unregistered)), failed) ∧
      failed.machine.stack = relayPushedMisled.machine.stack := by
  constructor
  · have empty : (relayStarted true).machine.inbox = [] := List.isEmpty_iff.mp (by decide +kernel)
    have drains := Kernel.serveHandles_apply_empty Actor.conduct
      { relayStarted true with now := .epoch } empty
    have unknown : (relayStarted true).machine.registry.contains ⟨3⟩ = false := by decide +kernel
    obtain ⟨after, refused, -, -, -, same⟩ :=
      (rejection_atomic Actor.conduct (relayStarted true) .epoch).1 (.fresh ⟨3⟩) _ _ _ _ rfl drains
        (.unavailable (.unregistered unknown))
    exact ⟨after, refused, (same empty).1⟩
  · have fails : (Run.interruption (Kernel.serveHandles Actor.conduct
        { relayPushedMisled with now := .epoch })).map Prod.fst =
          some (.refused (.unavailable ⟨3⟩ .unregistered)) := by
      decide +kernel
    cases ends : Kernel.serveHandles Actor.conduct { relayPushedMisled with now := .epoch } with
    | ok value after =>
        rw [ends] at fails
        cases fails
    | error cause failed =>
        rw [ends] at fails
        cases fails
        obtain ⟨refused, stack, -⟩ :=
          (rejection_atomic Actor.conduct relayPushedMisled .epoch).2 .pop .pop _ _ failed rfl ends
        exact ⟨failed, refused, stack⟩

end TickMachine
