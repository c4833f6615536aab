import TickMachine.Proofs.Inbox
import TickMachine.Proofs.Reachable

/-!
# Shutdown without a shutdown state

A machine without a shutdown state gives up the pending transition and lets the current state exit
for good.  Only then does it serve what the exit hook asked for, so a state that asks for another
one when it exits is replaced after all.  The machine comes to rest exactly if the exit hook asks
for nothing.
-/

namespace TickMachine

variable {β D N : Type}

namespace Run

/-- No state is current and no transition is pending. -/
def AtRest (run : Run β D N) : Prop :=
  run.machine.current = none ∧ run.machine.pending = none

/-- What the current state asks for when it exits. -/
def lastRequests (conduct : Conduct β D N) (run : Run β D N) : List (Request β) :=
  match run.machine.current with
  | none => []
  | some subject => run.asked conduct .exit subject

theorem not_atRest_of_current
    {run : Run β D N}
    {subject : Instance β}
    (present : run.machine.current = some subject) :
    ¬ run.AtRest := by
  intro rest
  rw [rest.1] at present
  nomatch present

theorem not_atRest_of_pending
    {run : Run β D N}
    {transition : Transition β}
    (waiting : run.machine.pending = some transition) :
    ¬ run.AtRest := by
  intro rest
  rw [rest.2] at waiting
  nomatch waiting

/-- To give up the pending transition changes only what is pending and what is parked. -/
theorem pendingDropped_frame (run : Run β D N) :
    run.pendingDropped.hands = run.hands ∧
      ∃ parked, run.pendingDropped.machine =
        { run.machine with pending := none, parked := parked } := by
  unfold pendingDropped
  split
  next free => exact ⟨rfl, run.machine.parked, by rw [← free]⟩
  next transition waiting =>
    cases transition with
    | replace next => exact ⟨by simp [letGone], _, by simp [letGone]; rfl⟩
    | reenter kind serial => exact ⟨rfl, run.machine.parked, rfl⟩

/-- What the exit hook would ask for does not depend on what is pending. -/
theorem lastRequests_pendingDropped (conduct : Conduct β D N) (run : Run β D N) :
    run.pendingDropped.lastRequests conduct = run.lastRequests conduct := by
  obtain ⟨hands, parked, machine⟩ := run.pendingDropped_frame
  have current : run.pendingDropped.machine.current = run.machine.current := by rw [machine]
  unfold lastRequests
  rw [current]
  cases run.machine.current with
  | none => rfl
  | some subject => exact asked_eq conduct .exit subject hands (by rw [machine])

end Run

namespace Kernel

variable (conduct : Conduct β D N)

/-! ## What serving a request leaves current or pending -/

/-- A state that has been entered is current. -/
theorem enterNext_ok
    {next : Instance β}
    {run after : Run β D N}
    (done : enterNext conduct next run = .ok () after) :
    ∃ subject, after.machine.current = some subject := by
  rw [enterNext_apply] at done
  obtain ⟨-, rfl⟩ := of_ended_eq_ok done
  exact ⟨_, rfl⟩

/-- A replacement leaves a state current. -/
theorem replaceCurrent_ok
    {next : Instance β}
    {run after : Run β D N}
    (done : replaceCurrent conduct next run = .ok () after) :
    ∃ subject, after.machine.current = some subject := by
  rw [replaceCurrent_eq] at done
  obtain ⟨before, _, _, done⟩ := bind_ok done
  obtain ⟨previous, _, _, done⟩ := bind_ok done
  obtain ⟨_, _, _, arrives⟩ := bind_ok done
  obtain ⟨_, _, _, arrives⟩ := bind_ok arrives
  obtain ⟨_, arrived, entered, logged⟩ := bind_ok arrives
  obtain ⟨subject, present⟩ := enterNext_ok conduct entered
  cases logged
  exact ⟨subject, present⟩

theorem supersede_ok
    {previous : Option (Transition β)}
    {next : Serial}
    {discarded : Option Serial}
    {run after : Run β D N}
    (done : supersede previous next run = .ok discarded after) :
    after.machine.pending = run.machine.pending := by
  cases previous with
  | none =>
      cases done
      rfl
  | some transition =>
      obtain ⟨_, middle, gone, done⟩ := bind_ok done
      rw [letGo_apply] at gone
      cases gone
      split at done
      · cases done
        exact Run.letGone_pending run transition
      · obtain ⟨_, _, logged, done⟩ := bind_ok done
        cases logged
        cases done
        exact Run.letGone_pending run transition

/-- A transition that has been deferred is pending. -/
theorem defer_ok
    {transition : Transition β}
    {outcome : Outcome}
    {run after : Run β D N}
    (done : defer transition run = .ok outcome after) :
    after.machine.pending = some transition := by
  obtain ⟨before, _, looked, done⟩ := bind_ok done
  cases looked
  obtain ⟨_, _, changed, done⟩ := bind_ok done
  cases changed
  obtain ⟨discarded, middle, superseded, done⟩ := bind_ok done
  obtain ⟨_, _, logged, done⟩ := bind_ok done
  cases logged
  cases done
  exact supersede_ok superseded

/-- A state that has been submitted is current or pending. -/
theorem submit_replace_ok
    {next : Instance β}
    {outcome : Outcome}
    {run after : Run β D N}
    (done : submit conduct (.replace next) run = .ok outcome after) :
    ¬ after.AtRest := by
  obtain ⟨before, _, _, done⟩ := bind_ok done
  split at done
  · obtain ⟨_, middle, made, done⟩ := bind_ok done
    cases done
    obtain ⟨subject, present⟩ := replaceCurrent_ok conduct made
    exact Run.not_atRest_of_current present
  · exact Run.not_atRest_of_pending (defer_ok done)

/-- A request leads to a state that is entered, never to one that enters again. -/
theorem takeUp_ok
    {origin : Origin}
    {request : Request β}
    {transition : Transition β}
    {run after : Run β D N}
    (taken : takeUp origin request run = .ok transition after) :
    ∃ next, transition = .replace next := by
  obtain ⟨_, _, _, _, rfl, _⟩ | ⟨subject, _, _, rfl, _⟩ := takeUp_cases taken
  · exact ⟨_, rfl⟩
  · exact ⟨subject, rfl⟩

/-- A request that is served leaves a state current or a transition pending. -/
theorem serveAsked_ok
    {asked : Request β}
    {run after : Run β D N}
    (served : serveAsked conduct asked run = .ok () after) :
    ¬ after.AtRest := by
  obtain ⟨transition, middle, mended, served⟩ := bind_ok served
  obtain ⟨outcome, final, submitted, served⟩ := bind_ok served
  cases served
  obtain ⟨next, rfl⟩ := takeUp_ok (orMend_ok mended)
  exact submit_replace_ok conduct submitted

/-- Serving the inbox brings no machine to rest, and it leaves none at rest if there is anything
to serve. -/
theorem serveWithin_restless
    (budget : Nat)
    {run after : Run β D N}
    (served : serveWithin conduct budget run = .ok () after)
    (restless : run.machine.inbox ≠ [] ∨ ¬ run.AtRest) :
    ¬ after.AtRest := by
  have nothing : run.machine.inbox = [] → ¬ run.AtRest := by
    intro empty
    exact restless.resolve_left (not_not_intro empty)
  induction budget generalizing run with
  | zero =>
      obtain ⟨machine, _, looked, served⟩ := bind_ok served
      cases looked
      split at served
      next empty =>
        cases served
        exact nothing (List.isEmpty_iff.mp empty)
      next => nomatch served
  | succ budget inductionHypothesis =>
      obtain ⟨found, middle, taken, served⟩ := bind_ok served
      rw [nextRequest_apply] at taken
      cases waiting : run.machine.inbox with
      | nil =>
          rw [waiting] at taken
          cases taken
          cases served
          exact nothing waiting
      | cons asked more =>
          rw [waiting] at taken
          cases taken
          obtain ⟨_, between, first, served⟩ := bind_ok served
          have busy := serveAsked_ok conduct first
          exact inductionHypothesis served (.inr busy) fun _ => busy

/-! ## Exit for good -/

/-- After an exit for good no state is current, and the requests of the exit hook wait. -/
theorem exitForGood_ok
    {run after : Run β D N}
    (done : exitForGood conduct run = .ok () after) :
    after.machine.current = none ∧ after.machine.pending = run.machine.pending ∧
      after.machine.inbox = run.machine.inbox ++ run.lastRequests conduct := by
  obtain ⟨found, middle, exited, done⟩ := bind_ok done
  unfold Run.lastRequests
  cases present : run.machine.current with
  | none =>
      rw [exitCurrent_apply_none conduct run present] at exited
      cases exited
      cases done
      exact ⟨present, rfl, (List.append_nil _).symm⟩
  | some subject =>
      rw [exitCurrent_apply_some conduct run subject present] at exited
      obtain ⟨rfl, rfl⟩ := of_ended_eq_ok exited
      obtain ⟨_, _, recorded, done⟩ := bind_ok done
      cases recorded
      obtain ⟨_, _, logged, done⟩ := bind_ok done
      cases logged
      dsimp only at done
      rw [parkOrDrop_apply] at done
      cases done
      rw [Run.released_machine]
      exact ⟨rfl, rfl, rfl⟩

/-- A shutdown that ends without a transition has run the terminal branch. -/
theorem shutdown_ok
    {run after : Run β D N}
    (done : shutdown conduct run = .ok none after) :
    ∃ served exited,
      serveHandles conduct run = .ok () served ∧
      exitForGood conduct served.pendingDropped = .ok () exited ∧
      serveHooks conduct exited = .ok () after := by
  obtain ⟨_, served, serves, done⟩ := bind_ok done
  obtain ⟨before, _, looked, done⟩ := bind_ok done
  cases looked
  cases terminal : served.machine.config.shutdown with
  | some kind =>
      rw [terminal] at done
      obtain ⟨_, _, _, done⟩ := bind_ok done
      obtain ⟨outcome, _, _, done⟩ := bind_ok done
      nomatch done
  | none =>
      rw [terminal] at done
      obtain ⟨_, _, dropped, done⟩ := bind_ok done
      rw [dropPending_apply] at dropped
      cases dropped
      obtain ⟨_, exited, exits, done⟩ := bind_ok done
      obtain ⟨_, _, settles, done⟩ := bind_ok done
      cases done
      exact ⟨served, exited, serves, exits, settles⟩

end Kernel

/-- A shutdown that answers that there is nothing to request has ended without a transition. -/
theorem Run.perform_shutdown_nothing
    (conduct : Conduct β D N)
    (run : Run β D N)
    (now : Instant)
    (answer : (run.perform conduct now .shutdown).1 = .ok .nothing) :
    Kernel.shutdown conduct { run with now := now } =
      .ok none (run.perform conduct now .shutdown).2 := by
  have ends := run.kernel_perform conduct now .shutdown
  rw [answer] at ends
  obtain ⟨outcome, _, done, replied⟩ := Kernel.bind_ok ends
  obtain ⟨found, final⟩ := EStateM.Result.ok.inj replied
  rw [← final]
  cases outcome with
  | none => exact done
  | some outcome => nomatch found

/-- After a shutdown without a shutdown state the machine is at rest exactly if the state that was
current, when everything posted through handles had been served, asked for nothing on its exit. -/
theorem atRest_after_shutdown_iff
    (conduct : Conduct β D N)
    (run : Run β D N)
    (now : Instant)
    (answer : (run.perform conduct now .shutdown).1 = .ok .nothing) :
    ∃ served, Kernel.serveHandles conduct { run with now := now } = .ok () served ∧
      ((run.perform conduct now .shutdown).2.AtRest ↔ served.lastRequests conduct = []) := by
  have done := run.perform_shutdown_nothing conduct now answer
  obtain ⟨served, exited, serves, exits, settles⟩ := Kernel.shutdown_ok conduct done
  obtain ⟨vacant, waiting, inbox⟩ := Kernel.exitForGood_ok conduct exits
  have drained : served.pendingDropped.machine.inbox = [] := by
    obtain ⟨_, parked, machine⟩ := served.pendingDropped_frame
    rw [machine]
    exact Kernel.serveHandles_ok conduct serves
  rw [drained, List.nil_append, Run.lastRequests_pendingDropped] at inbox
  rw [Run.pendingDropped_pending] at waiting
  refine ⟨served, serves, ?_⟩
  constructor
  · intro rest
    by_contra asks
    rw [← inbox] at asks
    exact Kernel.serveWithin_restless conduct _ settles (.inl asks) rest
  · intro silent
    have idle := Kernel.serveHooks_apply_empty conduct exited (inbox.trans silent)
    rw [idle] at settles
    cases settles
    exact ⟨vacant, waiting⟩

/-- The first state of a relay asks for another one on its exit, so the relay does not come to
rest. -/
theorem atRest_after_shutdown_iff_relay :
    ((relayStarted true).perform Actor.conduct .epoch .shutdown).1 = .ok .nothing ∧
      ∃ served,
        Kernel.serveHandles Actor.conduct { relayStarted true with now := .epoch } =
          .ok () served ∧
        (((relayStarted true).perform Actor.conduct .epoch .shutdown).2.AtRest ↔
          served.lastRequests Actor.conduct = []) := by
  have answer : ((relayStarted true).perform Actor.conduct .epoch .shutdown).1 = .ok .nothing := by
    decide +kernel
  exact ⟨answer, atRest_after_shutdown_iff Actor.conduct (relayStarted true) .epoch answer⟩

/-- A relay that has been shut down in immediate mode has a current state. -/
theorem relay_restless_after_shutdown :
    Reachable Actor.conduct Unbroken (relay true) (relayStarted true) ∧
      (relay true).config.shutdown = none ∧
      ((relayStarted true).perform Actor.conduct .epoch .shutdown).1 = .ok .nothing ∧
      ¬ ((relayStarted true).perform Actor.conduct .epoch .shutdown).2.AtRest := by
  refine ⟨relayStarted_reachable true, rfl, by decide +kernel, ?_⟩
  intro rest
  have entered :
      ((relayStarted true).perform Actor.conduct .epoch .shutdown).2.machine.current.isSome := by
    decide +kernel
  rw [rest.1] at entered
  nomatch entered

end TickMachine
