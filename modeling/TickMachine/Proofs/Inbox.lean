import TickMachine.Proofs.Effect

/-!
# What serving leaves in the inbox

The making of a transition is never refused, so a call can only be refused where it takes up a
request or where a chain is too long.  Both empty the inbox, unless requests that were posted
through handles wait behind the refused one.  It follows that requests can be served in parts.
-/

namespace TickMachine

variable {β D N α γ : Type}

/-- Puts requests at the end of the inbox. -/
def Run.requeue (run : Run β D N) (waiting : List (Request β)) : Run β D N :=
  run.mapMachine fun machine => { machine with inbox := machine.inbox ++ waiting }

/-! ## How programs are refused -/

/-- A program after which, if it is refused, the machine has a property. -/
def RefusedWith (holds : Machine β D → Prop) (program : Kernel β D N α) : Prop :=
  ∀ ⦃run after : Run β D N⦄ ⦃refusal : Refusal⦄,
    program run = .error (.refused refusal) after → holds after.machine

/-- A program that is never refused. -/
abbrev Willing (program : Kernel β D N α) : Prop :=
  RefusedWith (fun _ => False) program

/-- A program after which nothing waits in the inbox if it is refused. -/
abbrev Clearing (program : Kernel β D N α) : Prop :=
  RefusedWith (fun machine => machine.inbox = []) program

namespace RefusedWith

variable {holds : Machine β D → Prop}

theorem of_ok
    {program : Kernel β D N α}
    (ends : ∀ run, ∃ value after, program run = .ok value after) :
    RefusedWith holds program := by
  intro run after refusal refused
  obtain ⟨value, other, ok⟩ := ends run
  rw [ok] at refused
  nomatch refused

theorem of_willing
    {program : Kernel β D N α}
    (willing : Willing program) :
    RefusedWith holds program := by
  intro run after refusal refused
  exact (willing refused).elim

theorem pure (value : α) : RefusedWith holds (Pure.pure value : Kernel β D N α) :=
  .of_ok fun run => ⟨value, run, rfl⟩

theorem log (event : LogEvent) : RefusedWith holds (Kernel.log event : Kernel β D N Unit) :=
  .of_ok fun _ => ⟨(), _, rfl⟩

theorem change (change : Machine β D → Machine β D) :
    RefusedWith holds (Kernel.changeMachine change : Kernel β D N Unit) :=
  .of_ok fun _ => ⟨(), _, rfl⟩

theorem addToHistory (source target : Option Kind) (subject : Option Serial) :
    RefusedWith holds (Kernel.addToHistory source target subject : Kernel β D N Unit) :=
  .of_ok fun _ => ⟨(), _, rfl⟩

/-- One program after the other. -/
theorem bind
    {program : Kernel β D N α}
    {next : α → Kernel β D N γ}
    (first : RefusedWith holds program)
    (second : ∀ value, RefusedWith holds (next value)) :
    RefusedWith holds (program >>= next) := by
  intro run after refusal refused
  rw [Kernel.bind_apply] at refused
  split at refused
  next value middle _ => exact second value refused
  next cause middle stopped =>
    cases refused
    exact first stopped

/-- A program that starts with a look at the machine. -/
theorem machine
    {next : Machine β D → Kernel β D N α}
    (each : ∀ machine, RefusedWith holds (next machine)) :
    RefusedWith holds (Kernel.machine >>= next) := by
  intro run after refusal refused
  exact each run.machine refused

/-- A program that is mended if it is refused. -/
theorem orMend
    (program : Kernel β D N α)
    {mend : Machine β D → Machine β D}
    (mends : ∀ machine, holds (mend machine)) :
    RefusedWith holds (Kernel.orMend program mend) := by
  intro run after refusal refused
  unfold Kernel.orMend at refused
  split at refused
  next failure left _ =>
    cases refused
    exact mends left.machine
  next _ notRefused => exact absurd refused (notRefused refusal after)

end RefusedWith

/-! ## Programs that are never refused -/

namespace Kernel

variable (conduct : Conduct β D N)

/-- The end of a hook is no refusal. -/
theorem ended_ne_refused
    (breakdown : Option String)
    (value : α)
    (run after : Run β D N)
    (refusal : Refusal) :
    ended breakdown value run ≠ .error (.refused refusal) after := by
  cases breakdown <;> nofun

/-- To call a hook is never refused; it can only break off. -/
theorem callCurrent_willing (hook : Hook) : Willing (callCurrent conduct hook) := by
  intro run after refusal refused
  cases present : run.machine.current with
  | none =>
      rw [callCurrent_apply_none conduct hook run present] at refused
      nomatch refused
  | some subject =>
      rw [callCurrent_apply_some conduct hook run subject present] at refused
      exact ended_ne_refused _ () _ after refusal refused

theorem exitCurrent_willing : Willing (exitCurrent conduct) := by
  intro run after refusal refused
  cases present : run.machine.current with
  | none =>
      rw [exitCurrent_apply_none conduct run present] at refused
      nomatch refused
  | some subject =>
      rw [exitCurrent_apply_some conduct run subject present] at refused
      exact ended_ne_refused _ _ _ after refusal refused

theorem parkOrDrop_willing (subject : Instance β) :
    Willing (parkOrDrop subject : Kernel β D N Unit) :=
  .of_ok fun run => ⟨(), _, parkOrDrop_apply subject run⟩

theorem letGo_willing (transition : Transition β) :
    Willing (letGo transition : Kernel β D N Unit) :=
  .of_ok fun run => ⟨(), _, letGo_apply transition run⟩

theorem enterNext_willing (next : Instance β) : Willing (enterNext conduct next) :=
  .bind (.change _) fun _ => callCurrent_willing conduct .enter

theorem release_willing (previous : Option (Instance β)) :
    Willing (release previous : Kernel β D N Unit) := by
  cases previous with
  | none => exact .pure ()
  | some previous => exact parkOrDrop_willing previous

theorem arrive_willing (source : Option Kind) (name : String) (next : Instance β) :
    Willing (arrive conduct source name next) :=
  .bind (.addToHistory _ _ _) fun _ => .bind (enterNext_willing conduct next) fun _ => .log _

theorem replaceCurrent_willing (next : Instance β) : Willing (replaceCurrent conduct next) := by
  rw [replaceCurrent_eq]
  refine .machine fun before => .bind (exitCurrent_willing conduct) fun previous => ?_
  exact .bind (release_willing previous) fun _ => arrive_willing conduct _ _ next

theorem reenterCurrent_willing (kind : Kind) (serial : Serial) :
    Willing (reenterCurrent conduct kind serial) := by
  apply RefusedWith.machine
  intro machine
  split
  · exact .bind (callCurrent_willing conduct .exit) fun _ =>
      .bind (callCurrent_willing conduct .enter) fun _ =>
        .bind (.addToHistory _ _ _) fun _ => .log _
  · exact .log _

/-- To make a transition is never refused: its state has been found before. -/
theorem carryOut_willing (transition : Transition β) : Willing (carryOut conduct transition) := by
  cases transition with
  | replace next => exact replaceCurrent_willing conduct next
  | reenter kind serial => exact reenterCurrent_willing conduct kind serial

theorem defer_willing (transition : Transition β) :
    Willing (defer transition : Kernel β D N Outcome) := by
  refine .machine fun machine => .bind (.change _) fun _ => .bind ?_ fun _ =>
    .bind (.log _) fun _ => .pure _
  cases machine.pending with
  | none => exact .pure none
  | some previous =>
      apply RefusedWith.bind (letGo_willing previous)
      intro _
      split
      · exact .pure none
      · exact .bind (.log _) fun _ => .pure _

/-- A transition can always be made or deferred. -/
theorem submit_willing (transition : Transition β) : Willing (submit conduct transition) := by
  apply RefusedWith.machine
  intro machine
  split
  · exact .bind (carryOut_willing conduct transition) fun _ => .pure _
  · exact defer_willing transition

/-! ## Programs that are refused with an empty inbox -/

/-- A refused request of a hook takes all the others in the inbox with it. -/
theorem serveAsked_clearing (asked : Request β) : Clearing (serveAsked conduct asked) :=
  .bind (.orMend _ fun _ => rfl) fun transition =>
    .bind (.of_willing (submit_willing conduct transition)) fun _ => .of_willing (.pure ())

theorem abortChain_clearing : Clearing (abortChain : Kernel β D N Unit) := by
  intro run after refusal refused
  cases refused
  rfl

theorem nextRequest_willing : Willing (nextRequest : Kernel β D N (Option (Request β))) := by
  refine .of_ok fun run => ?_
  rw [nextRequest_apply]
  split <;> exact ⟨_, _, rfl⟩

/-- A chain that is refused leaves an empty inbox. -/
theorem serveWithin_clearing (budget : Nat) : Clearing (serveWithin conduct budget) := by
  induction budget with
  | zero =>
      apply RefusedWith.machine
      intro machine
      split
      · exact .of_willing (.pure ())
      · exact abortChain_clearing
  | succ budget inductionHypothesis =>
      refine .bind (.of_willing nextRequest_willing) fun found => ?_
      cases found with
      | none => exact .of_willing (.pure ())
      | some asked =>
          exact .bind (serveAsked_clearing conduct asked) fun _ => inductionHypothesis

/-- Requests of hooks are served until none is left. -/
theorem serveWithin_ok
    (budget : Nat)
    {run after : Run β D N}
    (served : serveWithin conduct budget run = .ok () after) :
    after.machine.inbox = [] := by
  induction budget generalizing run with
  | zero =>
      obtain ⟨machine, _, looked, served⟩ := bind_ok served
      cases looked
      split at served
      next empty =>
        cases served
        exact List.isEmpty_iff.mp empty
      next => nomatch served
  | succ budget inductionHypothesis =>
      obtain ⟨found, middle, taken, served⟩ := bind_ok served
      rw [nextRequest_apply] at taken
      cases waiting : run.machine.inbox with
      | nil =>
          rw [waiting] at taken
          cases taken
          cases served
          exact waiting
      | cons asked more =>
          rw [waiting] at taken
          cases taken
          obtain ⟨_, between, _, served⟩ := bind_ok served
          exact inductionHypothesis served

/-- Whatever refuses the requests of hooks, none of them is left. -/
theorem serveHooks_clearing : Clearing (serveHooks conduct) :=
  .machine fun machine => serveWithin_clearing conduct (chainBudget machine)

/-- Requests of hooks are served until there are none. -/
theorem serveHooks_ok
    {run after : Run β D N}
    (served : serveHooks conduct run = .ok () after) :
    after.machine.inbox = [] :=
  serveWithin_ok conduct (chainBudget run.machine) served

theorem serveWithin_apply_empty
    (budget : Nat)
    (run : Run β D N)
    (empty : run.machine.inbox = []) :
    serveWithin conduct budget run = .ok () run := by
  cases budget with
  | zero =>
      have nothing : run.machine.inbox.isEmpty = true := List.isEmpty_iff.mpr empty
      rw [serveWithin, bind_apply, machine_apply]
      dsimp only
      rw [if_pos nothing, pure_apply]
  | succ budget =>
      rw [serveWithin, bind_apply, nextRequest_apply, empty]
      rfl

theorem serveHooks_apply_empty
    (run : Run β D N)
    (empty : run.machine.inbox = []) :
    serveHooks conduct run = .ok () run :=
  serveWithin_apply_empty conduct (chainBudget run.machine) run empty

/-! ## Requests that were posted through handles -/

/-- A posted request that is refused leaves no request of a hook behind. -/
theorem servePosted_refused
    {posted : Request β}
    {run after : Run β D N}
    {refusal : Refusal}
    (empty : run.machine.inbox = [])
    (refused : servePosted conduct posted run = .error (.refused refusal) after) :
    after.machine.inbox = [] := by
  have carried : ∀ transition, Clearing (do
      let _ ← submit conduct transition
      serveHooks conduct) := fun transition =>
    .bind (.of_willing (submit_willing conduct transition)) fun _ => serveHooks_clearing conduct
  rw [servePosted, bind_apply] at refused
  split at refused
  next transition middle _ => exact carried transition refused
  next cause middle stopped =>
    cases refused
    rw [takeUp_refused stopped]
    exact empty

/-- After a posted request has been served, so has everything that it led to. -/
theorem servePosted_ok
    {posted : Request β}
    {run after : Run β D N}
    (served : servePosted conduct posted run = .ok () after) :
    after.machine.inbox = [] := by
  obtain ⟨transition, _, _, served⟩ := bind_ok served
  obtain ⟨outcome, _, _, served⟩ := bind_ok served
  exact serveHooks_ok conduct served

/-- Serving one request before others: if it is refused, the others wait in the inbox. -/
theorem serveInOrder_cons
    (posted : Request β)
    (more : List (Request β))
    (run : Run β D N)
    (empty : run.machine.inbox = []) :
    serveInOrder conduct (posted :: more) run =
      match servePosted conduct posted run with
      | .ok () middle => serveInOrder conduct more middle
      | .error (.refused refusal) after => .error (.refused refusal) (after.requeue more)
      | .error (.brokenOff message) after => .error (.brokenOff message) after := by
  rw [serveInOrder, bind_apply]
  unfold orMend
  cases first : servePosted conduct posted run with
  | ok value middle => rfl
  | error cause after =>
      cases cause with
      | refused refusal =>
          have cleared := servePosted_refused conduct empty first
          simp [Run.requeue, Run.mapMachine, cleared]
      | brokenOff message => rfl

theorem serveInOrder_ok
    {queued : List (Request β)}
    {run after : Run β D N}
    (empty : run.machine.inbox = [])
    (served : serveInOrder conduct queued run = .ok () after) :
    after.machine.inbox = [] := by
  induction queued generalizing run with
  | nil =>
      cases served
      exact empty
  | cons posted more inductionHypothesis =>
      rw [serveInOrder_cons conduct posted more run empty] at served
      split at served
      next middle first => exact inductionHypothesis (servePosted_ok conduct first) served
      next => nomatch served
      next => nomatch served

/-- Requests can be served in two parts. -/
theorem serveInOrder_append
    (first second : List (Request β))
    (run : Run β D N)
    (empty : run.machine.inbox = []) :
    serveInOrder conduct (first ++ second) run =
      match serveInOrder conduct first run with
      | .ok () middle => serveInOrder conduct second middle
      | .error (.refused refusal) after => .error (.refused refusal) (after.requeue second)
      | .error (.brokenOff message) after => .error (.brokenOff message) after := by
  induction first generalizing run with
  | nil => rfl
  | cons posted more inductionHypothesis =>
      rw [List.cons_append, serveInOrder_cons conduct posted _ run empty,
        serveInOrder_cons conduct posted more run empty]
      cases served : servePosted conduct posted run with
      | ok value middle => exact inductionHypothesis middle (servePosted_ok conduct served)
      | error cause after =>
          cases cause with
          | refused refusal => simp [Run.requeue, Run.mapMachine]
          | brokenOff message => rfl

theorem serveHandles_apply (run : Run β D N) :
    serveHandles conduct run =
      serveInOrder conduct run.machine.inbox (run.mapMachine emptied) := rfl

/-- A call that gets to its own work starts it with an empty inbox. -/
theorem serveHandles_ok
    {run after : Run β D N}
    (served : serveHandles conduct run = .ok () after) :
    after.machine.inbox = [] := by
  rw [serveHandles_apply] at served
  exact serveInOrder_ok conduct rfl served

theorem serveHandles_apply_empty
    (run : Run β D N)
    (empty : run.machine.inbox = []) :
    serveHandles conduct run = .ok () run := by
  have unchanged : run.mapMachine emptied = run := by
    simp only [Run.mapMachine, emptied, ← empty]
  rw [serveHandles_apply, empty, unchanged]
  rfl

end Kernel
end TickMachine
