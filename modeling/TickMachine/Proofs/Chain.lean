import Mathlib.Data.List.Infix
import TickMachine.Proofs.Stillness

/-!
# Chains of requests

What hooks ask for is served oldest first, one request after the other, and what the hooks of a
request ask for in turn goes to the end of the inbox.  In immediate mode the chain of requests
ends when the inbox is empty, or when a request cannot be taken up, or when a hook breaks off, or
when as many requests have been served as the configuration allows and another one waits.  In
deferred mode it ends when the requests that wait at the start have been served, or one of them
cannot be taken up.

The reference here serves one request at a time and knows no limit.
-/

namespace TickMachine

variable {β D N α γ : Type}

/-! ## The requests of a chain, one by one -/

/-- Why a machine cannot take a request up, if it cannot. -/
def Request.refusal? (machine : Machine β D) : Request β → Option Refusal
  | .fresh kind =>
      match machine.registry.prototype kind with
      | .error refusal => some refusal
      | .ok _ => none
  | .existing subject =>
      if subject.owner = machine.id then none else some (.foreign subject.serial)

namespace Run

/-- The run with other requests in the inbox. -/
def withInbox (run : Run β D N) (inbox : List (Request β)) : Run β D N :=
  run.mapMachine fun machine => { machine with inbox := inbox }

/-- Serves the oldest request in the inbox, if there is one. -/
def serveOldest (conduct : Conduct β D N) (run : Run β D N) :
    Option (EStateM.Result Interruption (Run β D N) Outcome) :=
  match run.machine.inbox with
  | [] => none
  | asked :: more =>
      some ((Kernel.takeUp .hook asked >>= Kernel.submit conduct) (run.withInbox more))

/-- The run after a number of requests have been served one by one, if that many could be. -/
def serveTimes (conduct : Conduct β D N) : Nat → Run β D N → Option (Run β D N)
  | 0, run => some run
  | count + 1, run =>
      match run.serveOldest conduct with
      | some (.ok _ after) => serveTimes conduct count after
      | _ => none

/-- The oldest request cannot be taken up.  It is in the journal, and the inbox is emptied. -/
def StuckAt (run : Run β D N) (refusal : Refusal) (after : Run β D N) : Prop :=
  ∃ asked more,
    run.machine.inbox = asked :: more ∧
    asked.refusal? run.machine = some refusal ∧
    after = (run.write (.taken .hook asked.label)).mapMachine Kernel.emptied

/-- The run after a chain has been given up, when the inbox has been emptied. -/
def aborted (run : Run β D N) : Run β D N :=
  (run.mapMachine Kernel.emptied).write (.logged (.chainAborted run.machine.config.chainLimit))

/-- How a chain ends at a run when so many requests more may be served. -/
inductive Ends (conduct : Conduct β D N) (run : Run β D N) :
    Nat → EStateM.Result Interruption (Run β D N) Unit → Prop where
  /-- No request waits. -/
  | done (rest : Nat) (empty : run.machine.inbox = []) : Ends conduct run rest (.ok () run)
  /-- The oldest request cannot be taken up. -/
  | stuck (rest : Nat) {refusal : Refusal} {after : Run β D N} (stuck : run.StuckAt refusal after) :
      Ends conduct run (rest + 1) (.error (.refused refusal) after)
  /-- A hook breaks off. -/
  | broken (rest : Nat) {message : String} {after : Run β D N}
      (served : run.serveOldest conduct = some (.error (.brokenOff message) after)) :
      Ends conduct run (rest + 1) (.error (.brokenOff message) after)
  /-- A request waits, but none may be served any more. -/
  | aborted (waiting : run.machine.inbox ≠ []) :
      Ends conduct run 0
        (.error (.refused (.chainTooLong run.machine.config.chainLimit)) run.aborted)

end Run

/-! ## Programs that leave what waits in the inbox -/

namespace Kernel

/-- Whatever waited in the inbox still waits in front when the program is over. -/
def Appending (program : Kernel β D N α) : Prop :=
  ∀ run : Run β D N, run.machine.inbox <+: (program.final run).machine.inbox

namespace Appending

theorem of_ok
    {program : Kernel β D N α}
    (ends : ∀ run, ∃ value after,
      program run = .ok value after ∧ after.machine.inbox = run.machine.inbox) :
    Appending program := by
  intro run
  obtain ⟨value, after, done, same⟩ := ends run
  rw [final_of_ok done, same]

theorem bind
    {program : Kernel β D N α}
    {next : α → Kernel β D N γ}
    (first : Appending program)
    (rest : ∀ value, Appending (next value)) :
    Appending (program >>= next) := by
  intro run
  have start := first run
  cases ends : program run with
  | ok value middle =>
      rw [final_of_ok ends] at start
      rw [final_bind_ok ends]
      exact start.trans (rest value middle)
  | error cause after =>
      rw [final_bind_error ends]
      exact start

/-- A program that starts with a look at the machine. -/
theorem machine
    {next : Machine β D → Kernel β D N α}
    (each : ∀ machine, Appending (next machine)) :
    Appending (Kernel.machine >>= next) :=
  fun run => each run.machine run

theorem pure (value : α) : Appending (Pure.pure value : Kernel β D N α) :=
  .of_ok fun run => ⟨value, run, rfl, rfl⟩

theorem log (event : LogEvent) : Appending (Kernel.log event : Kernel β D N Unit) :=
  .of_ok fun _ => ⟨(), _, rfl, rfl⟩

theorem addToHistory (source target : Option Kind) (subject : Option Serial) :
    Appending (Kernel.addToHistory source target subject : Kernel β D N Unit) :=
  .of_ok fun _ => ⟨(), _, rfl, rfl⟩

end Appending

section Programs

variable (conduct : Conduct β D N)

/-- A hook of the current state puts what it asks for at the end of the inbox. -/
theorem callCurrent_appending (hook : Hook) : Appending (callCurrent conduct hook) := by
  intro run
  cases present : run.machine.current with
  | none =>
      rw [final_of_ok (callCurrent_apply_none conduct hook run present)]
  | some subject =>
      rw [final_of_ended (callCurrent_apply_some conduct hook run subject present)]
      exact List.prefix_append _ _

/-- What the exit hook asks for waits behind what is there. -/
theorem exitCurrent_appending : Appending (exitCurrent conduct) := by
  intro run
  cases present : run.machine.current with
  | none =>
      rw [final_of_ok (exitCurrent_apply_none conduct run present)]
  | some subject =>
      rw [final_of_ended (exitCurrent_apply_some conduct run subject present)]
      exact List.prefix_append _ _

theorem release_appending (previous : Option (Instance β)) :
    Appending (release previous : Kernel β D N Unit) := by
  cases previous with
  | none => exact .pure ()
  | some previous =>
      exact .of_ok fun run =>
        ⟨(), _, parkOrDrop_apply previous run, by rw [Run.released_machine]⟩

theorem arrive_appending (source : Option Kind) (name : String) (next : Instance β) :
    Appending (arrive conduct source name next) := by
  have enters : Appending (enterNext conduct next) := by
    intro run
    rw [final_of_ended (enterNext_apply conduct next run)]
    exact List.prefix_append _ _
  exact .bind (.addToHistory _ _ _) fun _ => .bind enters fun _ => .log _

/-- What the hooks of a transition ask for waits behind what is there. -/
theorem carryOut_appending (transition : Transition β) :
    Appending (carryOut conduct transition) := by
  cases transition with
  | replace next =>
      rw [carryOut, replaceCurrent_eq]
      refine .machine fun before => .bind (exitCurrent_appending conduct) fun previous => ?_
      exact .bind (release_appending previous) fun _ => arrive_appending conduct _ _ next
  | reenter kind serial =>
      refine .machine fun before => ?_
      split
      · exact .bind (callCurrent_appending conduct .exit) fun _ =>
          .bind (callCurrent_appending conduct .enter) fun _ =>
            .bind (.addToHistory _ _ _) fun _ => .log _
      · exact .log _

/-- In deferred mode a transition that is submitted leaves the inbox as it is. -/
theorem submit_inbox
    {transition : Transition β}
    {run after : Run β D N}
    {outcome : Outcome}
    (patient : run.machine.config.immediate = false)
    (submitted : submit conduct transition run = .ok outcome after) :
    after.machine.inbox = run.machine.inbox := by
  rw [submit_apply_deferred conduct transition run patient] at submitted
  cases submitted
  obtain ⟨-, -, parked, machine⟩ := run.deferred_frame transition
  rw [machine]

/-- A transition that is submitted leaves what waits in the inbox in front. -/
theorem submit_appending (transition : Transition β) : Appending (submit conduct transition) := by
  refine .machine fun before => ?_
  split
  · exact .bind (carryOut_appending conduct transition) fun _ => .pure _
  · refine .of_ok fun run => ⟨_, _, defer_apply transition run, ?_⟩
    obtain ⟨-, -, parked, machine⟩ := run.deferred_frame transition
    rw [machine]

end Programs

/-! ## Requests that cannot be taken up -/

/-- A request that the machine cannot take up is refused before anything is changed. -/
theorem takeUp_unresolved
    (origin : Origin)
    {request : Request β}
    {run : Run β D N}
    {refusal : Refusal}
    (unknown : request.refusal? run.machine = some refusal) :
    takeUp origin request run =
      .error (.refused refusal) (run.write (.taken origin request.label)) := by
  cases request with
  | fresh kind =>
      rw [takeUp_fresh]
      rw [Request.refusal?] at unknown
      cases known : run.machine.registry.prototype kind with
      | ok behavior =>
          rw [known] at unknown
          cases unknown
      | error cause =>
          rw [known] at unknown
          cases unknown
          rfl
  | existing subject =>
      rw [takeUp_existing]
      rw [Request.refusal?] at unknown
      split at unknown
      next => cases unknown
      next foreign =>
        cases unknown
        rw [if_neg foreign]

/-- Any other request is taken up. -/
theorem takeUp_resolved
    (origin : Origin)
    {request : Request β}
    {run : Run β D N}
    (known : request.refusal? run.machine = none) :
    ∃ transition after, takeUp origin request run = .ok transition after := by
  cases request with
  | fresh kind =>
      rw [takeUp_fresh]
      rw [Request.refusal?] at known
      cases found : run.machine.registry.prototype kind with
      | ok behavior => exact ⟨_, _, rfl⟩
      | error cause =>
          rw [found] at known
          cases known
  | existing subject =>
      rw [takeUp_existing]
      rw [Request.refusal?] at known
      split at known
      next own => exact ⟨_, _, if_pos own⟩
      next => cases known

end Kernel

/-- A request that cannot be taken up is not refused for a chain that is too long. -/
theorem Request.refusal?_short
    (machine : Machine β D)
    (request : Request β)
    (limit : UInt64) :
    request.refusal? machine ≠ some (.chainTooLong limit) := by
  intro unknown
  cases request with
  | fresh kind =>
      rw [refusal?] at unknown
      cases found : machine.registry.prototype kind with
      | ok behavior =>
          rw [found] at unknown
          cases unknown
      | error refusal =>
          obtain ⟨reason, rfl⟩ := Kernel.prototype_refused _ _ _ found
          rw [found] at unknown
          cases unknown
  | existing subject =>
      rw [refusal?] at unknown
      split at unknown
      · cases unknown
      · cases unknown

/-- To be stuck at a request is something else than a chain that is too long. -/
theorem Run.StuckAt.short
    {run after : Run β D N}
    {limit : UInt64} :
    ¬ run.StuckAt (.chainTooLong limit) after := by
  rintro ⟨asked, more, -, unknown, -⟩
  exact asked.refusal?_short run.machine limit unknown

/-! ## One request -/

section Oldest

variable {conduct : Conduct β D N} {run after : Run β D N} {asked : Request β}
  {more : List (Request β)}

theorem Run.serveOldest_empty (empty : run.machine.inbox = []) :
    run.serveOldest conduct = none := by
  unfold serveOldest
  rw [empty]

/-- The oldest request is taken up and submitted. -/
theorem Run.serveOldest_waiting (waiting : run.machine.inbox = asked :: more) :
    run.serveOldest conduct =
      some ((Kernel.takeUp .hook asked >>= Kernel.submit conduct) (run.withInbox more)) := by
  unfold serveOldest
  rw [waiting]

/-- The chain is stuck where the oldest request cannot be taken up. -/
theorem Run.serveOldest_stuck
    {refusal : Refusal}
    (waiting : run.machine.inbox = asked :: more)
    (unknown : asked.refusal? run.machine = some refusal) :
    run.serveOldest conduct =
      some (.error (.refused refusal)
        ((run.withInbox more).write (.taken .hook asked.label))) := by
  have unknownThen : asked.refusal? (run.withInbox more).machine = some refusal := by
    cases asked <;> exact unknown
  rw [serveOldest_waiting waiting, Kernel.bind_apply, Kernel.takeUp_unresolved .hook unknownThen]

/-- A request that can be taken up is served, or else a hook breaks off. -/
theorem Run.serveOldest_resolved
    (conduct : Conduct β D N)
    (waiting : run.machine.inbox = asked :: more)
    (known : asked.refusal? run.machine = none) :
    (∃ outcome after, run.serveOldest conduct = some (.ok outcome after)) ∨
      ∃ message after, run.serveOldest conduct = some (.error (.brokenOff message) after) := by
  have knownThen : asked.refusal? (run.withInbox more).machine = none := by
    cases asked <;> exact known
  obtain ⟨transition, middle, taken⟩ := Kernel.takeUp_resolved .hook knownThen
  rw [serveOldest_waiting waiting, Kernel.bind_apply, taken]
  dsimp only
  cases ends : Kernel.submit conduct transition middle with
  | ok outcome after => exact .inl ⟨outcome, after, rfl⟩
  | error cause after =>
      cases cause with
      | refused refusal => exact (Kernel.submit_willing conduct transition ends).elim
      | brokenOff message => exact .inr ⟨message, after, rfl⟩

/-- A request that has been served was the oldest one.  Those behind it wait in front now, and in
deferred mode no other ones. -/
theorem Run.serveOldest_ok
    {outcome : Outcome}
    (served : run.serveOldest conduct = some (.ok outcome after)) :
    ∃ asked more added,
      run.machine.inbox = asked :: more ∧
      after.machine.inbox = more ++ added ∧
      (run.machine.config.immediate = false → added = []) ∧
      Steps conduct [] ⟨.idle, [], run⟩ ⟨.idle, [], after⟩ := by
  cases waiting : run.machine.inbox with
  | nil =>
      rw [serveOldest_empty waiting] at served
      cases served
  | cons asked more =>
      rw [serveOldest_waiting waiting] at served
      obtain ⟨transition, middle, taken, submitted⟩ := Kernel.bind_ok (Option.some.inj served)
      obtain ⟨made, -, machine⟩ := Kernel.takeUp_machine taken
      have inbox : middle.machine.inbox = more := by
        rw [machine]
        rfl
      have kept := Kernel.submit_appending conduct transition middle
      rw [Kernel.final_of_ok submitted, inbox] at kept
      obtain ⟨added, appended⟩ := kept
      refine ⟨asked, more, added, rfl, appended.symm, fun patient => ?_, ?_⟩
      · have patientThen : middle.machine.config.immediate = false := by
          rw [machine]
          exact patient
        have same := Kernel.submit_inbox conduct patientThen submitted
        rw [inbox, ← appended] at same
        exact List.append_right_eq_self.mp same
      · have next : Step conduct [] ⟨.idle, [], run⟩
            ⟨.idle, [asked], run.mapMachine fun machine => { machine with inbox := more }⟩ :=
          .next asked more waiting
        have takes : Steps conduct [] ⟨.idle, [asked], run.withInbox more⟩
            ⟨.found transition, [], middle⟩ :=
          (Kernel.takeUp_follows .hook asked nofun).steps_ok taken
        have submits : Steps conduct [] ⟨.found transition, [], middle⟩ ⟨.idle, [], after⟩ :=
          (Kernel.submit_follows transition).steps_ok submitted
        exact .head next (takes.trans submits)

end Oldest

/-! ## Any number of requests -/

section Times

variable {conduct : Conduct β D N} {run middle : Run β D N} {count : Nat}

/-- Serving one request after another is a course of steps. -/
theorem Run.serveTimes_steps (served : run.serveTimes conduct count = some middle) :
    Steps conduct [] ⟨.idle, [], run⟩ ⟨.idle, [], middle⟩ := by
  induction count generalizing run with
  | zero =>
      cases served
      exact .refl
  | succ count inductionHypothesis =>
      rw [serveTimes] at served
      split at served
      next outcome after first =>
        obtain ⟨-, -, -, -, -, -, steps⟩ := serveOldest_ok first
        exact steps.trans (inductionHypothesis served)
      next => cases served

/-- The requests that have been served were the oldest ones of all that have come in.  In deferred
mode none have come in meanwhile. -/
theorem Run.serveTimes_inbox (served : run.serveTimes conduct count = some middle) :
    ∃ added,
      count ≤ (run.machine.inbox ++ added).length ∧
      middle.machine.inbox = (run.machine.inbox ++ added).drop count ∧
      (run.machine.config.immediate = false → added = []) := by
  induction count generalizing run with
  | zero =>
      cases served
      exact ⟨[], Nat.zero_le _, (List.append_nil _).symm, fun _ => rfl⟩
  | succ count inductionHypothesis =>
      rw [serveTimes] at served
      split at served
      next outcome after first =>
        obtain ⟨asked, more, early, waiting, inbox, quiet, steps⟩ := serveOldest_ok first
        obtain ⟨late, enough, left, silent⟩ := inductionHypothesis served
        have config : after.machine.config = run.machine.config := steps.fixed.2.1
        rw [inbox, List.append_assoc] at enough left
        rw [waiting]
        refine ⟨early ++ late, Nat.succ_le_succ enough, left, fun patient => ?_⟩
        rw [quiet patient, silent (config ▸ patient)]
        rfl
      next => cases served

end Times

/-! ## Chains -/

namespace Kernel

variable {conduct : Conduct β D N} {run middle : Run β D N}

theorem serveWithin_succ_waiting
    (conduct : Conduct β D N)
    (rest : Nat)
    {asked : Request β}
    {more : List (Request β)}
    (waiting : run.machine.inbox = asked :: more) :
    serveWithin conduct (rest + 1) run =
      (do serveAsked conduct asked; serveWithin conduct rest) (run.withInbox more) := by
  rw [serveWithin, bind_apply, nextRequest_apply, waiting]
  rfl

/-- As long as requests may be served, the oldest one is next. -/
theorem serveWithin_succ_apply (rest : Nat) (run : Run β D N) :
    serveWithin conduct (rest + 1) run =
      match run.serveOldest conduct with
      | none => .ok () run
      | some (.ok _ after) => serveWithin conduct rest after
      | some (.error (.refused refusal) after) =>
          .error (.refused refusal) (after.mapMachine emptied)
      | some (.error (.brokenOff message) after) => .error (.brokenOff message) after := by
  cases waiting : run.machine.inbox with
  | nil =>
      rw [serveWithin_apply_empty conduct (rest + 1) run waiting, Run.serveOldest_empty waiting]
  | cons asked more =>
      rw [serveWithin_succ_waiting conduct rest waiting, Run.serveOldest_waiting waiting,
        bind_apply, serveAsked, bind_apply, orMend, bind_apply]
      cases taken : takeUp .hook asked (run.withInbox more) with
      | error cause after => cases cause <;> rfl
      | ok transition middle =>
          dsimp only
          rw [bind_apply]
          cases submitted : submit conduct transition middle with
          | ok outcome after => rfl
          | error cause after =>
              cases cause with
              | refused refusal => exact (submit_willing conduct transition submitted).elim
              | brokenOff message => rfl

/-- With no budget left, a request that still waits ends the chain and empties the inbox. -/
theorem serveWithin_zero_apply
    (run : Run β D N)
    (waiting : run.machine.inbox ≠ []) :
    serveWithin conduct 0 run =
      .error (.refused (.chainTooLong run.machine.config.chainLimit)) run.aborted := by
  have nonempty : run.machine.inbox.isEmpty = false := List.isEmpty_eq_false_iff.mpr waiting
  rw [serveWithin, bind_apply, machine_apply]
  dsimp only
  rw [nonempty]
  rfl

/-- What has been served counts against the budget. -/
theorem serveWithin_served
    {count : Nat}
    (rest : Nat)
    (served : run.serveTimes conduct count = some middle) :
    serveWithin conduct (count + rest) run = serveWithin conduct rest middle := by
  induction count generalizing run with
  | zero =>
      cases served
      rw [Nat.zero_add]
  | succ count inductionHypothesis =>
      rw [Run.serveTimes] at served
      split at served
      next outcome after first =>
        rw [Nat.succ_add, serveWithin_succ_apply, first]
        exact inductionHypothesis served
      next => cases served

/-- Serving within a budget comes to whatever end the chain has. -/
theorem serveWithin_ends
    {rest : Nat}
    {result : EStateM.Result Interruption (Run β D N) Unit}
    (ends : run.Ends conduct rest result) :
    serveWithin conduct rest run = result := by
  cases ends with
  | done rest empty => exact serveWithin_apply_empty conduct rest run empty
  | stuck rest stuck =>
      obtain ⟨asked, more, waiting, unknown, rfl⟩ := stuck
      rw [serveWithin_succ_apply, Run.serveOldest_stuck waiting unknown]
      rfl
  | broken rest served => rw [serveWithin_succ_apply, served]
  | aborted waiting => exact serveWithin_zero_apply run waiting

/-- Every chain comes to its end. -/
theorem exists_ends (conduct : Conduct β D N) (budget : Nat) (run : Run β D N) :
    ∃ count rest middle,
      count + rest = budget ∧
      run.serveTimes conduct count = some middle ∧
      middle.Ends conduct rest (serveWithin conduct budget run) := by
  induction budget generalizing run with
  | zero =>
      refine ⟨0, 0, run, rfl, rfl, ?_⟩
      by_cases empty : run.machine.inbox = []
      · rw [serveWithin_apply_empty conduct 0 run empty]
        exact .done 0 empty
      · rw [serveWithin_zero_apply run empty]
        exact .aborted empty
  | succ budget inductionHypothesis =>
      have here {result : EStateM.Result Interruption (Run β D N) Unit}
          (ends : run.Ends conduct (budget + 1) result) :
          ∃ count rest middle,
            count + rest = budget + 1 ∧
            run.serveTimes conduct count = some middle ∧
            middle.Ends conduct rest (serveWithin conduct (budget + 1) run) :=
        ⟨0, budget + 1, run, Nat.zero_add _, rfl, (serveWithin_ends ends).symm ▸ ends⟩
      cases waiting : run.machine.inbox with
      | nil => exact here (.done _ waiting)
      | cons asked more =>
          cases resolved : asked.refusal? run.machine with
          | some refusal => exact here (.stuck budget ⟨asked, more, waiting, resolved, rfl⟩)
          | none =>
              obtain ⟨outcome, after, served⟩ | ⟨message, after, broken⟩ :=
                Run.serveOldest_resolved conduct waiting resolved
              · obtain ⟨count, rest, middle, sum, times, ends⟩ := inductionHypothesis after
                refine ⟨count + 1, rest, middle, by omega, ?_, ?_⟩
                · rw [Run.serveTimes, served]
                  exact times
                · rw [serveWithin_succ_apply, served]
                  exact ends
              · exact here (.broken budget broken)

/-- What the serving of a chain comes to is the end of the requests served one by one. -/
theorem serveWithin_iff
    {budget : Nat}
    {result : EStateM.Result Interruption (Run β D N) Unit} :
    serveWithin conduct budget run = result ↔
      ∃ count rest middle,
        count + rest = budget ∧
        run.serveTimes conduct count = some middle ∧
        middle.Ends conduct rest result := by
  constructor
  · rintro rfl
    exact exists_ends conduct budget run
  · rintro ⟨count, rest, middle, rfl, served, ends⟩
    rw [serveWithin_served rest served]
    exact serveWithin_ends ends

end Kernel

/-! ## Chains in immediate mode -/

section Immediate

variable {conduct : Conduct β D N} {run : Run β D N}

theorem Run.serveTimes_chainLimit
    {middle : Run β D N}
    {count : Nat}
    (served : run.serveTimes conduct count = some middle) :
    middle.machine.config.chainLimit = run.machine.config.chainLimit :=
  congrArg Config.chainLimit (serveTimes_steps served).fixed.2.1

namespace Kernel

theorem serveHooks_immediate_apply
    (conduct : Conduct β D N)
    (immediate : run.machine.config.immediate = true) :
    serveHooks conduct run = serveWithin conduct run.machine.config.chainLimit.toNat run := by
  have budget : chainBudget run.machine = run.machine.config.chainLimit.toNat := by
    rw [chainBudget, immediate]
    rfl
  rw [← budget]
  rfl

/-- A chain ends well if and only if the inbox is empty after at most as many requests as the
limit. -/
theorem serveHooks_immediate_ok_iff
    (immediate : run.machine.config.immediate = true)
    (after : Run β D N) :
    serveHooks conduct run = .ok () after ↔
      ∃ count ≤ run.machine.config.chainLimit.toNat,
        run.serveTimes conduct count = some after ∧ after.machine.inbox = [] := by
  rw [serveHooks_immediate_apply conduct immediate, serveWithin_iff]
  constructor
  · rintro ⟨count, rest, middle, sum, served, ends⟩
    cases ends with
    | done rest empty => exact ⟨count, by omega, served, empty⟩
  · rintro ⟨count, within, served, empty⟩
    exact ⟨count, _, after, Nat.add_sub_of_le within, served, .done _ empty⟩

/-- A chain is refused at a request within the limit, or because of the limit. -/
theorem serveHooks_immediate_refused_iff
    (immediate : run.machine.config.immediate = true)
    (refusal : Refusal)
    (after : Run β D N) :
    serveHooks conduct run = .error (.refused refusal) after ↔
      (∃ count < run.machine.config.chainLimit.toNat, ∃ middle,
        run.serveTimes conduct count = some middle ∧ middle.StuckAt refusal after) ∨
      (refusal = .chainTooLong run.machine.config.chainLimit ∧ ∃ middle,
        run.serveTimes conduct run.machine.config.chainLimit.toNat = some middle ∧
          middle.machine.inbox ≠ [] ∧ after = middle.aborted) := by
  rw [serveHooks_immediate_apply conduct immediate, serveWithin_iff]
  constructor
  · rintro ⟨count, rest, middle, sum, served, ends⟩
    cases ends with
    | stuck rest stuck => exact .inl ⟨count, by omega, middle, served, stuck⟩
    | aborted waiting =>
        rw [Nat.add_zero] at sum
        subst sum
        exact .inr ⟨by rw [Run.serveTimes_chainLimit served], middle, served, waiting, rfl⟩
  · rintro (⟨count, within, middle, served, stuck⟩ | ⟨rfl, middle, served, waiting, rfl⟩)
    · obtain ⟨rest, sum⟩ := Nat.exists_eq_add_of_lt within
      exact ⟨count, rest + 1, middle, sum.symm, served, .stuck rest stuck⟩
    · refine ⟨_, 0, middle, rfl, served, ?_⟩
      rw [← Run.serveTimes_chainLimit served]
      exact .aborted waiting

/-- A chain breaks off if and only if one of its requests does, within the limit. -/
theorem serveHooks_immediate_broken_iff
    (immediate : run.machine.config.immediate = true)
    (message : String)
    (after : Run β D N) :
    serveHooks conduct run = .error (.brokenOff message) after ↔
      ∃ count < run.machine.config.chainLimit.toNat, ∃ middle,
        run.serveTimes conduct count = some middle ∧
          middle.serveOldest conduct = some (.error (.brokenOff message) after) := by
  rw [serveHooks_immediate_apply conduct immediate, serveWithin_iff]
  constructor
  · rintro ⟨count, rest, middle, sum, served, ends⟩
    cases ends with
    | broken rest broken => exact ⟨count, by omega, middle, served, broken⟩
  · rintro ⟨count, within, middle, served, broken⟩
    obtain ⟨rest, sum⟩ := Nat.exists_eq_add_of_lt within
    exact ⟨count, rest + 1, middle, sum.symm, served, .broken rest broken⟩

end Kernel

end Immediate

/-! ## Chains in deferred mode -/

section Patient

variable {conduct : Conduct β D N} {run middle : Run β D N} {count : Nat}

/-- In deferred mode only requests that wait already are served. -/
theorem Run.serveTimes_patient
    (patient : run.machine.config.immediate = false)
    (served : run.serveTimes conduct count = some middle) :
    count ≤ run.machine.inbox.length ∧
      middle.machine.inbox = run.machine.inbox.drop count ∧
      middle.machine.config.immediate = false := by
  obtain ⟨added, enough, left, silent⟩ := serveTimes_inbox served
  have config := (serveTimes_steps served).fixed.2.1
  rw [silent patient, List.append_nil] at enough left
  exact ⟨enough, left, (congrArg Config.immediate config).trans patient⟩

/-- In deferred mode the serving of a request calls no hook that could break off. -/
theorem Run.serveOldest_patient
    {message : String}
    {after : Run β D N}
    (patient : run.machine.config.immediate = false) :
    run.serveOldest conduct ≠ some (.error (.brokenOff message) after) := by
  intro broken
  cases waiting : run.machine.inbox with
  | nil =>
      rw [serveOldest_empty waiting] at broken
      cases broken
  | cons asked more =>
      cases resolved : asked.refusal? run.machine with
      | some refusal =>
          rw [serveOldest_stuck waiting resolved] at broken
          cases broken
      | none =>
          rw [serveOldest_waiting waiting] at broken
          rcases Kernel.bind_error (Option.some.inj broken) with early | ⟨_, between, taken, late⟩
          · have known : asked.refusal? (run.withInbox more).machine = none := by
              cases asked <;> exact resolved
            obtain ⟨transition, other, taken⟩ := Kernel.takeUp_resolved .hook known
            rw [taken] at early
            cases early
          · obtain ⟨made, -, machine⟩ := Kernel.takeUp_machine taken
            have patientThen : between.machine.config.immediate = false := by
              rw [machine]
              exact patient
            rw [Kernel.submit_apply_deferred conduct _ between patientThen] at late
            cases late

/-- In deferred mode a chain ends when all its requests have been served, or at one that cannot be
taken up. -/
theorem Kernel.serveHooks_patient_iff
    {result : EStateM.Result Interruption (Run β D N) Unit}
    (patient : run.machine.config.immediate = false) :
    serveHooks conduct run = result ↔
      ∃ count middle,
        run.serveTimes conduct count = some middle ∧
        (middle.machine.inbox = [] ∧ result = .ok () middle ∨
          ∃ refusal after,
            middle.StuckAt refusal after ∧ result = .error (.refused refusal) after) := by
  have budget : chainBudget run.machine = run.machine.inbox.length := by
    rw [chainBudget, patient]
    rfl
  have unfolded : serveHooks conduct run = serveWithin conduct run.machine.inbox.length run := by
    rw [← budget]
    rfl
  rw [unfolded, serveWithin_iff]
  constructor
  · rintro ⟨count, rest, middle, sum, served, ends⟩
    obtain ⟨-, left, patientThen⟩ := Run.serveTimes_patient patient served
    refine ⟨count, middle, served, ?_⟩
    cases ends with
    | done rest empty => exact .inl ⟨empty, rfl⟩
    | stuck rest stuck => exact .inr ⟨_, _, stuck, rfl⟩
    | broken rest broken => exact absurd broken (Run.serveOldest_patient patientThen)
    | aborted waiting =>
        rw [left, List.drop_eq_nil_of_le (by omega)] at waiting
        exact absurd rfl waiting
  · rintro ⟨count, middle, served, ⟨empty, rfl⟩ | ⟨refusal, after, stuck, rfl⟩⟩
    · obtain ⟨within, -, -⟩ := Run.serveTimes_patient patient served
      exact ⟨count, _, middle, Nat.add_sub_of_le within, served, .done _ empty⟩
    · obtain ⟨-, left, -⟩ := Run.serveTimes_patient patient served
      obtain ⟨asked, more, waiting, unknown, same⟩ := stuck
      have length := congrArg List.length (waiting.symm.trans left)
      rw [List.length_cons, List.length_drop] at length
      exact ⟨count, more.length + 1, middle, by omega, served,
        .stuck _ ⟨asked, more, waiting, unknown, same⟩⟩

/-- In deferred mode, a chain ends well whatever its length. -/
theorem Kernel.serveHooks_patient_ok_iff
    (patient : run.machine.config.immediate = false)
    (after : Run β D N) :
    serveHooks conduct run = .ok () after ↔
      ∃ count, run.serveTimes conduct count = some after ∧ after.machine.inbox = [] := by
  rw [serveHooks_patient_iff patient]
  constructor
  · rintro ⟨count, middle, served, ⟨empty, done⟩ | ⟨_, _, _, done⟩⟩
    · cases done
      exact ⟨count, served, empty⟩
    · cases done
  · rintro ⟨count, served, empty⟩
    exact ⟨count, after, served, .inl ⟨empty, rfl⟩⟩

/-- In deferred mode, a chain is refused only where it is stuck. -/
theorem Kernel.serveHooks_patient_refused_iff
    (patient : run.machine.config.immediate = false)
    (refusal : Refusal)
    (after : Run β D N) :
    serveHooks conduct run = .error (.refused refusal) after ↔
      ∃ count middle,
        run.serveTimes conduct count = some middle ∧ middle.StuckAt refusal after := by
  rw [serveHooks_patient_iff patient]
  constructor
  · rintro ⟨count, middle, served, ⟨_, done⟩ | ⟨_, _, stuck, done⟩⟩
    · cases done
    · cases done
      exact ⟨count, middle, served, stuck⟩
  · rintro ⟨count, middle, served, stuck⟩
    exact ⟨count, middle, served, .inr ⟨refusal, after, stuck, rfl⟩⟩

/-- In deferred mode, to serve requests calls no hook, so none breaks off. -/
theorem Kernel.serveHooks_patient_unbroken
    (patient : run.machine.config.immediate = false)
    (message : String)
    (after : Run β D N) :
    serveHooks conduct run ≠ .error (.brokenOff message) after := by
  intro broken
  rw [serveHooks_patient_iff patient] at broken
  obtain ⟨_, _, _, ⟨_, done⟩ | ⟨_, _, _, done⟩⟩ := broken
  · cases done
  · cases done

end Patient

/-- The requests that hooks ask for are served one by one, the oldest first.  In immediate mode the
serving ends well exactly if no request waits after at most as many as the limit says.  It is
refused at the first of these that cannot be taken up, and because of the limit exactly if so many
have been served and another one waits, whatever this one is.  In deferred mode there is no limit,
no request is added to those that wait at the start, and nothing moves.  A refusal empties the
inbox, and changes nothing else after the requests served. -/
theorem serveHooks_bounded_in_order
    (conduct : Conduct β D N)
    (run : Run β D N) :
    (run.machine.config.immediate = true →
      let limit := run.machine.config.chainLimit
      (∀ after,
        Kernel.serveHooks conduct run = .ok () after ↔
          ∃ count ≤ limit.toNat,
            run.serveTimes conduct count = some after ∧ after.machine.inbox = []) ∧
      (∀ refusal after,
        Kernel.serveHooks conduct run = .error (.refused refusal) after ↔
          (∃ count < limit.toNat, ∃ middle,
            run.serveTimes conduct count = some middle ∧ middle.StuckAt refusal after) ∨
          (refusal = .chainTooLong limit ∧ ∃ middle,
            run.serveTimes conduct limit.toNat = some middle ∧
              middle.machine.inbox ≠ [] ∧ after = middle.aborted)) ∧
      (∀ message after,
        Kernel.serveHooks conduct run = .error (.brokenOff message) after ↔
          ∃ count < limit.toNat, ∃ middle,
            run.serveTimes conduct count = some middle ∧
              middle.serveOldest conduct = some (.error (.brokenOff message) after)) ∧
      (∀ count middle,
        run.serveTimes conduct count = some middle →
          ∃ added,
            count ≤ (run.machine.inbox ++ added).length ∧
              middle.machine.inbox = (run.machine.inbox ++ added).drop count)) ∧
    (run.machine.config.immediate = false →
      (∀ after,
        Kernel.serveHooks conduct run = .ok () after ↔
          ∃ count, run.serveTimes conduct count = some after ∧ after.machine.inbox = []) ∧
      (∀ refusal after,
        Kernel.serveHooks conduct run = .error (.refused refusal) after ↔
          ∃ count middle,
            run.serveTimes conduct count = some middle ∧ middle.StuckAt refusal after) ∧
      (∀ message after,
        Kernel.serveHooks conduct run ≠ .error (.brokenOff message) after) ∧
      (∀ count middle,
        run.serveTimes conduct count = some middle →
          count ≤ run.machine.inbox.length ∧
            middle.machine.inbox = run.machine.inbox.drop count) ∧
      run.Unmoved ((Kernel.serveHooks conduct).final run)) ∧
    (∀ limit after, ¬ run.StuckAt (.chainTooLong limit) after) := by
  refine ⟨fun immediate => ?_, fun patient => ?_, fun _ _ => Run.StuckAt.short⟩
  · refine ⟨Kernel.serveHooks_immediate_ok_iff immediate,
      Kernel.serveHooks_immediate_refused_iff immediate,
      Kernel.serveHooks_immediate_broken_iff immediate, fun count middle served => ?_⟩
    obtain ⟨added, enough, left, -⟩ := Run.serveTimes_inbox served
    exact ⟨added, enough, left⟩
  · refine ⟨Kernel.serveHooks_patient_ok_iff patient,
      Kernel.serveHooks_patient_refused_iff patient,
      Kernel.serveHooks_patient_unbroken patient, fun count middle served => ?_,
      Kernel.serveHooks_unmoved conduct patient⟩
    obtain ⟨within, left, -⟩ := Run.serveTimes_patient patient served
    exact ⟨within, left⟩

/-- The run of a relay on which hooks have asked for a state of the second kind and for one of a
kind that nobody registered. -/
def relayAskedInVain (immediate : Bool) : Run Actor Meter Note :=
  ((relayStarted immediate).enqueue (.fresh ⟨2⟩)).enqueue (.fresh ⟨9⟩)

/-- The relay serves the first of two requests and is refused at the second one. -/
theorem serveHooks_bounded_in_order_relay :
    (∃ after, Kernel.serveHooks Actor.conduct (relayAskedInVain true) =
      .error (.refused (.unavailable ⟨9⟩ .unregistered)) after) ∧
    (∃ after, Kernel.serveHooks Actor.conduct (relayAskedInVain false) =
      .error (.refused (.unavailable ⟨9⟩ .unregistered)) after) := by
  have second (immediate : Bool) :
      ((relayAskedInVain immediate).serveTimes Actor.conduct 1).map
        (fun run => run.machine.inbox.head?.bind (·.refusal? run.machine)) =
          some (some (.unavailable ⟨9⟩ .unregistered)) := by
    cases immediate <;> decide +kernel
  have stuck (immediate : Bool) : ∃ middle after,
      (relayAskedInVain immediate).serveTimes Actor.conduct 1 = some middle ∧
        middle.StuckAt (.unavailable ⟨9⟩ .unregistered) after := by
    obtain ⟨middle, served, refused⟩ := Option.map_eq_some_iff.mp (second immediate)
    obtain ⟨asked, waiting, unknown⟩ := Option.bind_eq_some_iff.mp refused
    obtain ⟨more, inbox⟩ := List.head?_eq_some_iff.mp waiting
    exact ⟨middle, _, served, asked, more, inbox, unknown, rfl⟩
  constructor
  · obtain ⟨middle, after, served, here⟩ := stuck true
    refine ⟨after, ?_⟩
    have immediate : (relayAskedInVain true).machine.config.immediate = true := by
      decide +kernel
    have limit : 1 < (relayAskedInVain true).machine.config.chainLimit.toNat := by
      decide +kernel
    exact (((serveHooks_bounded_in_order Actor.conduct _).1 immediate).2.1 _ after).mpr
      (.inl ⟨1, limit, middle, served, here⟩)
  · obtain ⟨middle, after, served, here⟩ := stuck false
    refine ⟨after, ?_⟩
    have patient : (relayAskedInVain false).machine.config.immediate = false := by
      decide +kernel
    exact (((serveHooks_bounded_in_order Actor.conduct _).2.1 patient).2.1 _ after).mpr
      ⟨1, middle, served, here⟩

end TickMachine
