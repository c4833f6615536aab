import TickMachine.Proofs.Composed
import TickMachine.Proofs.Deferral
import TickMachine.Proofs.Frame
import TickMachine.Proofs.Reachable

/-!
# What the chain limit does

A machine gives up on a chain of requests that is too long, and the call in which it does so says
so in its answer.  As long as this does not happen, a machine with a higher limit does the same.  In
deferred mode it never happens: no request that is served runs a hook, so only those are served that
wait already.
-/

namespace TickMachine

variable {β D N α γ : Type}

/-- The run of a machine with another chain limit. -/
def Run.allowing (run : Run β D N) (limit : UInt64) : Run β D N :=
  run.mapMachine fun machine =>
    { machine with config := { machine.config with chainLimit := limit } }

theorem Run.allowing_allowing (run : Run β D N) (limit : UInt64) :
    (run.allowing limit).allowing run.machine.config.chainLimit = run := rfl

theorem Run.allowing_eq_self
    (run : Run β D N)
    {limit : UInt64}
    (same : run.machine.config.chainLimit = limit) :
    run.allowing limit = run := by
  subst same
  rfl

/-- A call answers that a chain of requests was too long. -/
def GivesUp : Except Interruption Reply → Prop
  | .error (.refused (.chainTooLong _)) => True
  | _ => False

instance : DecidablePred GivesUp
  | .ok _ => isFalse not_false
  | .error (.brokenOff _) => isFalse not_false
  | .error (.refused (.chainTooLong _)) => isTrue trivial
  | .error (.refused (.unavailable _ _)) => isFalse not_false
  | .error (.refused .nothingCurrent) => isFalse not_false
  | .error (.refused (.foreign _)) => isFalse not_false
  | .error (.refused (.lost _)) => isFalse not_false
  | .error (.refused (.badDelta _)) => isFalse not_false
  | .error (.refused .ownerGone) => isFalse not_false

/-! ## Higher limits -/

/-- A result, and the result with a higher limit: they are the same unless a chain was too long for
the lower limit. -/
inductive Unhindered (limit : UInt64) :
    EStateM.Result Interruption (Run β D N) α →
      EStateM.Result Interruption (Run β D N) α → Prop where
  | ok (value : α) {run : Run β D N} (lower : run.machine.config.chainLimit ≤ limit) :
      Unhindered limit (.ok value run) (.ok value (run.allowing limit))
  | error (cause : Interruption) (run : Run β D N) :
      Unhindered limit (.error cause run) (.error cause (run.allowing limit))
  | tooLong (reached : UInt64) (run : Run β D N)
      (other : EStateM.Result Interruption (Run β D N) α) :
      Unhindered limit (.error (.refused (.chainTooLong reached)) run) other

/-- A higher limit changes nothing unless a chain is too long for the lower limit. -/
def Kernel.Indifferent (limit : UInt64) (program : Kernel β D N α) : Prop :=
  ∀ run : Run β D N, run.machine.config.chainLimit ≤ limit →
    Unhindered limit (program run) (program (run.allowing limit))

namespace Unhindered

variable {limit : UInt64}

theorem bind
    {program : Kernel β D N α}
    {next rest : α → Kernel β D N γ}
    {run other : Run β D N}
    (first : Unhindered limit (program run) (program other))
    (goes : ∀ value after, after.machine.config.chainLimit ≤ limit →
      Unhindered limit (next value after) (rest value (after.allowing limit))) :
    Unhindered limit ((program >>= next) run) ((program >>= rest) other) := by
  rw [Kernel.bind_apply, Kernel.bind_apply]
  generalize program run = ended, program other = result at first ⊢
  cases first with
  | ok value lower => exact goes value _ lower
  | error cause => exact .error cause _
  | tooLong reached => exact .tooLong reached _ _

end Unhindered

namespace Kernel

variable {conduct : Conduct β D N} {limit : UInt64}

/-- A higher budget changes nothing unless the lower one is too low. -/
theorem serveWithin_unhindered
    (next : Indifferent limit (nextRequest : Kernel β D N (Option (Request β))))
    (served : ∀ asked, Indifferent limit (serveAsked conduct asked))
    {small large : Nat}
    (within : small ≤ large)
    (run : Run β D N)
    (lower : run.machine.config.chainLimit ≤ limit) :
    Unhindered limit (serveWithin conduct small run)
      (serveWithin conduct large (run.allowing limit)) := by
  induction small generalizing large run with
  | zero =>
      by_cases empty : run.machine.inbox = []
      · rw [serveWithin_apply_empty conduct 0 run empty,
          serveWithin_apply_empty conduct large (run.allowing limit) empty]
        exact .ok () lower
      · have waiting : run.machine.inbox.isEmpty = false := by
          rw [List.isEmpty_eq_false_iff]
          exact empty
        rw [serveWithin, bind_apply, machine_apply]
        dsimp only
        rw [waiting]
        exact .tooLong _ _ _
  | succ small inductionHypothesis =>
      obtain ⟨rest, rfl⟩ := Nat.exists_eq_add_of_lt within
      refine .bind (next run lower) fun found after lower => ?_
      cases found with
      | none => exact .ok () lower
      | some asked =>
          refine .bind (served asked after lower) fun _ final lower => ?_
          exact inductionHypothesis (by omega) final lower

/-- A chain that the lower limit lets end well takes the same course under the higher one. -/
theorem serveHooks_indifferent
    (next : Indifferent limit (nextRequest : Kernel β D N (Option (Request β))))
    (served : ∀ asked, Indifferent limit (serveAsked conduct asked)) :
    Indifferent limit (serveHooks conduct) := by
  intro run lower
  have within : chainBudget run.machine ≤ chainBudget (run.allowing limit).machine := by
    have mode : (run.allowing limit).machine.config.immediate = run.machine.config.immediate := rfl
    unfold chainBudget
    rw [mode]
    split
    · exact lower
    · exact Nat.le_refl _
  exact serveWithin_unhindered next served within run lower

/-- The chain limit matters to no program that does not give up. -/
theorem Composed.indifferent
    {program : Kernel β D N α}
    (composed : Composed conduct program)
    (limit : UInt64) :
    Indifferent limit program := by
  induction composed with
  | pure value => exact fun _ lower => .ok value lower
  | refuse refusal => exact fun _ _ => .error (.refused refusal) _
  | bind _ _ first rest => exact fun run lower => .bind (first run lower) rest
  | @look α next blind _ rest =>
      intro run lower
      have same : next (run.allowing limit).machine = next run.machine :=
        blind run.machine limit run.machine.config.historyLimit run.machine.history
      rw [bind_apply, bind_apply, machine_apply, machine_apply]
      dsimp only
      rw [same]
      exact rest run.machine run lower
  | change change inner =>
      intro run lower
      obtain ⟨-, config, history⟩ := inner.frame run.machine
      have allowed : (run.allowing limit).mapMachine change =
          (run.mapMachine change).allowing limit := by
        refine congrArg (fun machine => { run with machine := machine })
          ((inner.exchange run.machine _ run.machine.history).trans ?_)
        rw [← config, ← history]
        rfl
      rw [changeMachine_apply, changeMachine_apply, allowed]
      exact .ok () (config ▸ lower)
  | write entry => exact fun _ lower => .ok () lower
  | record source target subject => exact fun _ lower => .ok () lower
  | react hook subject =>
      intro run lower
      rw [modifyGet_apply, modifyGet_apply, Run.react_eq, Run.react_eq]
      exact .ok _ lower
  | breakOff breakdown =>
      cases breakdown with
      | none => exact fun _ lower => .ok () lower
      | some message => exact fun _ _ => .error (.brokenOff message) _
  | handle move => exact fun _ lower => .ok _ lower
  | takeUp origin request _ resolved =>
      rw [takeUp_eq]
      exact fun run lower => resolved (run.write _) lower
  | @orMend α program _ mend mended =>
      intro run lower
      have ends := mended run lower
      unfold Kernel.orMend
      generalize program run = ended, program (run.allowing limit) = result at ends ⊢
      cases ends with
      | ok value lower => exact .ok value lower
      | tooLong reached => exact .tooLong reached _ _
      | error cause after =>
          cases cause with
          | refused refusal => exact .error (.refused refusal) (after.mapMachine _)
          | brokenOff message => exact .error (.brokenOff message) after
  | serveHooks _ _ next served => exact serveHooks_indifferent next served

/-! ## Deferred mode -/

/-- In deferred mode no chain of requests is too long. -/
def Unchained (program : Kernel β D N α) : Prop :=
  ∀ ⦃run after : Run β D N⦄ ⦃limit : UInt64⦄, run.machine.config.immediate = false →
    program run ≠ .error (.refused (.chainTooLong limit)) after

theorem Unchained.bind
    {program : Kernel β D N α}
    {next : α → Kernel β D N γ}
    (first : Unchained program)
    (fixing : Fixing program)
    (rest : ∀ value, Unchained (next value)) :
    Unchained (program >>= next) := by
  intro run after limit patient stopped
  rcases bind_error stopped with early | ⟨between, middle, began, late⟩
  · exact first patient early
  · obtain ⟨-, config⟩ := fixing began
    exact rest between (config ▸ patient) late

theorem Unchained.of_ok
    {program : Kernel β D N α}
    (ends : ∀ run, ∃ value after, program run = .ok value after) :
    Unchained program := by
  intro run after limit _ stopped
  obtain ⟨value, final, ended⟩ := ends run
  rw [ended] at stopped
  cases stopped

/-- In deferred mode a request that is served leaves the others in the inbox as they are. -/
theorem serveAsked_inbox
    {asked : Request β}
    {run after : Run β D N}
    (patient : run.machine.config.immediate = false)
    (served : serveAsked conduct asked run = .ok () after) :
    after.machine.inbox = run.machine.inbox := by
  obtain ⟨transition, middle, taken, served⟩ := bind_ok served
  obtain ⟨outcome, final, submitted, served⟩ := bind_ok served
  cases served
  obtain ⟨made, -, machine⟩ := takeUp_machine (orMend_ok taken)
  have patientThen : middle.machine.config.immediate = false := by
    rw [machine]
    exact patient
  rw [submit_apply_deferred conduct transition middle patientThen] at submitted
  cases submitted
  obtain ⟨-, -, parked, deferred⟩ := middle.deferred_frame transition
  rw [deferred, machine]

/-- In deferred mode no more requests are served than wait at the start. -/
theorem serveWithin_unchained
    (served : ∀ asked, Unchained (serveAsked conduct asked))
    (fixing : ∀ asked, Fixing (serveAsked conduct asked))
    {budget : Nat}
    {run after : Run β D N}
    {limit : UInt64}
    (patient : run.machine.config.immediate = false)
    (enough : run.machine.inbox.length ≤ budget) :
    serveWithin conduct budget run ≠ .error (.refused (.chainTooLong limit)) after := by
  intro stopped
  induction budget generalizing run with
  | zero =>
      have empty : run.machine.inbox = [] := List.length_eq_zero_iff.mp (Nat.le_zero.mp enough)
      rw [serveWithin_apply_empty conduct 0 run empty] at stopped
      cases stopped
  | succ budget inductionHypothesis =>
      cases waiting : run.machine.inbox with
      | nil =>
          rw [serveWithin_apply_empty conduct (budget + 1) run waiting] at stopped
          cases stopped
      | cons asked more =>
          rw [serveWithin, bind_apply, nextRequest_apply, waiting] at stopped
          let rest := run.mapMachine fun machine => { machine with inbox := more }
          have stillPatient : rest.machine.config.immediate = false := patient
          rcases bind_error stopped with early | ⟨_, middle, began, late⟩
          · exact served asked stillPatient early
          · obtain ⟨-, config⟩ := fixing asked began
            have inbox : middle.machine.inbox = more := serveAsked_inbox stillPatient began
            rw [waiting] at enough
            refine inductionHypothesis (config ▸ patient) ?_ late
            rw [inbox]
            exact Nat.le_of_succ_le_succ enough

/-- In deferred mode, no program gives up a chain. -/
theorem Composed.unchained
    {program : Kernel β D N α}
    (composed : Composed conduct program) :
    Unchained program := by
  induction composed with
  | pure value => exact .of_ok fun run => ⟨value, run, rfl⟩
  | refuse refusal unlimited =>
      intro run after limit _ stopped
      rw [refuse_apply] at stopped
      cases stopped
      exact unlimited limit rfl
  | bind composed _ first rest => exact .bind first composed.fixing rest
  | look _ _ rest => exact fun run after limit patient stopped => rest run.machine patient stopped
  | change change _ => exact .of_ok fun run => ⟨(), _, rfl⟩
  | write entry => exact .of_ok fun run => ⟨(), _, rfl⟩
  | record source target subject => exact .of_ok fun run => ⟨(), _, rfl⟩
  | react hook subject =>
      intro run after limit _ stopped
      rw [modifyGet_apply] at stopped
      cases stopped
  | breakOff breakdown =>
      intro run after limit _ stopped
      cases breakdown with
      | none => cases stopped
      | some message => cases stopped
  | handle move => exact .of_ok fun run => ⟨_, _, rfl⟩
  | takeUp origin request _ resolved =>
      rw [takeUp_eq]
      refine .bind (.of_ok fun run => ⟨(), _, rfl⟩) ?_ fun _ => resolved
      exact .of_ok fun run => ⟨(), _, rfl, rfl, rfl⟩
  | orMend _ mend mended =>
      intro run after limit patient stopped
      unfold Kernel.orMend at stopped
      split at stopped
      next refusal left refused =>
        cases stopped
        exact mended patient refused
      · exact mended patient stopped
  | serveHooks _ composed _ served =>
      intro run after limit patient stopped
      have budget : chainBudget run.machine = run.machine.inbox.length := by
        rw [chainBudget, patient]
        rfl
      exact serveWithin_unchained served (fun asked => (composed asked).fixing) patient
        (Nat.le_of_eq budget.symm) stopped

end Kernel

/-! ## Operations in a row -/

namespace Run

variable (conduct : Conduct β D N)

/-- An operation that does not give up does the same with a higher limit. -/
theorem perform_allowing
    (run : Run β D N)
    (now : Instant)
    (operation : Operation β D)
    {limit : UInt64}
    (lower : run.machine.config.chainLimit ≤ limit)
    (short : ¬ GivesUp (run.perform conduct now operation).1) :
    (run.allowing limit).perform conduct now operation =
        ((run.perform conduct now operation).1,
          (run.perform conduct now operation).2.allowing limit) := by
  have composed : Kernel.Composed conduct (Kernel.perform conduct operation) := .perform operation
  have same : ({ run.allowing limit with now := now } : Run β D N) =
      Run.allowing { run with now := now } limit := rfl
  have ends := composed.indifferent limit { run with now := now } lower
  unfold perform at short ⊢
  rw [same]
  generalize Kernel.perform conduct operation { run with now := now } = ended,
    Kernel.perform conduct operation (Run.allowing { run with now := now } limit) = result
    at ends short ⊢
  cases ends with
  | ok value => rfl
  | error cause => rfl
  | tooLong reached => exact absurd trivial short

/-- In deferred mode no operation gives up. -/
theorem perform_patient
    (run : Run β D N)
    (now : Instant)
    (operation : Operation β D)
    (patient : run.machine.config.immediate = false) :
    ¬ GivesUp (run.perform conduct now operation).1 := by
  have composed : Kernel.Composed conduct (Kernel.perform conduct operation) := .perform operation
  have ready : ({ run with now := now } : Run β D N).machine.config.immediate = false := patient
  unfold perform
  intro gives
  cases ended : Kernel.perform conduct operation { run with now := now } with
  | ok reply after =>
      rw [ended] at gives
      exact gives
  | error cause after =>
      rw [ended] at gives
      unfold GivesUp at gives
      split at gives
      next limit same =>
        cases same
        exact composed.unchained ready ended
      · exact gives

/-- No operation changes the configuration. -/
theorem perform_config
    (run : Run β D N)
    (now : Instant)
    (operation : Operation β D) :
    (run.perform conduct now operation).2.machine.config = run.machine.config := by
  obtain ⟨_, _, steps⟩ := run.perform_anyhow conduct now operation
  exact steps.fixed.2.1

theorem performAll_config
    (run : Run β D N)
    (timed : List (Instant × Operation β D)) :
    (run.performAll conduct timed).2.machine.config = run.machine.config := by
  induction timed generalizing run with
  | nil => rfl
  | cons first more inductionHypothesis =>
      exact (inductionHypothesis _).trans (run.perform_config conduct first.1 first.2)

/-- Operations that do not give up under a limit do the same under a higher one. -/
theorem performAll_allowing
    (run : Run β D N)
    (timed : List (Instant × Operation β D))
    {limit : UInt64}
    (lower : run.machine.config.chainLimit ≤ limit)
    (short : ∀ answer ∈ (run.performAll conduct timed).1, ¬ GivesUp answer) :
    (run.allowing limit).performAll conduct timed =
      ((run.performAll conduct timed).1, (run.performAll conduct timed).2.allowing limit) := by
  induction timed generalizing run with
  | nil => rfl
  | cons first more inductionHypothesis =>
      obtain ⟨now, operation⟩ := first
      obtain ⟨shortNow, shortLater⟩ := List.forall_mem_cons.mp short
      have begins := run.perform_allowing conduct now operation lower shortNow
      have config := run.perform_config conduct now operation
      have goesOn := inductionHypothesis (run.perform conduct now operation).2
        (config ▸ lower) shortLater
      rw [performAll, performAll, begins]
      dsimp only
      rw [goesOn]

/-- In deferred mode, no operation gives up. -/
theorem performAll_patient
    (run : Run β D N)
    (timed : List (Instant × Operation β D))
    (patient : run.machine.config.immediate = false) :
    ∀ answer ∈ (run.performAll conduct timed).1, ¬ GivesUp answer := by
  induction timed generalizing run with
  | nil => exact nofun
  | cons first more inductionHypothesis =>
      obtain ⟨now, operation⟩ := first
      have config := run.perform_config conduct now operation
      refine List.forall_mem_cons.mpr ⟨run.perform_patient conduct now operation patient, ?_⟩
      exact inductionHypothesis _ (config ▸ patient)

/-- In deferred mode any other limit will do, be it higher or lower. -/
theorem performAll_allowing_patient
    (run : Run β D N)
    (timed : List (Instant × Operation β D))
    (limit : UInt64)
    (patient : run.machine.config.immediate = false) :
    (run.allowing limit).performAll conduct timed =
      ((run.performAll conduct timed).1, (run.performAll conduct timed).2.allowing limit) := by
  rcases UInt64.le_total run.machine.config.chainLimit limit with lower | higher
  · exact run.performAll_allowing conduct timed lower (run.performAll_patient conduct timed patient)
  · have back := (run.allowing limit).performAll_allowing conduct timed higher
      ((run.allowing limit).performAll_patient conduct timed patient)
    have same : ((run.allowing limit).performAll conduct timed).2.machine.config.chainLimit =
        limit := by
      rw [performAll_config]
      rfl
    rw [run.allowing_allowing] at back
    rw [back]
    exact Prod.ext rfl (allowing_eq_self _ same).symm

end Run

/-- Whatever is done, a machine with a higher chain limit does the same as long as no call answers
that a chain was too long, and both machines are equal then except for the limit.  In deferred mode
no call answers so, and the limit does not matter at all. -/
theorem chain_limit_indifferent
    (conduct : Conduct β D N)
    (run : Run β D N)
    (timed : List (Instant × Operation β D)) :
    (∀ limit, run.machine.config.chainLimit ≤ limit →
      (∀ answer ∈ (run.performAll conduct timed).1, ¬ GivesUp answer) →
      (run.allowing limit).performAll conduct timed =
        ((run.performAll conduct timed).1, (run.performAll conduct timed).2.allowing limit)) ∧
    (run.machine.config.immediate = false →
      (∀ answer ∈ (run.performAll conduct timed).1, ¬ GivesUp answer) ∧
      ∀ limit, (run.allowing limit).performAll conduct timed =
        ((run.performAll conduct timed).1, (run.performAll conduct timed).2.allowing limit)) :=
  ⟨fun _ lower short => run.performAll_allowing conduct timed lower short,
    fun patient => ⟨run.performAll_patient conduct timed patient, fun limit =>
      run.performAll_allowing_patient conduct timed limit patient⟩⟩

/-- The run of a relay with a chain limit after it has been sent through both of its kinds. -/
def relayAllowing (immediate : Bool) (limit : UInt64) :
    List (Except Interruption Reply) × Run Actor Meter Note :=
  (Run.allowing ⟨relay immediate, ∅, #[], .epoch⟩ limit).performAll Actor.conduct
    [(.epoch, .switchTo (.fresh ⟨1⟩)), (.epoch, .tick ⟨0⟩), (.epoch, .switchTo (.fresh ⟨2⟩)),
      (.epoch, .tick ⟨0⟩)]

/-- One request in a row is enough for a relay in immediate mode, and none in deferred mode. -/
theorem chain_limit_indifferent_relay :
    relayAllowing true 64 = ((relayAllowing true 1).1, (relayAllowing true 1).2.allowing 64) ∧
      relayAllowing false 64 =
        ((relayAllowing false 0).1, (relayAllowing false 0).2.allowing 64) := by
  have short : ∀ answer ∈ (relayAllowing true 1).1, ¬ GivesUp answer := by
    decide +kernel
  obtain ⟨promptly, -⟩ := chain_limit_indifferent Actor.conduct
    (Run.allowing ⟨relay true, ∅, #[], .epoch⟩ 1) _
  obtain ⟨-, patiently⟩ := chain_limit_indifferent Actor.conduct
    (Run.allowing ⟨relay false, ∅, #[], .epoch⟩ 0) _
  exact ⟨promptly 64 (by decide) short, (patiently rfl).2 64⟩

end TickMachine
