import TickMachine.Proofs.Frame
import TickMachine.Proofs.Reachable

/-!
# Stretches of a run

From any run a machine goes on by operations, while callers do what they like with the states in
their hands.  A stretch of a run is told by the operations in it, each with the run on which it was
done, so that what is known of one operation can be added up over all of them.
-/

namespace TickMachine

variable {β D N : Type}

/-- An operation, with the run and the time at which it is done. -/
structure Moment (β D N : Type) where
  run : Run β D N
  now : Instant
  operation : Operation β D

namespace Moment

/-- What the operation answers. -/
def answer (conduct : Conduct β D N) (moment : Moment β D N) : Except Interruption Reply :=
  (moment.run.perform conduct moment.now moment.operation).1

/-- The run after the operation. -/
def after (conduct : Conduct β D N) (moment : Moment β D N) : Run β D N :=
  (moment.run.perform conduct moment.now moment.operation).2

end Moment

/-- The runs to which a machine goes on from a given one, with the operations that were done, the
first one in front. -/
inductive Onward (conduct : Conduct β D N) (start : Run β D N) :
    List (Moment β D N) → Run β D N → Prop where
  /-- Nothing has been done yet. -/
  | stay : Onward conduct start [] start
  /-- The owner of the machine does an operation. -/
  | perform {past : List (Moment β D N)} {run : Run β D N} (now : Instant)
      (operation : Operation β D)
      (onward : Onward conduct start past run) :
      Onward conduct start (past ++ [⟨run, now, operation⟩])
        (run.perform conduct now operation).2
  /-- Callers drop, move and pause states in their hands, or take up states of other machines. -/
  | rearrange {past : List (Moment β D N)} {run : Run β D N} (hands : Hands β)
      (onward : Onward conduct start past run)
      (kept : (hands.own run.machine.id).Subperm (run.hands.own run.machine.id)) :
      Onward conduct start past { run with hands := hands }

variable {conduct : Conduct β D N} {permitted : Except Interruption Reply → Prop}
  {past : List (Moment β D N)} {start run : Run β D N}

/-- A stretch of one operation. -/
theorem Onward.single (conduct : Conduct β D N) (moment : Moment β D N) :
    Onward conduct moment.run [moment] (moment.after conduct) :=
  Onward.stay.perform moment.now moment.operation

/-- A stretch goes on with any operations in a row. -/
theorem Onward.performAll
    (onward : Onward conduct start past run)
    (timed : List (Instant × Operation β D)) :
    ∃ later, Onward conduct start later (run.performAll conduct timed).2 := by
  induction timed generalizing past run with
  | nil => exact ⟨past, onward⟩
  | cons first more inductionHypothesis =>
      exact inductionHypothesis (onward.perform first.1 first.2)

/-- A machine goes on from a reachable run to reachable ones. -/
theorem Onward.reachable
    {origin : Machine β D}
    (onward : Onward conduct start past run)
    (allowed : ∀ moment ∈ past, permitted (moment.answer conduct))
    (reached : Reachable conduct permitted origin start) :
    Reachable conduct permitted origin run := by
  induction onward with
  | stay => exact reached
  | perform now operation _ inductionHypothesis =>
      obtain ⟨before, last⟩ := List.forall_mem_append.mp allowed
      have answered := List.forall_mem_singleton.mp last
      exact .perform now operation (inductionHypothesis before) answered
  | rearrange hands _ kept inductionHypothesis =>
      exact .rearrange hands (inductionHypothesis allowed) kept

/-- What nothing destroys still holds after a stretch. -/
theorem Persistent.onward
    {holds : Stage β D N → Prop}
    (persistent : Persistent conduct permitted holds)
    (onward : Onward conduct start past run)
    (allowed : ∀ moment ∈ past, permitted (moment.answer conduct))
    (held : holds ⟨.idle, [], start⟩) :
    holds ⟨.idle, [], run⟩ := by
  induction onward with
  | stay => exact held
  | perform now operation _ inductionHypothesis =>
      obtain ⟨before, last⟩ := List.forall_mem_append.mp allowed
      have answered := List.forall_mem_singleton.mp last
      exact persistent.perform _ now operation answered (inductionHypothesis before)
  | rearrange hands _ kept inductionHypothesis =>
      exact persistent.rearrange _ hands kept (inductionHypothesis allowed)

/-- A machine keeps the number, the configuration and the kinds with which it was made. -/
theorem fixed_lasting
    {id : MachineId}
    {config : Config}
    {registry : Registry β}
    {data : D}
    {origin : Machine β D}
    (conduct : Conduct β D N)
    (permitted : Except Interruption Reply → Prop)
    (made : Machine.make id config registry data = .ok origin) :
    Lasting conduct permitted origin fun stage =>
      stage.run.machine.id = id ∧ stage.run.machine.config = config ∧
        stage.run.machine.registry = registry where
  start now := by
    rw [Machine.eq_idle_of_make made]
    exact ⟨rfl, rfl, rfl⟩
  step before after step fixed := by
    obtain ⟨sameId, sameConfig, sameRegistry⟩ := step.fixed
    rw [sameId, sameConfig, sameRegistry]
    exact fixed
  clock _ _ fixed := fixed
  rearrange _ _ _ fixed := fixed
  refused _ _ fixed := fixed
  broken _ _ _ _ _ _ fixed := fixed

end TickMachine
