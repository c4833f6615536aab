import Mathlib.Data.List.Perm.Subperm
import TickMachine.Proofs.Course
import TickMachine.Script

/-!
# Reachable runs

A machine starts without states.  Its owner does any operations on it, and between two operations
callers do what they like with the states in their hands, except that nobody can make up a state
of the machine or copy one.  The owner writes to the current state only to set its paused flag, so a
state never changes its place except by an operation.  A property of stages that holds at the start
and that nothing of this destroys holds at every reachable run.
-/

namespace TickMachine

variable {β D N : Type}

/-- A machine that has been made has no states. -/
theorem Machine.eq_idle_of_make
    {id : MachineId}
    {config : Config}
    {registry : Registry β}
    {data : D}
    {origin : Machine β D}
    (made : make id config registry data = .ok origin) :
    origin = idle id config registry data := by
  unfold make Config.accept at made
  split at made
  · nomatch made
  · next accepted judged =>
      split at judged
      · nomatch judged
      · cases judged
        split at made
        · nomatch made
        · exact (Except.ok.inj made).symm

/-- A machine that has been made lets hooks ask for at least one transition. -/
theorem Machine.chained_of_make
    {id : MachineId}
    {config : Config}
    {registry : Registry β}
    {data : D}
    {origin : Machine β D}
    (made : make id config registry data = .ok origin) :
    config.chainLimit ≠ 0 := by
  intro zero
  unfold make Config.accept at made
  rw [if_pos zero] at made
  nomatch made

/-- The states of a machine that callers hold.  Callers may set the paused flag of a state in hand,
so the flag is left out. -/
def Hands.own (hands : Hands β) (id : MachineId) : List (Instance β) :=
  ((hands.toList.map Prod.snd).filter fun subject => subject.owner = id).map fun subject =>
    { subject with paused := false }

/-- An operation ends without a hook that breaks off. -/
def Unbroken : Except Interruption Reply → Prop
  | .error (.brokenOff _) => False
  | _ => True

instance : DecidablePred Unbroken
  | .ok _ => isTrue trivial
  | .error (.refused _) => isTrue trivial
  | .error (.brokenOff _) => isFalse not_false

/-- The runs that a machine comes to if all its operations have permitted replies.  Of the current
state, the owner changes the paused flag at most, by `Operation.pause`; that an owner exchanges the
current state for one in hand does not occur in these runs. -/
inductive Reachable
    (conduct : Conduct β D N)
    (permitted : Except Interruption Reply → Prop)
    (origin : Machine β D) : Run β D N → Prop where
  /-- Nothing has been done yet. -/
  | start (now : Instant) : Reachable conduct permitted origin ⟨origin, ∅, #[], now⟩
  /-- The owner of the machine does an operation. -/
  | perform {run : Run β D N} (now : Instant) (operation : Operation β D)
      (reached : Reachable conduct permitted origin run)
      (allowed : permitted (run.perform conduct now operation).1) :
      Reachable conduct permitted origin (run.perform conduct now operation).2
  /-- Callers drop, move and pause states in their hands, or take up states of other machines. -/
  | rearrange {run : Run β D N} (hands : Hands β)
      (reached : Reachable conduct permitted origin run)
      (kept : (hands.own run.machine.id).Subperm (run.hands.own run.machine.id)) :
      Reachable conduct permitted origin { run with hands := hands }

/-- If everything is permitted, any operations can be done in a row. -/
theorem Reachable.performAll
    {conduct : Conduct β D N}
    {origin : Machine β D}
    {run : Run β D N}
    (reached : Reachable conduct (fun _ => True) origin run)
    (timed : List (Instant × Operation β D)) :
    Reachable conduct (fun _ => True) origin (run.performAll conduct timed).2 := by
  induction timed generalizing run with
  | nil => exact reached
  | cons first more inductionHypothesis =>
      exact inductionHypothesis (.perform first.1 first.2 reached trivial)

/-- An operation runs its program and leaves the run with which the program ends. -/
theorem Run.kernel_perform
    (conduct : Conduct β D N)
    (run : Run β D N)
    (now : Instant)
    (operation : Operation β D) :
    Kernel.perform conduct operation { run with now := now } =
      match (run.perform conduct now operation).1 with
      | .ok reply => .ok reply (run.perform conduct now operation).2
      | .error cause => .error cause (run.perform conduct now operation).2 := by
  unfold Run.perform
  cases Kernel.perform conduct operation { run with now := now } <;> rfl

/-- An operation takes its run by its deeds to the phase of its reply. -/
theorem Run.perform_course
    (conduct : Conduct β D N)
    (run : Run β D N)
    (now : Instant)
    (operation : Operation β D) :
    match (run.perform conduct now operation).1 with
    | .ok _ =>
        Steps conduct operation.deeds ⟨.idle, [], { run with now := now }⟩
          ⟨.idle, [], (run.perform conduct now operation).2⟩
    | .error (.refused refusal) =>
        Steps conduct operation.deeds ⟨.idle, [], { run with now := now }⟩
          ⟨refusal.phase, [], (run.perform conduct now operation).2⟩
    | .error (.brokenOff _) =>
        ∃ phase batch, Phase.IsHooked phase ∧
          Steps conduct operation.deeds ⟨.idle, [], { run with now := now }⟩
            ⟨phase, batch, (run.perform conduct now operation).2⟩ := by
  have follows : Follows conduct operation.deeds (Kernel.perform conduct operation)
      ⟨.idle, [], { run with now := now }⟩ (fun _ => .idle) [] [] :=
    Kernel.perform_follows operation
  unfold Follows at follows
  rw [run.kernel_perform conduct now operation] at follows
  cases answer : (run.perform conduct now operation).1 with
  | ok reply =>
      rw [answer] at follows
      exact follows
  | error cause =>
      rw [answer] at follows
      cases cause with
      | refused refusal => exact follows
      | brokenOff message => exact follows

/-- A property of stages that nothing destroys. -/
structure Persistent
    (conduct : Conduct β D N)
    (permitted : Except Interruption Reply → Prop)
    (holds : Stage β D N → Prop) : Prop where
  /-- Steps preserve it. -/
  step {deeds : List Deed} (before after : Stage β D N) :
    Step conduct deeds before after → holds before → holds after
  /-- It does not depend on the clock. -/
  clock (run : Run β D N) (now : Instant) :
    holds ⟨.idle, [], run⟩ → holds ⟨.idle, [], { run with now := now }⟩
  /-- Callers cannot destroy it. -/
  rearrange (run : Run β D N) (hands : Hands β) :
    (hands.own run.machine.id).Subperm (run.hands.own run.machine.id) →
      holds ⟨.idle, [], run⟩ → holds ⟨.idle, [], { run with hands := hands }⟩
  /-- It survives that a call is refused because a state is lost. -/
  refused (serial : Serial) (run : Run β D N) :
    holds ⟨.lost serial, [], run⟩ → holds ⟨.idle, [], run⟩
  /-- It survives that a hook breaks off, if this is permitted. -/
  broken (message : String) (phase : Phase β) (batch : List (Request β)) (run : Run β D N) :
    permitted (.error (.brokenOff message)) → phase.IsHooked →
      holds ⟨phase, batch, run⟩ → holds ⟨.idle, [], run⟩

/-- A property of stages that holds at the start and that nothing destroys. -/
structure Lasting
    (conduct : Conduct β D N)
    (permitted : Except Interruption Reply → Prop)
    (origin : Machine β D)
    (holds : Stage β D N → Prop) : Prop
    extends Persistent conduct permitted holds where
  /-- It holds at the start. -/
  start (now : Instant) : holds ⟨.idle, [], ⟨origin, ∅, #[], now⟩⟩

namespace Persistent

variable {conduct : Conduct β D N} {permitted : Except Interruption Reply → Prop}
  {holds : Stage β D N → Prop}

theorem holds_of_refused
    (persistent : Persistent conduct permitted holds)
    (refusal : Refusal)
    (run : Run β D N)
    (held : holds ⟨refusal.phase, [], run⟩) :
    holds ⟨.idle, [], run⟩ := by
  cases refusal with
  | lost serial => exact persistent.refused serial run held
  | _ => exact held

/-- An operation with a permitted reply preserves the property. -/
theorem perform
    (persistent : Persistent conduct permitted holds)
    (run : Run β D N)
    (now : Instant)
    (operation : Operation β D)
    (allowed : permitted (run.perform conduct now operation).1)
    (held : holds ⟨.idle, [], run⟩) :
    holds ⟨.idle, [], (run.perform conduct now operation).2⟩ := by
  have ready : holds ⟨.idle, [], { run with now := now }⟩ := persistent.clock run now held
  have course := run.perform_course conduct now operation
  cases answer : (run.perform conduct now operation).1 with
  | ok reply =>
      rw [answer] at course
      exact course.invariant persistent.step ready
  | error cause =>
      rw [answer] at course allowed
      cases cause with
      | refused refusal =>
          exact persistent.holds_of_refused refusal _ (course.invariant persistent.step ready)
      | brokenOff message =>
          obtain ⟨phase, batch, hooked, steps⟩ := course
          exact persistent.broken message phase batch _ allowed hooked
            (steps.invariant persistent.step ready)

/-- After an operation that is refused, the property holds in the phase of the refusal. -/
theorem perform_refused
    (persistent : Persistent conduct permitted holds)
    (run : Run β D N)
    (now : Instant)
    (operation : Operation β D)
    (held : holds ⟨.idle, [], run⟩)
    (refusal : Refusal)
    (answer : (run.perform conduct now operation).1 = .error (.refused refusal)) :
    holds ⟨refusal.phase, [], (run.perform conduct now operation).2⟩ := by
  have course := run.perform_course conduct now operation
  rw [answer] at course
  exact course.invariant persistent.step (persistent.clock run now held)

end Persistent

/-- A lasting property holds at every reachable run. -/
theorem Lasting.reachable
    {conduct : Conduct β D N}
    {permitted : Except Interruption Reply → Prop}
    {origin : Machine β D}
    {holds : Stage β D N → Prop}
    (lasting : Lasting conduct permitted origin holds)
    {run : Run β D N}
    (reached : Reachable conduct permitted origin run) :
    holds ⟨.idle, [], run⟩ := by
  induction reached with
  | start now => exact lasting.start now
  | perform now operation _ allowed inductionHypothesis =>
      exact lasting.perform _ now operation allowed inductionHypothesis
  | rearrange hands _ kept inductionHypothesis =>
      exact lasting.rearrange _ hands kept inductionHypothesis

/-! ## A relay -/

/-- A machine with states of two kinds.  One of the first kind asks for one of the second kind when
it exits. -/
def relay (immediate : Bool) : Machine Actor Meter :=
  .idle ⟨1⟩ { immediate := immediate }
    ⟨(∅ : Std.TreeMap Kind (Registration Actor))
      |>.insert ⟨1⟩
        ⟨"Handoff", some (.scripted { exit := [{ effect := .switchTo (.fresh ⟨2⟩) }] } {})⟩
      |>.insert ⟨2⟩ ⟨"Plain", some .idle⟩⟩
    .zero

/-- The run of a relay on which a state of the first kind was entered. -/
def relayStarted (immediate : Bool) : Run Actor Meter Note :=
  let before : Run Actor Meter Note := ⟨relay immediate, ∅, #[], .epoch⟩
  let switched := (before.perform Actor.conduct .epoch (.switchTo (.fresh ⟨1⟩))).2
  (switched.perform Actor.conduct .epoch (.tick ⟨0⟩)).2

theorem relay_made (immediate : Bool) :
    Machine.make ⟨1⟩ (relay immediate).config (relay immediate).registry .zero =
      .ok (relay immediate) := rfl

theorem relayStarted_reachable (immediate : Bool) :
    Reachable Actor.conduct Unbroken (relay immediate) (relayStarted immediate) := by
  refine .perform _ _ (.perform _ _ (.start .epoch) ?_) ?_
  · cases immediate <;> decide +kernel
  · cases immediate <;> decide +kernel

/-! ## A brittle machine -/

/-- A machine with states of two kinds.  One of the first kind breaks off when it exits. -/
def brittle (immediate : Bool) : Machine Actor Meter :=
  .idle ⟨1⟩ { immediate := immediate }
    ⟨(∅ : Std.TreeMap Kind (Registration Actor))
      |>.insert ⟨1⟩ ⟨"Brittle", some (.scripted { exit := [{ effect := .breakOff "cracked" }] } {})⟩
      |>.insert ⟨2⟩ ⟨"Plain", some .idle⟩⟩
    .zero

/-- The run of a brittle machine on which operations have been done. -/
def brittleAfter (immediate : Bool) (operations : List (Operation Actor Meter)) :
    Run Actor Meter Note :=
  (Run.performAll Actor.conduct ⟨brittle immediate, ∅, #[], .epoch⟩
    (operations.map fun operation => (.epoch, operation))).2

theorem brittle_made (immediate : Bool) :
    Machine.make ⟨1⟩ (brittle immediate).config (brittle immediate).registry .zero =
      .ok (brittle immediate) := rfl

theorem brittleAfter_reachable (immediate : Bool) (operations : List (Operation Actor Meter)) :
    Reachable Actor.conduct (fun _ => True) (brittle immediate)
      (brittleAfter immediate operations) :=
  .performAll (.start .epoch) _

end TickMachine
