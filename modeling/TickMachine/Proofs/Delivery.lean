import TickMachine.Proofs.Resting

/-!
# How a tick reaches a state

A tick first serves what was posted through handles, and then makes the pending transition and
serves what its hooks ask for.  If all of this goes well, the state that is current then is ticked,
unless it is paused.  What its tick hook asks for is served last, so the hook may well have the
state replaced, but neither the new state nor any other one is ticked in the same call.
-/

namespace TickMachine

variable {β D N : Type}

/-- What a tick does before it comes to the current state. -/
def Kernel.beforeTick (conduct : Conduct β D N) : Kernel β D N Unit := do
  serveHandles conduct
  carryOutPending conduct

namespace Run

/-- A tick that begins on a run comes to a state that is to be ticked: everything before has gone
well, and the state is current then and not paused. -/
structure Reaches
    (conduct : Conduct β D N)
    (start ready : Run β D N)
    (subject : Instance β) : Prop where
  settled : Kernel.beforeTick conduct start = .ok () ready
  current : ready.machine.current = some subject
  awake : subject.paused = false

/-- Between two runs a state was ticked once, on the run in the middle, and no other state was
ticked.  What was posted or pending comes before the tick hook, and what the tick hook asked for
comes after it and does not enter this state again. -/
structure Delivers
    (conduct : Conduct β D N)
    (delta : Single)
    (start ready after : Run β D N)
    (subject : Instance β)
    (early late : List (Hook × Kind × Serial)) : Prop where
  before : ready.calls = start.calls ++ early
  calls : after.calls = ready.calls ++ [(.tick delta, subject.kind, subject.serial)] ++ late
  earlyMoves : ∀ call ∈ early, call.1.IsMove
  lateMoves : ∀ call ∈ late, call.1.IsMove
  replaced : ∀ call ∈ late, call.1 = .enter → call.2.2 ≠ subject.serial
  /-- No request waits when the state is ticked, so what is served then are requests of its hook. -/
  drained : ready.machine.inbox = []
  served : (ready.reaction conduct (.tick delta) subject).breakdown = none →
    after = (Kernel.serveHooks conduct).final (ready.hooked conduct (.tick delta) subject)

end Run

namespace Kernel

variable {conduct : Conduct β D N} {run ready : Run β D N} {delta : Single}

/-- A tick with a step that is a number and not negative has three parts. -/
theorem tick_of_valid
    (number : delta.isNaN = false)
    (positive : delta.isNegative = false) :
    tick conduct delta = (do
      beforeTick conduct
      tickCurrent conduct delta
      serveHooks conduct) := by
  rw [tick_eq conduct delta (by rw [number, positive]; rfl)]
  simp only [beforeTick, tickOwn, bind_assoc]

/-- Nothing waits in the inbox when the pending transition has been made. -/
theorem beforeTick_ok (settled : beforeTick conduct run = .ok () ready) :
    ready.machine.inbox = [] := by
  obtain ⟨_, drained, drains, carries⟩ := bind_ok settled
  have empty : drained.machine.inbox = [] := serveHandles_ok conduct drains
  rw [carryOutPending, bind_apply, takePending_apply] at carries
  cases occupied : drained.machine.pending with
  | none =>
      rw [occupied] at carries
      cases carries
      exact empty
  | some transition =>
      rw [occupied] at carries
      obtain ⟨_, entered, -, serves⟩ := bind_ok carries
      exact serveHooks_ok conduct serves

/-- Nothing happens before a state is ticked if nothing was posted and nothing is pending. -/
theorem beforeTick_apply_idle
    (conduct : Conduct β D N)
    (run : Run β D N)
    (empty : run.machine.inbox = [])
    (free : run.machine.pending = none) :
    beforeTick conduct run = .ok () run := by
  rw [beforeTick, bind_apply, serveHandles_apply_empty conduct run empty]
  dsimp only
  rw [carryOutPending, bind_apply, takePending_apply, mapMachine_free run free, free]
  rfl

/-- Before the tick hook is called, posted requests are served and the pending transition is
made. -/
theorem beforeTick_follows (conduct : Conduct β D N) (run : Run β D N) :
    Follows conduct [.serve, .resume] (beforeTick conduct) ⟨.idle, [], run⟩
      (fun _ => .idle) [] [] :=
  (serveHandles_follows (by decide)).bind fun _ _ _ => carryOutPending_follows (by decide)

end Kernel

namespace Run

variable {conduct : Conduct β D N} {run start ready : Run β D N} {delta : Single}
  {subject : Instance β}

/-- A tick with a bad step is refused and changes nothing. -/
theorem perform_tick_of_bad
    (conduct : Conduct β D N)
    (run : Run β D N)
    (now : Instant)
    (bad : delta.isNaN = true ∨ delta.isNegative = true) :
    run.perform conduct now (.tick delta) =
      (.error (.refused (.badDelta delta)), { run with now := now }) := by
  rw [perform, Kernel.perform, Kernel.bind_apply, Kernel.tick_of_bad conduct _ bad]

theorem perform_tick_final
    (conduct : Conduct β D N)
    (run : Run β D N)
    (now : Instant)
    (delta : Single) :
    (run.perform conduct now (.tick delta)).2 =
      (Kernel.tick conduct delta).final { run with now := now } := by
  rw [perform_final, Kernel.perform, Kernel.final, Kernel.final, Kernel.bind_apply]
  cases Kernel.tick conduct delta { run with now := now } <;> rfl

/-- If no state is to be ticked, no tick hook is called. -/
theorem tick_elsewhere
    (number : delta.isNaN = false)
    (positive : delta.isNegative = false)
    (nobody : ¬ ∃ ready subject, Reaches conduct start ready subject) :
    CallsOnly (fun call => call.1.IsMove) start ((Kernel.tick conduct delta).final start) := by
  obtain ⟨_, _, steps⟩ := (Kernel.beforeTick_follows conduct start).steps
  obtain ⟨early, calls, moves⟩ := steps.callsOnly_moves (by decide) (by decide)
  rw [Kernel.tick_of_valid number positive]
  cases settled : Kernel.beforeTick conduct start with
  | error cause after =>
      rw [Kernel.final_bind_error settled]
      exact ⟨early, calls, moves⟩
  | ok value ready =>
      rw [Kernel.final_bind_ok settled]
      rw [Kernel.final_of_ok settled] at calls
      have empty := Kernel.beforeTick_ok settled
      cases present : ready.machine.current with
      | none =>
          rw [Kernel.final_bind_ok (Kernel.tickCurrent_apply_none conduct delta present),
            Kernel.final_of_ok (Kernel.serveHooks_apply_empty conduct ready empty)]
          exact ⟨early, calls, moves⟩
      | some subject =>
          have paused : subject.paused = true :=
            (Bool.not_eq_false _).mp fun awake => nobody ⟨ready, subject, settled, present, awake⟩
          have skips := Kernel.tickCurrent_apply_some conduct delta present
          rw [if_pos paused] at skips
          rw [Kernel.final_bind_ok skips,
            Kernel.final_of_ok (Kernel.serveHooks_apply_empty conduct (ready.write _) empty)]
          exact ⟨early, (calls_log ready _).trans calls, moves⟩

/-- If a state is to be ticked, its tick hook is called once, and no other tick hook is called. -/
theorem Reaches.delivers
    (reaches : Reaches conduct start ready subject)
    (number : delta.isNaN = false)
    (positive : delta.isNegative = false)
    (orderly : Stage.Orderly ⟨.idle, [], start⟩) :
    ∃ early late,
      Delivers conduct delta start ready ((Kernel.tick conduct delta).final start) subject
        early late := by
  obtain ⟨settled, present, awake⟩ := reaches
  have settles : Steps conduct [.serve, .resume] ⟨.idle, [], start⟩ ⟨.idle, [], ready⟩ :=
    (Kernel.beforeTick_follows conduct start).steps_ok settled
  obtain ⟨early, before, earlyMoves⟩ := settles.callsOnly_moves (by decide) (by decide)
  have orderlyReady : Stage.Orderly ⟨.idle, [], ready⟩ :=
    settles.invariant (fun _ _ step => step.orderly) orderly
  let ticked := ready.hooked conduct (.tick delta) subject
  have ticking : Step conduct [.tick] ⟨.idle, [], ready⟩ ⟨.idle, [], ticked⟩ :=
    .tick subject delta present awake (by decide)
  have called : ticked.calls = ready.calls ++ [(.tick delta, subject.kind, subject.serial)] :=
    ready.calls_reacted conduct (.tick delta) subject
  have ticks := Kernel.tickCurrent_apply_some conduct delta present
  rw [if_neg (by simp [awake])] at ticks
  rw [Kernel.tick_of_valid number positive, Kernel.final_bind_ok settled]
  have drained := Kernel.beforeTick_ok settled
  cases breaks : (ready.reaction conduct (.tick delta) subject).breakdown with
  | some message =>
      rw [Kernel.final_bind_error (by rw [ticks, breaks]; rfl), Kernel.final_of_ended ticks]
      exact ⟨early, [], before, called.trans (List.append_nil _).symm, earlyMoves, nofun, nofun,
        drained, fun unbroken => absurd (breaks.symm.trans unbroken) nofun⟩
  | none =>
      rw [Kernel.final_bind_ok (by rw [ticks, breaks]; rfl)]
      have follows : Follows conduct [] (Kernel.serveHooks conduct) ⟨.idle, [], ticked⟩
          (fun _ => .idle) [] [] := Kernel.serveHooks_follows
      obtain ⟨_, _, serves⟩ := follows.steps
      have here : ticked.machine.current = some (ready.settled conduct (.tick delta) subject) := rfl
      have resting := (ticking.orderly orderlyReady).resting here
      obtain ⟨late, calls, moves⟩ := serves.callsOnly_resting (by simp) resting
      exact ⟨early, late, before, calls.trans (by rw [called]), earlyMoves,
        fun call member => (moves call member).1, fun call member => (moves call member).2,
        drained, fun _ => rfl⟩

end Run

/-- A zero of either sign and the positive infinity are numbers that are not less than zero. -/
theorem Single.valid_of_edge
    {delta : Single}
    (edge : delta.isZero = true ∨ delta.isInfinite = true ∧ delta.isSigned = false) :
    delta.isNaN = false ∧ delta.isNegative = false := by
  rcases edge with zero | ⟨infinite, unsigned⟩
  · have number : delta.isNaN = false := by
      simp only [isZero, isNaN, Bool.and_eq_true, decide_eq_true_eq] at zero ⊢
      simp [zero.1]
    exact ⟨number, by simp [isNegative, zero]⟩
  · have number : delta.isNaN = false := by
      simp only [isInfinite, isNaN, Bool.and_eq_true, decide_eq_true_eq] at infinite ⊢
      simp [infinite.2]
    exact ⟨number, by simp [isNegative, unsigned]⟩

/-- A time step that is not a number or that is less than zero is refused, and everything stays as
it is.  With any other time step, a zero or an infinite one as well, a tick calls at most one tick
hook.  It calls one if everything that was posted and everything that was pending has gone well and
the state that is current then is not paused.  The hook is that of this state, it gets this very
time step, and it comes between what was posted or pending and what the hook itself asks for. -/
theorem tick_delivered_once
    {id : MachineId}
    {config : Config}
    {registry : Registry β}
    {data : D}
    {origin : Machine β D}
    {conduct : Conduct β D N}
    {permitted : Except Interruption Reply → Prop}
    {run after : Run β D N}
    {answer : Except Interruption Reply}
    (made : Machine.make id config registry data = .ok origin)
    (reached : Reachable conduct permitted origin run)
    (now : Instant)
    (delta : Single)
    (ticks : run.perform conduct now (.tick delta) = (answer, after)) :
    (delta.isNaN = true ∨ delta.isNegative = true →
      answer = .error (.refused (.badDelta delta)) ∧ after = { run with now := now }) ∧
    (delta.isZero = true ∨ delta.isInfinite = true ∧ delta.isSigned = false →
      delta.isNaN = false ∧ delta.isNegative = false) ∧
    (delta.isNaN = false → delta.isNegative = false →
      (∀ ready subject,
        Run.Reaches conduct { run with now := now } ready subject →
          ∃ early late,
            Run.Delivers conduct delta { run with now := now } ready after subject early late) ∧
      ((¬ ∃ ready subject, Run.Reaches conduct { run with now := now } ready subject) →
        Run.CallsOnly (fun call => call.1.IsMove) run after)) := by
  have ends : (Kernel.tick conduct delta).final { run with now := now } = after := by
    rw [← run.perform_tick_final, ticks]
  have orderly := ((orderly_lasting conduct permitted made).reachable reached).clock now
  refine ⟨fun bad => ?_, Single.valid_of_edge, fun number positive => ⟨?_, fun nobody => ?_⟩⟩
  · rw [run.perform_tick_of_bad conduct now bad] at ticks
    exact ⟨(congrArg Prod.fst ticks).symm, (congrArg Prod.snd ticks).symm⟩
  · intro ready subject reaches
    rw [← ends]
    exact reaches.delivers number positive orderly
  · rw [← ends]
    exact Run.tick_elsewhere number positive nobody

/-- A time step without end is delivered to the current state of a relay. -/
theorem tick_delivered_once_relay :
    ∃ ready subject early late,
      Run.Delivers Actor.conduct ⟨0x7F800000⟩ { relayStarted true with now := .epoch } ready
        ((relayStarted true).perform Actor.conduct .epoch (.tick ⟨0x7F800000⟩)).2 subject
        early late := by
  have active : (relayStarted true).machine.current.isSome := by decide +kernel
  obtain ⟨subject, present⟩ := Option.isSome_iff_exists.mp active
  have awake : subject.paused = false := by
    have any : (relayStarted true).machine.current.all fun subject => !subject.paused := by
      decide +kernel
    rw [present] at any
    simpa using any
  have settled := Kernel.beforeTick_apply_idle Actor.conduct
    { relayStarted true with now := .epoch } (List.isEmpty_iff.mp (by decide +kernel))
    (Option.isNone_iff_eq_none.mp (by decide +kernel))
  obtain ⟨-, edge, delivery⟩ :=
    tick_delivered_once (relay_made true) (relayStarted_reachable true) .epoch ⟨0x7F800000⟩
      (Prod.eta _).symm
  obtain ⟨number, positive⟩ := edge (by decide)
  exact ⟨_, subject, (delivery number positive).1 _ subject ⟨settled, present, awake⟩⟩

end TickMachine
