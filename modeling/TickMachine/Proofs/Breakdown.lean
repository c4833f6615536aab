import TickMachine.Proofs.Departure

/-!
# Machines after hooks broke off

A machine can be used again when a hook has broken off.  It still parks no state that the stack does
not refer to, and it still knows whether any state was ever entered.  The stack may refer to a state
that is gone, but only if an exit hook broke off while this state was on its way.  A pop that comes
to such an entry takes it off and is refused, and every other pop leads to the very state that was
pushed.
-/

namespace TickMachine

variable {β D N : Type}

/-! ## Whether a state was ever entered -/

/-- The machine remembers whether any enter hook was called. -/
structure Stage.Begun (stage : Stage β D N) : Prop where
  entered : stage.run.machine.everEntered = true ↔ .enter ∈ stage.run.calls.map Prod.fst
  active : stage.run.machine.isActive = true → stage.run.machine.everEntered = true

section Steps

variable {conduct : Conduct β D N} {deeds : List Deed} {before after : Stage β D N}

/-- What makes no first enter call and brings no state into the current place. -/
theorem Stage.Begun.carry
    (begun : before.Begun)
    (more : List (Hook × Kind × Serial))
    (calls : after.run.calls = before.run.calls ++ more)
    (already : .enter ∈ more.map Prod.fst → before.run.machine.isActive = true)
    (same : after.run.machine.everEntered = before.run.machine.everEntered)
    (active : after.run.machine.isActive = true → before.run.machine.isActive = true) :
    after.Begun where
  entered := by
    rw [same, calls, List.map_append, List.mem_append]
    refine ⟨fun entered => .inl (begun.entered.mp entered), fun called => ?_⟩
    rcases called with earlier | now
    · exact begun.entered.mpr earlier
    · exact begun.active (already now)
  active present := by
    rw [same]
    exact begun.active (active present)

/-- What calls no hook. -/
theorem Stage.Begun.quiet
    (begun : before.Begun)
    (calls : after.run.calls = before.run.calls)
    (same : after.run.machine.everEntered = before.run.machine.everEntered)
    (active : after.run.machine.isActive = true → before.run.machine.isActive = true) :
    after.Begun :=
  begun.carry [] (by rw [calls, List.append_nil]) nofun same active

/-- A step remembers whether a state was ever entered. -/
theorem Step.begun
    (step : Step conduct deeds before after)
    (begun : before.Begun) :
    after.Begun := by
  cases step with
  | write entry quiet => exact begun.quiet (Run.calls_write _ entry quiet) rfl id
  | @pause phase batch run paused =>
      refine begun.quiet rfl rfl fun present => ?_
      rw [Machine.isActive, Run.withCurrent_current, Option.isSome_map] at present
      exact present
  | take destination request taken =>
      refine begun.quiet ?_ ?_ ?_
      · rw [Run.calls, Run.take_journal]
        rfl
      · rw [Run.take_machine]
      · rw [Run.take_machine]
        exact id
  | make | create | skip => exact begun.quiet (Run.calls_log _ _) rfl id
  | letGo subject =>
      refine begun.quiet (Run.calls_released _ subject) ?_ ?_
      · rw [Run.released_machine]
      · rw [Run.released_machine]
        exact id
  | release source previous next =>
      refine begun.quiet (Run.calls_released _ previous) ?_ ?_
      · rw [Run.released_machine]
      · rw [Run.released_machine]
        exact id
  | pop serial below transition rest top retrieved =>
      obtain ⟨_, _, rfl⟩ := Machine.retrieve_frame retrieved
      exact begun.quiet (Run.calls_log _ _) rfl id
  | tick subject _ present | restart subject present | exitInPlace _ subject present
  | enterAgain _ subject present =>
      exact begun.carry _ (Run.calls_reacted _ conduct _ subject)
        (fun _ => Option.isSome_of_eq_some present) rfl fun _ => Option.isSome_of_eq_some present
  | exit subject _ present | leave subject present =>
      exact begun.carry _ (Run.calls_reacted _ conduct .exit subject)
        (fun _ => Option.isSome_of_eq_some present) rfl (fun present => by cases present)
  | @enter batch run next absent =>
      have calls := (run.entering next).calls_reacted conduct .enter next
      constructor
      · refine ⟨fun _ => ?_, fun _ => rfl⟩
        change .enter ∈ ((run.entering next).reacted conduct .enter next).calls.map Prod.fst
        rw [calls]
        simp
      · exact fun _ => rfl
  | _ => exact begun.quiet rfl rfl id

end Steps

/-- A machine remembers whether a state was ever entered, breakdowns included. -/
theorem begun_lasting
    {id : MachineId}
    {config : Config}
    {registry : Registry β}
    {data : D}
    {origin : Machine β D}
    (conduct : Conduct β D N)
    (permitted : Except Interruption Reply → Prop)
    (made : Machine.make id config registry data = .ok origin) :
    Lasting conduct permitted origin Stage.Begun where
  start now := by
    rw [Machine.eq_idle_of_make made]
    exact ⟨⟨nofun, nofun⟩, nofun⟩
  step _ _ step begun := step.begun begun
  clock _ _ begun := ⟨begun.entered, begun.active⟩
  rearrange _ _ _ begun := ⟨begun.entered, begun.active⟩
  refused _ _ begun := ⟨begun.entered, begun.active⟩
  broken _ _ _ _ _ _ begun := ⟨begun.entered, begun.active⟩

/-- A machine is uninitialized until the first enter hook is called, even if that breaks off. -/
theorem Stage.Begun.status_iff
    {run : Run β D N}
    (begun : Begun ⟨.idle, [], run⟩) :
    run.machine.status = .uninitialized ↔ .enter ∉ run.calls.map Prod.fst := by
  rw [← not_congr begun.entered, Machine.status]
  cases present : run.machine.isActive with
  | true => simpa using begun.active present
  | false => cases run.machine.everEntered <;> simp

/-! ## Pops -/

/-- What a machine finds again is a state with the number that it has. -/
theorem Stage.Orderly.has_of_retrieve
    {run : Run β D N}
    {serial : Serial}
    {below : List Serial}
    {transition : Transition β}
    {rest : Machine β D}
    (orderly : Orderly ⟨.idle, [], run⟩)
    (retrieved : { run.machine with stack := below }.retrieve serial = some (transition, rest)) :
    ∃ subject : Instance β, subject.serial = serial ∧ run.machine.Has subject := by
  obtain ⟨found, parked, -, -⟩ | ⟨-, subject, present, same, -, -⟩ |
      ⟨-, elsewhere, waiting, same, -⟩ :=
    Machine.retrieve_cases retrieved
  · have own : found.serial = serial := orderly.keyed serial found parked
    exact ⟨found, own, .inr (.inr (by rw [own]; exact parked))⟩
  · exact ⟨subject, same, .inl present⟩
  · cases transition with
    | replace next => exact ⟨next, same, .inr (.inl waiting)⟩
    | reenter kind number =>
        cases same
        refine absurd (Machine.currentSerial_of_identity
          (orderly.again (kind, number) ?_)) elsewhere
        exact .inr (congrArg (Option.bind · Transition.again?) waiting)

/-- A pop that has served what was posted takes the top entry off the stack and requests the very
state that the entry refers to. -/
def Run.ComesBack
    (conduct : Conduct β D N)
    (run drained : Run β D N)
    (now : Instant)
    (serial : Serial)
    (below : List Serial) : Prop :=
  ∃ (subject : Instance β) (transition : Transition β)
    (parked : Std.TreeMap Serial (Instance β)) (pending : Option (Transition β)),
    subject.serial = serial ∧ drained.machine.Has subject ∧
    (transition = .replace subject ∧ drained.machine.currentSerial ≠ some serial ∨
      transition = .reenter subject.kind serial ∧ drained.machine.current = some subject) ∧
    Kernel.perform conduct .pop { run with now := now } =
      (do
        let outcome ← Kernel.submit conduct transition
        Kernel.serveHooks conduct
        pure (Reply.ofOutcome (some outcome)))
      (Run.write
        { drained with machine := { drained.machine with
            stack := below, parked := parked, pending := pending } }
        (.logged (.popped serial below.length)))

/-- A pop either comes back to a state that the machine has, or it takes the entry off the stack and
is refused. -/
theorem Run.perform_pop_cases
    {conduct : Conduct β D N}
    {run drained : Run β D N}
    {now : Instant}
    {serial : Serial}
    {below : List Serial}
    (orderly : Stage.Orderly ⟨.idle, [], drained⟩)
    (drains : Kernel.serveHandles conduct { run with now := now } = .ok () drained)
    (top : drained.machine.stack = serial :: below) :
    run.ComesBack conduct drained now serial below ∨
      drained.machine.copies serial = 0 ∧
        run.perform conduct now .pop =
          (.error (.refused (.lost serial)),
            drained.mapMachine fun machine => { machine with stack := below }) := by
  have works : Kernel.perform conduct .pop { run with now := now } =
      (do
        let outcome ← Kernel.popOwn conduct
        pure (Reply.ofOutcome outcome)) drained := by
    have parts : Kernel.pop conduct = (do Kernel.serveHandles conduct; Kernel.popOwn conduct) := rfl
    rw [Kernel.perform, parts, bind_assoc, Kernel.bind_apply, drains]
  cases retrieved : { drained.machine with stack := below }.retrieve serial with
  | none =>
      have gone : { drained.machine with stack := below }.copies serial = 0 :=
        Machine.copies_of_retrieve_eq_none retrieved
      refine .inr ⟨gone, ?_⟩
      rw [perform_pop drains, Kernel.popOwn_apply, top]
      dsimp only
      rw [retrieved]
  | some leads =>
      obtain ⟨subject, rfl, has⟩ := orderly.has_of_retrieve retrieved
      obtain ⟨transition, parked, pending, aims, own⟩ :=
        Kernel.popOwn_of_holds conduct orderly (Stage.holds_idle.mpr has) top
      refine .inl ⟨subject, transition, parked, pending, rfl, has, aims, ?_⟩
      rw [works, Kernel.bind_apply, own, ← Kernel.bind_apply]
      simp only [bind_assoc, pure_bind]

/-! ## Runs in which hooks break off -/

/-- Whatever hooks do, only states that the stack refers to are parked, and the machine knows
whether any state was ever entered.  A pop that has served what was posted comes back to the state
that was pushed last, or it takes the entry off the stack and is refused.  An entry of the stack can
refer to a state that is gone only if an exit hook broke off while this state was on its way. -/
theorem stack_withstands_breakdowns
    {id : MachineId}
    {config : Config}
    {registry : Registry β}
    {data : D}
    {origin : Machine β D}
    {conduct : Conduct β D N}
    {past : List (Moment β D N)}
    {run : Run β D N}
    {start : Instant}
    (made : Machine.make id config registry data = .ok origin)
    (onward : Onward conduct ⟨origin, ∅, #[], start⟩ past run) :
    (∀ serial ∈ run.machine.parked, serial ∈ run.machine.stack) ∧
    (run.machine.status = .uninitialized ↔ .enter ∉ run.calls.map Prod.fst) ∧
    (∀ now drained serial below,
      Kernel.serveHandles conduct { run with now := now } = .ok () drained →
      drained.machine.stack = serial :: below →
      run.ComesBack conduct drained now serial below ∨
        (∃ moment ∈ past, moment.Loses conduct serial) ∧
          run.perform conduct now .pop =
            (.error (.refused (.lost serial)),
              drained.mapMachine fun machine => { machine with stack := below })) ∧
    ∀ serial ∈ run.machine.stack, run.machine.retrieve serial = none →
      ∃ moment ∈ past, moment.Loses conduct serial := by
  have reached : Reachable conduct (fun _ => True) origin run :=
    onward.reachable (fun _ _ => trivial) (.start start)
  have orderly := (orderly_lasting conduct (fun _ => True) made).reachable reached
  have begun := (begun_lasting conduct (fun _ => True) made).reachable reached
  refine ⟨orderly.wanted, begun.status_iff, fun now drained serial below drains top => ?_,
    fun serial pushed stale => onward.lost made pushed (Machine.copies_of_retrieve_eq_none stale)⟩
  have steps : Steps conduct [.serve] ⟨.idle, [], { run with now := now }⟩ ⟨.idle, [], drained⟩ :=
    (Kernel.serveHandles_follows List.mem_cons_self).steps_ok drains
  have same : drained.machine.stack = run.machine.stack := steps.stack_eq (by decide) (by decide)
  have orderlyThen : Stage.Orderly ⟨.idle, [], drained⟩ :=
    steps.invariant (fun _ _ step => step.orderly) (orderly.clock now)
  refine (Run.perform_pop_cases orderlyThen drains top).imp_right fun ⟨gone, refused⟩ =>
    ⟨?_, refused⟩
  -- To serve what was posted does not lose the state, so it was gone before.
  have pushed : serial ∈ run.machine.stack := by
    rw [← same, top]
    exact List.mem_cons_self
  refine onward.lost made pushed (not_not.mp fun here => ?_)
  have kept : 1 ≤ 0 + drained.machine.copies serial :=
    steps.kept (orderly.clock now) serial (fun _ => by
      change 1 ≤ 0 + run.machine.copies serial
      omega) (by rw [top]; exact List.mem_cons_self)
  omega

/-- A brittle state is pushed and breaks off when it exits.  It was lost at that moment, and its
entry is still on the stack. -/
theorem stack_withstands_breakdowns_brittle :
    ∃ past,
      Onward Actor.conduct ⟨brittle true, ∅, #[], .epoch⟩ past
        (brittleAfter true [.switchTo (.fresh ⟨1⟩), .push, .switchTo (.fresh ⟨2⟩)]) ∧
      ∃ moment ∈ past, moment.Loses Actor.conduct ⟨1⟩ := by
  obtain ⟨past, onward⟩ := Onward.stay.performAll _
  refine ⟨past, onward, ?_⟩
  refine (stack_withstands_breakdowns (brittle_made true) onward).2.2.2 ⟨1⟩ ?_ ?_
  · decide +kernel
  · exact Option.isNone_iff_eq_none.mp (by decide +kernel)

end TickMachine
