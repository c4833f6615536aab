import TickMachine.Proofs.Silence

/-!
# States that are not entered

A machine enters a state because it was requested, because it was popped, or because it was pending
and its time has come.  A state that is current or that the stack refers to cannot be requested.  So
a call that neither pops nor makes the pending transition may let such a state exit, but it does not
enter it.  Nothing but a tick calls a tick hook, and nothing but a restart calls a restart hook.
-/

namespace TickMachine

variable {β D N : Type}

/-! ## What a number of steps calls -/

/-- A hook of a transition. -/
def Hook.IsMove (hook : Hook) : Prop :=
  hook = .enter ∨ hook = .exit

/-- From one run to another only such hooks were called. -/
def Run.CallsOnly
    (told : Hook × Kind × Serial → Prop)
    (before after : Run β D N) : Prop :=
  ∃ more, after.calls = before.calls ++ more ∧ ∀ call ∈ more, told call

section Steps

variable {conduct : Conduct β D N} {deeds : List Deed} {before after start final : Stage β D N}
  {serial : Serial}

/-- Every hook that steps call has its cause at a stage on the way. -/
theorem Steps.callsOnly
    {holds : Stage β D N → Prop}
    {told : Hook × Kind × Serial → Prop}
    (steps : Steps conduct deeds start final)
    (preserved : ∀ before after, Step conduct deeds before after → holds before → holds after)
    (each : ∀ stage hook kind serial,
      holds stage → stage.Causes deeds serial hook → told (hook, kind, serial))
    (initially : holds start) :
    Run.CallsOnly told start.run final.run := by
  induction steps with
  | refl => exact ⟨[], (List.append_nil _).symm, nofun⟩
  | @tail middle final earlier step inductionHypothesis =>
      obtain ⟨more, calls, fits⟩ := inductionHypothesis
      obtain same | ⟨hook, other, -, caused, added⟩ := step.calls_cases
      · exact ⟨more, same.trans calls, fits⟩
      · refine ⟨more ++ [(hook, other.kind, other.serial)], ?_, ?_⟩
        · rw [added, calls, List.append_assoc]
        · have holdsThen : holds middle := Steps.invariant preserved earlier initially
          exact List.forall_mem_append.mpr
            ⟨fits, List.forall_mem_singleton.mpr (each middle hook _ _ holdsThen caused)⟩

theorem Stage.Causes.isMove
    {stage : Stage β D N}
    {hook : Hook}
    (caused : stage.Causes deeds serial hook)
    (neverTicked : .tick ∉ deeds)
    (neverRestarted : .restart ∉ deeds) :
    hook.IsMove := by
  cases hook with
  | enter => exact .inl rfl
  | exit => exact .inr rfl
  | tick delta => exact absurd caused neverTicked
  | restart => exact absurd caused neverRestarted

/-- If no state is ticked and none is asked to restart, then states only enter and exit. -/
theorem Steps.callsOnly_moves
    (steps : Steps conduct deeds start final)
    (neverTicked : .tick ∉ deeds)
    (neverRestarted : .restart ∉ deeds) :
    Run.CallsOnly (fun call => call.1.IsMove) start.run final.run := by
  have each (stage : Stage β D N) (hook : Hook) (kind : Kind) (serial : Serial) (_ : True)
      (caused : stage.Causes deeds serial hook) : hook.IsMove :=
    caused.isMove neverTicked neverRestarted
  exact steps.callsOnly (fun _ _ _ _ => trivial) each trivial

/-! ## States at rest -/

/-- The state with a number cannot be requested any more, and the call is not about to enter it. -/
structure Stage.Resting (stage : Stage β D N) (serial : Serial) : Prop where
  captured : stage.Captured serial
  aside : stage.phase.coming? ≠ some serial

/-- The current state is at rest between two transitions. -/
theorem Stage.Orderly.resting
    {batch : List (Request β)}
    {run : Run β D N}
    {subject : Instance β}
    (orderly : Stage.Orderly ⟨.idle, batch, run⟩)
    (present : run.machine.current = some subject) :
    Stage.Resting ⟨.idle, batch, run⟩ subject.serial :=
  ⟨orderly.captured (Stage.inside_pos (.inl present)), nofun⟩

/-- A state on the stack is at rest between two transitions. -/
theorem Stage.Noted.resting
    {batch : List (Request β)}
    {run : Run β D N}
    (noted : Stage.Noted ⟨.idle, batch, run⟩)
    (pushed : serial ∈ run.machine.stack) :
    Stage.Resting ⟨.idle, batch, run⟩ serial :=
  ⟨noted.captured serial (noted.pushed serial pushed), nofun⟩

/-- A request is not taken up for a state that cannot be requested any more. -/
theorem Step.aside
    (step : Step conduct deeds before after)
    (neverPopped : .pop ∉ deeds)
    (neverResumed : .resume ∉ deeds)
    (resting : before.Resting serial) :
    after.phase.coming? ≠ some serial := by
  obtain ⟨captured, aside⟩ := resting
  cases step with
  | make kind behavior concrete =>
      exact fun comes => captured.ne_newborn kind behavior (Option.some.inj comes)
  | accept subject own => exact fun comes => captured.ne_existing own (Option.some.inj comes)
  | pop key below transition rest top retrieved done => exact absurd done neverPopped
  | resume transition occupied done => exact absurd done neverResumed
  | write | setData | pause | pauseHeld | take | enqueue | lose | draw | next | clear | giveBack
  | urge | exit | vacant | release | record | exitInPlace => exact aside
  | _ => nofun

/-- A state at rest stays at rest as long as nothing is popped and no pending transition is made. -/
theorem Step.resting
    (step : Step conduct deeds before after)
    (neverPopped : .pop ∉ deeds)
    (neverResumed : .resume ∉ deeds)
    (resting : before.Resting serial) :
    after.Resting serial :=
  ⟨step.captured resting.captured, step.aside neverPopped neverResumed resting⟩

/-- A state at rest is not entered, whatever other states enter and exit. -/
theorem Steps.callsOnly_resting
    (steps : Steps conduct deeds start final)
    (peaceful : ∀ deed ∈ deeds, deed ≠ .pop ∧ deed ≠ .resume ∧ deed ≠ .tick ∧ deed ≠ .restart)
    (resting : start.Resting serial) :
    Run.CallsOnly (fun call => call.1.IsMove ∧ (call.1 = .enter → call.2.2 ≠ serial))
      start.run final.run := by
  have never (deed : Deed) (unlike : ∀ other ∈ deeds, other ≠ deed) : deed ∉ deeds :=
    fun done => unlike deed done rfl
  have neverPopped := never .pop fun deed done => (peaceful deed done).1
  have neverResumed := never .resume fun deed done => (peaceful deed done).2.1
  have neverTicked := never .tick fun deed done => (peaceful deed done).2.2.1
  have neverRestarted := never .restart fun deed done => (peaceful deed done).2.2.2
  refine steps.callsOnly (fun _ _ step => step.resting neverPopped neverResumed)
    (fun stage hook kind other resting caused => ?_) resting
  refine ⟨caused.isMove neverTicked neverRestarted, ?_⟩
  rintro rfl same
  exact resting.aside (same ▸ caused)

end Steps
end TickMachine
