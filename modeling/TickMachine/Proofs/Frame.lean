import TickMachine.Proofs.Course

/-!
# What steps leave alone

A step adds to the journal at most, and it tells there of no deeds but those that are done.  The
number, the configuration and the kinds of a machine never change.  The stack changes only where a
state is pushed or taken off it.
-/

namespace TickMachine

variable {β D N α γ : Type}

namespace Run

/-- The journal of a run continues that of an earlier one, and it tells of no deeds but these in
between. -/
def GoesOn (deeds : List Deed) (before after : Run β D N) : Prop :=
  ∃ added : List (Entry β N),
    after.journal.toList = before.journal.toList ++ added ∧
      ∀ entry ∈ added, ∀ deed ∈ entry.deed?, deed ∈ deeds

namespace GoesOn

variable {deeds : List Deed} {before middle after : Run β D N}

theorem of_eq (same : after.journal = before.journal) : GoesOn deeds before after :=
  ⟨[], by rw [same, List.append_nil], nofun⟩

theorem trans
    (first : GoesOn deeds before middle)
    (second : GoesOn deeds middle after) :
    GoesOn deeds before after := by
  obtain ⟨early, wrote, fitting⟩ := first
  obtain ⟨late, continued, others⟩ := second
  refine ⟨early ++ late, by rw [continued, wrote, List.append_assoc], fun entry member => ?_⟩
  rcases List.mem_append.mp member with member | member
  · exact fitting entry member
  · exact others entry member

theorem write
    (run : Run β D N)
    (entry : Entry β N)
    (fits : ∀ deed ∈ entry.deed?, deed ∈ deeds) :
    GoesOn deeds run (run.write entry) := by
  refine ⟨[entry], by simp, fun other member => ?_⟩
  rw [List.mem_singleton.mp member]
  exact fits

/-- To let a state go adds to the journal that it is parked, or nothing. -/
theorem released (run : Run β D N) (subject : Instance β) :
    GoesOn deeds run (run.released subject) := by
  unfold Run.released
  split
  · exact write run _ nofun
  · exact write run _ nofun

/-- The calls and the notes of hooks tell of no deeds. -/
theorem reacted
    (run : Run β D N)
    (conduct : Conduct β D N)
    (hook : Hook)
    (subject : Instance β) :
    GoesOn deeds run (run.reacted conduct hook subject) := by
  let notes := (run.reaction conduct hook subject).notes
  refine ⟨.called hook subject.kind subject.serial :: notes.map .noted, ?_, fun entry member => ?_⟩
  · simp [Run.reacted, notes]
  · rcases List.mem_cons.mp member with rfl | member
    · intro deed told
      cases told
    · obtain ⟨note, _, rfl⟩ := List.mem_map.mp member
      intro deed told
      cases told

end GoesOn

end Run

variable {conduct : Conduct β D N} {deeds : List Deed} {before after : Stage β D N}

/-- A step tells in the journal of no deeds but those that are done. -/
theorem Step.goesOn (step : Step conduct deeds before after) :
    before.run.GoesOn deeds after.run := by
  cases step with
  | write entry quiet fits => exact .write _ entry fits
  | take destination request taken => exact .of_eq (Run.take_journal _ destination)
  | make kind behavior concrete => exact .write _ _ nofun
  | create kind behavior slot done => exact .write _ _ nofun
  | letGo subject => exact .released _ subject
  | pop serial below transition rest top retrieved => exact .write _ _ nofun
  | release source previous next => exact .released _ previous
  | tick subject delta present awake => exact .reacted _ conduct (.tick delta) subject
  | restart subject present => exact .reacted _ conduct .restart subject
  | exit subject | exitInPlace _ subject | leave subject => exact .reacted _ conduct .exit subject
  | @enter batch run next absent => exact .reacted (run.entering next) conduct .enter next
  | enterAgain kind subject present => exact .reacted _ conduct .enter subject
  | skip kind serial elsewhere => exact .write _ _ nofun
  | _ => exact .of_eq rfl

theorem Steps.goesOn (steps : Steps conduct deeds before after) :
    before.run.GoesOn deeds after.run := by
  induction steps with
  | refl => exact .of_eq rfl
  | tail _ step inductionHypothesis => exact inductionHypothesis.trans step.goesOn

/-- A machine keeps its number, its configuration and its kinds. -/
theorem Step.fixed (step : Step conduct deeds before after) :
    after.run.machine.id = before.run.machine.id ∧
      after.run.machine.config = before.run.machine.config ∧
      after.run.machine.registry = before.run.machine.registry := by
  cases step with
  | take destination request taken => rw [Run.take_machine]; exact ⟨rfl, rfl, rfl⟩
  | letGo | release => rw [Run.released_machine]; exact ⟨rfl, rfl, rfl⟩
  | pop serial below transition rest top retrieved =>
      obtain ⟨_, _, rfl⟩ := Machine.retrieve_frame retrieved
      exact ⟨rfl, rfl, rfl⟩
  | _ => exact ⟨rfl, rfl, rfl⟩

/-- A machine keeps its number, its configuration and its registry through a call. -/
theorem Steps.fixed (steps : Steps conduct deeds before after) :
    after.run.machine.id = before.run.machine.id ∧
      after.run.machine.config = before.run.machine.config ∧
      after.run.machine.registry = before.run.machine.registry := by
  induction steps with
  | refl => exact ⟨rfl, rfl, rfl⟩
  | tail _ step inductionHypothesis =>
      obtain ⟨id, config, registry⟩ := step.fixed
      obtain ⟨sameId, sameConfig, sameRegistry⟩ := inductionHypothesis
      exact ⟨id.trans sameId, config.trans sameConfig, registry.trans sameRegistry⟩

/-- A step leaves the stack as it is, or puts the current state on it, or takes one off it. -/
theorem Step.stack_cases (step : Step conduct deeds before after) :
    after.run.machine.stack = before.run.machine.stack ∨
    (.push ∈ deeds ∧ ∃ subject, before.run.machine.current = some subject ∧
      after.run.machine.stack = subject.serial :: before.run.machine.stack) ∨
    (.pop ∈ deeds ∧ ∃ serial, before.run.machine.stack = serial :: after.run.machine.stack) := by
  cases step with
  | take destination request taken => exact .inl (by rw [Run.take_machine])
  | letGo | release => exact .inl (by rw [Run.released_machine])
  | push subject present done => exact .inr (.inl ⟨done, subject, present, rfl⟩)
  | pop serial below transition rest top retrieved done =>
      obtain ⟨_, _, rfl⟩ := Machine.retrieve_frame retrieved
      exact .inr (.inr ⟨done, serial, top⟩)
  | popLost serial below top lost done => exact .inr (.inr ⟨done, serial, top⟩)
  | _ => exact .inl rfl

/-- Without a push the stack does not get longer. -/
theorem Step.stack_shrinks
    (step : Step conduct deeds before after)
    (never : .push ∉ deeds) :
    after.run.machine.stack <:+ before.run.machine.stack := by
  obtain same | ⟨pushed, _⟩ | ⟨_, serial, top⟩ := step.stack_cases
  · exact same ▸ List.suffix_rfl
  · exact absurd pushed never
  · rw [top]
    exact List.suffix_cons serial _

/-- If no state is taken off the stack, it does not get shorter. -/
theorem Step.stack_grows
    (step : Step conduct deeds before after)
    (never : .pop ∉ deeds) :
    before.run.machine.stack <:+ after.run.machine.stack := by
  obtain same | ⟨_, subject, _, top⟩ | ⟨popped, _⟩ := step.stack_cases
  · exact same ▸ List.suffix_rfl
  · rw [top]
    exact List.suffix_cons subject.serial _
  · exact absurd popped never

/-- Without a push, a call takes states off the stack at most. -/
theorem Steps.stack_shrinks
    (steps : Steps conduct deeds before after)
    (never : .push ∉ deeds) :
    after.run.machine.stack <:+ before.run.machine.stack := by
  induction steps with
  | refl => exact List.suffix_rfl
  | tail _ step inductionHypothesis => exact (step.stack_shrinks never).trans inductionHypothesis

/-- Without a pop, a call puts states onto the stack at most. -/
theorem Steps.stack_grows
    (steps : Steps conduct deeds before after)
    (never : .pop ∉ deeds) :
    before.run.machine.stack <:+ after.run.machine.stack := by
  induction steps with
  | refl => exact List.suffix_rfl
  | tail _ step inductionHypothesis => exact inductionHypothesis.trans (step.stack_grows never)

/-- If no state is put on the stack or taken off it, the stack stays the same. -/
theorem Steps.stack_eq
    (steps : Steps conduct deeds before after)
    (neverPushed : .push ∉ deeds)
    (neverPopped : .pop ∉ deeds) :
    after.run.machine.stack = before.run.machine.stack :=
  (steps.stack_shrinks neverPushed).eq_of_length_le (steps.stack_grows neverPopped).length_le

/-! ## Programs -/

/-- The run that a program leaves behind, however it ends. -/
def Kernel.final (program : Kernel β D N α) (run : Run β D N) : Run β D N :=
  match program run with
  | .ok _ after => after
  | .error _ after => after

theorem Kernel.final_of_ok
    {program : Kernel β D N α}
    {run after : Run β D N}
    {value : α}
    (done : program run = .ok value after) :
    program.final run = after := by
  unfold final
  rw [done]

theorem Kernel.final_of_ended
    {program : Kernel β D N α}
    {run after : Run β D N}
    {value : α}
    {breakdown : Option String}
    (ends : program run = ended breakdown value after) :
    program.final run = after := by
  unfold final
  rw [ends]
  cases breakdown <;> rfl

theorem Kernel.final_bind_ok
    {program : Kernel β D N α}
    {next : α → Kernel β D N γ}
    {run middle : Run β D N}
    {value : α}
    (began : program run = .ok value middle) :
    (program >>= next).final run = (next value).final middle := by
  unfold final
  rw [bind_apply, began]

theorem Kernel.final_bind_error
    {program : Kernel β D N α}
    {next : α → Kernel β D N γ}
    {run after : Run β D N}
    {cause : Interruption}
    (stopped : program run = .error cause after) :
    (program >>= next).final run = program.final run := by
  unfold final
  rw [bind_apply, stopped]

/-- An operation leaves the run with which its program ends, whether or not it is interrupted. -/
theorem Run.perform_final
    (conduct : Conduct β D N)
    (run : Run β D N)
    (now : Instant)
    (operation : Operation β D) :
    (run.perform conduct now operation).2 =
      (Kernel.perform conduct operation).final { run with now := now } := by
  unfold Run.perform Kernel.final
  cases Kernel.perform conduct operation { run with now := now } <;> rfl

/-- However a program ends, it has taken its run through steps. -/
theorem Follows.steps
    {program : Kernel β D N α}
    {start : Stage β D N}
    {phase : α → Phase β}
    {batch left : List (Request β)}
    (follows : Follows conduct deeds program start phase batch left) :
    ∃ phase batch, Steps conduct deeds start ⟨phase, batch, program.final start.run⟩ := by
  unfold Follows at follows
  unfold Kernel.final
  cases ends : program start.run with
  | ok value after =>
      rw [ends] at follows
      exact ⟨_, _, follows⟩
  | error cause after =>
      rw [ends] at follows
      cases cause with
      | refused refusal => exact ⟨_, _, follows⟩
      | brokenOff message =>
          obtain ⟨phase, batch, _, steps⟩ := follows
          exact ⟨phase, batch, steps⟩

/-- However an operation ends, it has taken its run through steps. -/
theorem Run.perform_anyhow
    (conduct : Conduct β D N)
    (run : Run β D N)
    (now : Instant)
    (operation : Operation β D) :
    ∃ phase batch, Steps conduct operation.deeds ⟨.idle, [], { run with now := now }⟩
      ⟨phase, batch, (run.perform conduct now operation).2⟩ := by
  have follows : Follows conduct operation.deeds (Kernel.perform conduct operation)
      ⟨.idle, [], { run with now := now }⟩ (fun _ => .idle) [] [] :=
    Kernel.perform_follows operation
  rw [run.perform_final]
  exact follows.steps

end TickMachine
