import TickMachine.Proofs.Stage

/-!
# Programs as courses of steps

Every program of the kernel takes its run through a course of steps.  Three ends are told apart.
A program that ends with a value leaves the call in a phase that depends on the value.  One that is
refused leaves nothing on its way.  If a hook breaks off, the run stays as it was when the hook
ended, and what the call held then is lost.
-/

namespace TickMachine

variable {β D N α γ : Type}

/-- A program takes a stage by steps to the given phase and batch.  If it is refused, the phase is
that of the refusal, and the batch is what is left. -/
def Follows
    (conduct : Conduct β D N)
    (deeds : List Deed)
    (program : Kernel β D N α)
    (start : Stage β D N)
    (phase : α → Phase β)
    (batch left : List (Request β)) : Prop :=
  match program start.run with
  | .ok value after => Steps conduct deeds start ⟨phase value, batch, after⟩
  | .error (.refused refusal) after => Steps conduct deeds start ⟨refusal.phase, left, after⟩
  | .error (.brokenOff _) after =>
      ∃ phase batch, Phase.IsHooked phase ∧ Steps conduct deeds start ⟨phase, batch, after⟩

namespace Follows

variable {conduct : Conduct β D N} {deeds : List Deed} {program : Kernel β D N α}
  {start : Stage β D N} {phase : α → Phase β} {batch left : List (Request β)}

theorem of_ok
    {after : Run β D N}
    (value : α)
    (ends : program start.run = .ok value after)
    (steps : Steps conduct deeds start ⟨phase value, batch, after⟩) :
    Follows conduct deeds program start phase batch left := by
  unfold Follows
  rw [ends]
  exact steps

theorem of_refused
    {after : Run β D N}
    (refusal : Refusal)
    (ends : program start.run = .error (.refused refusal) after)
    (steps : Steps conduct deeds start ⟨refusal.phase, left, after⟩) :
    Follows conduct deeds program start phase batch left := by
  unfold Follows
  rw [ends]
  exact steps

/-- A program that ends with a call of a hook. -/
theorem of_ended
    {value : α}
    {after : Run β D N}
    {breakdown : Option String}
    (ends : program start.run = Kernel.ended breakdown value after)
    (steps : Steps conduct deeds start ⟨phase value, batch, after⟩)
    (hooked : (phase value).IsHooked) :
    Follows conduct deeds program start phase batch left := by
  unfold Follows
  rw [ends]
  cases breakdown with
  | none => exact steps
  | some message => exact ⟨_, _, hooked, steps⟩

/-- The steps of a program that ends with a value. -/
theorem steps_ok
    {value : α}
    {after : Run β D N}
    (follows : Follows conduct deeds program start phase batch left)
    (ends : program start.run = .ok value after) :
    Steps conduct deeds start ⟨phase value, batch, after⟩ := by
  unfold Follows at follows
  rw [ends] at follows
  exact follows

theorem pure
    {held : Phase β}
    {run : Run β D N}
    (value : α) :
    Follows conduct deeds (pure value) ⟨held, batch, run⟩ (fun _ => held) batch left :=
  of_ok value rfl .refl

/-- A program that goes on as another program does from a later stage. -/
theorem advance
    {middle : Stage β D N}
    (rest : Kernel β D N α)
    (steps : Steps conduct deeds start middle)
    (same : program start.run = rest middle.run)
    (follows : Follows conduct deeds rest middle phase batch left) :
    Follows conduct deeds program start phase batch left := by
  unfold Follows at follows ⊢
  rw [same]
  cases ends : rest middle.run with
  | ok value after =>
      rw [ends] at follows
      exact steps.trans follows
  | error cause after =>
      rw [ends] at follows
      cases cause with
      | refused refusal => exact steps.trans follows
      | brokenOff message =>
          obtain ⟨phase, lost, hooked, course⟩ := follows
          exact ⟨phase, lost, hooked, steps.trans course⟩

/-- What is left after a refusal can lose requests. -/
theorem lose_left
    (lost : List (Request β))
    (follows : Follows conduct deeds program start phase batch (lost ++ left)) :
    Follows conduct deeds program start phase batch left := by
  unfold Follows at follows ⊢
  split at follows
  · exact follows
  · exact follows.trans (Steps.lose_front lost)
  · exact follows

/-- One program after the other. -/
theorem bind
    {next : α → Kernel β D N γ}
    {nextPhase : γ → Phase β}
    {nextBatch : List (Request β)}
    (first : Follows conduct deeds program start phase batch left)
    (second : ∀ value after, program start.run = .ok value after →
      Follows conduct deeds (next value) ⟨phase value, batch, after⟩ nextPhase nextBatch left) :
    Follows conduct deeds (program >>= next) start nextPhase nextBatch left := by
  cases ends : program start.run with
  | ok value after =>
      refine .advance (next value) (first.steps_ok ends) ?_ (second value after ends)
      rw [Kernel.bind_apply, ends]
  | error cause after =>
      unfold Follows at first ⊢
      rw [Kernel.bind_apply, ends]
      rw [ends] at first
      cases cause <;> exact first

/-- A program whose value does not matter. -/
theorem discard
    {held : Phase β}
    (follows : Follows conduct deeds program start (fun _ => held) batch left) :
    Follows conduct deeds (program >>= fun _ => Pure.pure ()) start (fun _ => held) batch left :=
  follows.bind fun _ _ _ => of_ok () rfl .refl

/-- A program that starts with a look at the machine. -/
theorem machine
    {next : Machine β D → Kernel β D N α}
    (follows : Follows conduct deeds (next start.run.machine) start phase batch left) :
    Follows conduct deeds (Kernel.machine >>= next) start phase batch left :=
  follows

/-- A refusal can be followed by steps that mend the machine. -/
theorem orMend
    {rest : List (Request β)}
    {mend : Machine β D → Machine β D}
    (follows : Follows conduct deeds program start phase batch rest)
    (mends : ∀ (phase : Phase β) (after : Run β D N),
      Steps conduct deeds ⟨phase, rest, after⟩ ⟨phase, left, after.mapMachine mend⟩) :
    Follows conduct deeds (Kernel.orMend program mend) start phase batch left := by
  unfold Follows Kernel.orMend at *
  cases ends : program start.run with
  | ok value after =>
      rw [ends] at follows
      exact follows
  | error cause after =>
      rw [ends] at follows
      cases cause with
      | refused refusal => exact follows.trans (mends refusal.phase after)
      | brokenOff message => exact follows

/-- A program that takes one step. -/
theorem step
    {value : α}
    {after : Run β D N}
    (ends : program start.run = .ok value after)
    (step : Step conduct deeds start ⟨phase value, batch, after⟩) :
    Follows conduct deeds program start phase batch left :=
  of_ok value ends (.single step)

end Follows
end TickMachine
