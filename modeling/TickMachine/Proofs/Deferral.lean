import TickMachine.Proofs.Entrance

/-!
# Deferring

In deferred mode a transition that is found becomes the pending one, and the one that was pending
before is let go.  No hook runs, and nothing else changes but what is parked.
-/

namespace TickMachine

variable {β D N : Type}

namespace Run

/-- The state whose transition gives way to another one, unless this leads to the same state. -/
def discarded (run : Run β D N) (transition : Transition β) : Option Serial :=
  run.machine.pendingSerial.filter fun serial => serial ≠ transition.serial

/-- Makes a transition the pending one, in place of the one that is pending. -/
def deferred (run : Run β D N) (transition : Transition β) : Run β D N :=
  let placed := run.mapMachine fun machine => { machine with pending := some transition }
  let freed :=
    match run.machine.pending with
    | none => placed
    | some previous =>
        if previous.serial = transition.serial then placed.letGone previous
        else (placed.letGone previous).write
          (.logged (.superseded previous.serial transition.serial))
  freed.write (.logged (.deferred transition.kind (run.machine.shownName transition.kind)
    transition.serial))

/-- Where nothing is pending, no state is let go. -/
theorem deferred_of_free
    (run : Run β D N)
    (transition : Transition β)
    (free : run.machine.pending = none) :
    run.discarded transition = none ∧
      run.deferred transition =
        (run.mapMachine fun machine => { machine with pending := some transition }).write
          (.logged (.deferred transition.kind (run.machine.shownName transition.kind)
            transition.serial)) := by
  rw [discarded, deferred, Machine.pendingSerial, free]
  exact ⟨rfl, rfl⟩

/-- To let a transition go changes only what is parked. -/
theorem letGone_frame (run : Run β D N) (transition : Transition β) :
    (run.letGone transition).calls = run.calls ∧
      (run.letGone transition).hands = run.hands ∧
      ∃ parked, (run.letGone transition).machine = { run.machine with parked := parked } := by
  cases transition with
  | replace next =>
      exact ⟨run.calls_released next, run.released_hands next, _, run.released_machine next⟩
  | reenter kind serial => exact ⟨rfl, rfl, run.machine.parked, rfl⟩

/-- To defer a transition changes only what is pending and what is parked. -/
theorem deferred_frame (run : Run β D N) (transition : Transition β) :
    (run.deferred transition).calls = run.calls ∧
      (run.deferred transition).hands = run.hands ∧
      ∃ parked, (run.deferred transition).machine =
        { run.machine with pending := some transition, parked := parked } := by
  unfold deferred
  cases run.machine.pending with
  | none => exact ⟨calls_log _ _, rfl, run.machine.parked, rfl⟩
  | some previous =>
      obtain ⟨calls, hands, parked, machine⟩ :=
        (run.mapMachine fun machine => { machine with pending := some transition }).letGone_frame
          previous
      dsimp only
      split
      · exact ⟨(calls_log _ _).trans calls, hands, parked, machine⟩
      · refine ⟨?_, hands, parked, machine⟩
        rw [calls_log, calls_log]
        exact calls

/-- A state that waits to be entered is parked or dropped when another transition is deferred. -/
theorem deferred_machine_of_waiting
    (run : Run β D N)
    (transition : Transition β)
    {next : Instance β}
    (waiting : run.machine.pending = some (.replace next)) :
    (run.deferred transition).machine =
      { run.machine with
        pending := some transition
        parked :=
          if next.serial ∈ run.machine.stack then run.machine.parked.insert next.serial next
          else run.machine.parked } := by
  unfold deferred
  rw [waiting]
  dsimp only
  split
  · exact released_machine _ next
  · exact released_machine _ next

end Run

namespace Kernel

variable (conduct : Conduct β D N)

theorem supersede_apply (previous : Transition β) (next : Serial) (run : Run β D N) :
    supersede (some previous) next run =
      if previous.serial = next then .ok none (run.letGone previous)
      else
        .ok (some previous.serial)
          ((run.letGone previous).write (.logged (.superseded previous.serial next))) := by
  rw [supersede, bind_apply, letGo_apply]
  dsimp only
  split <;> rfl

theorem defer_apply (transition : Transition β) (run : Run β D N) :
    defer transition run =
      .ok (.deferred transition.kind transition.serial (run.discarded transition))
        (run.deferred transition) := by
  unfold Run.deferred Run.discarded Machine.pendingSerial
  rw [defer, bind_apply, machine_apply]
  dsimp only
  rw [bind_apply, changeMachine_apply]
  dsimp only
  cases run.machine.pending with
  | none => rfl
  | some previous =>
      dsimp only [Option.map_some]
      rw [bind_apply, supersede_apply]
      by_cases same : previous.serial = transition.serial
      · rw [if_pos same, if_pos same, Option.filter_some, if_neg (by simp [same])]
        rfl
      · rw [if_neg same, if_neg same, Option.filter_some, if_pos (by simp [same])]
        rfl

/-- In immediate mode a transition that is submitted is made. -/
theorem submit_apply_immediate
    (transition : Transition β)
    (run : Run β D N)
    (immediate : run.machine.config.immediate = true) :
    submit conduct transition run =
      match carryOut conduct transition run with
      | .ok _ after => .ok (.applied transition.kind transition.serial) after
      | .error cause after => .error cause after := by
  rw [submit, bind_apply, machine_apply]
  dsimp only
  rw [if_pos immediate, bind_apply]
  cases carryOut conduct transition run <;> rfl

/-- In deferred mode a transition that is submitted is deferred. -/
theorem submit_apply_deferred
    (transition : Transition β)
    (run : Run β D N)
    (patient : run.machine.config.immediate = false) :
    submit conduct transition run =
      .ok (.deferred transition.kind transition.serial (run.discarded transition))
        (run.deferred transition) := by
  rw [submit, bind_apply, machine_apply]
  dsimp only
  rw [patient]
  exact defer_apply transition run

/-- When nothing waits in the inbox, nothing is left to serve after a transition has been
deferred. -/
theorem submit_serve_apply_deferred
    {α : Type}
    (transition : Transition β)
    (answer : Outcome → α)
    (run : Run β D N)
    (patient : run.machine.config.immediate = false)
    (empty : run.machine.inbox = []) :
    (do
      let outcome ← submit conduct transition
      serveHooks conduct
      pure (answer outcome)) run =
      .ok (answer (.deferred transition.kind transition.serial (run.discarded transition)))
        (run.deferred transition) := by
  obtain ⟨-, -, parked, machine⟩ := run.deferred_frame transition
  have idle : (run.deferred transition).machine.inbox = [] := by
    rw [machine]
    exact empty
  rw [bind_apply, submit_apply_deferred conduct transition run patient]
  dsimp only
  rw [bind_apply, serveHooks_apply_empty conduct _ idle]
  rfl

end Kernel
end TickMachine
