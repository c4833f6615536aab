import TickMachine.Proofs.Touch

/-!
# Entering a state

When a transition is made, the current state exits, if there is one, and another state enters, or
the same one again.  No other hook is called, and the state that enters is current then.  It is the
state that the transition was to lead to, changed by no more than the hooks of this transition.
-/

namespace TickMachine

variable {β D N α : Type}

namespace Run

/-- The calls with which the current state makes room for another one. -/
def exits (run : Run β D N) : List (Hook × Kind × Serial) :=
  run.machine.current.toList.map fun subject => (.exit, subject.kind, subject.serial)

/-- From one run to another the current state has exited, and a state has entered.  That state has
changed by the given hooks only. -/
structure Enters
    (conduct : Conduct β D N)
    (before : Run β D N)
    (subject : Instance β)
    (hooks : List Hook)
    (after : Run β D N) : Prop where
  calls : after.calls = before.calls ++ before.exits ++ [(.enter, subject.kind, subject.serial)]
  current : ∃ changed,
    subject.Changed conduct hooks [] changed ∧ after.machine.current = some changed

theorem exits_of_none (run : Run β D N) (absent : run.machine.current = none) :
    run.exits = [] := by
  rw [exits, absent]
  rfl

theorem exits_of_some
    (run : Run β D N)
    (subject : Instance β)
    (present : run.machine.current = some subject) :
    run.exits = [(.exit, subject.kind, subject.serial)] := by
  rw [exits, present]
  rfl

end Run

namespace Kernel

variable {conduct : Conduct β D N} {run after : Run β D N}

/-- The exit hook of the current state is called, and no other. -/
theorem exitCurrent_calls
    {previous : Option (Instance β)}
    (done : exitCurrent conduct run = .ok previous after) :
    after.calls = run.calls ++ run.exits := by
  cases present : run.machine.current with
  | none =>
      rw [exitCurrent_apply_none conduct run present] at done
      cases done
      rw [run.exits_of_none present, List.append_nil]
  | some subject =>
      rw [exitCurrent_apply_some conduct run subject present] at done
      obtain ⟨-, rfl⟩ := of_ended_eq_ok done
      rw [Run.calls_reacted, run.exits_of_some subject present]
      rfl

theorem release_calls
    {previous : Option (Instance β)}
    {value : Unit}
    (done : release previous run = .ok value after) :
    after.calls = run.calls := by
  cases previous with
  | none =>
      cases done
      rfl
  | some previous =>
      rw [release, parkOrDrop_apply] at done
      cases done
      exact run.calls_released previous

/-- The state that a replacement leads to has entered. -/
theorem replaceCurrent_enters
    {next : Instance β}
    {value : Unit}
    (done : replaceCurrent conduct next run = .ok value after) :
    Run.Enters conduct run next [.enter] after := by
  rw [replaceCurrent_eq] at done
  obtain ⟨before, _, looked, done⟩ := bind_ok done
  cases looked
  obtain ⟨previous, exited, exits, done⟩ := bind_ok done
  obtain ⟨_, vacated, releases, arrives⟩ := bind_ok done
  obtain ⟨_, _, records, arrives⟩ := bind_ok arrives
  cases records
  obtain ⟨_, entered, enters, logs⟩ := bind_ok arrives
  cases logs
  rw [enterNext_apply] at enters
  obtain ⟨-, rfl⟩ := of_ended_eq_ok enters
  let arriving := (vacated.recorded run.machine.currentKind (some next.kind)
    (some next.serial)).entering next
  constructor
  · rw [Run.calls_log, ← exitCurrent_calls exits, ← release_calls releases]
    exact arriving.calls_reacted conduct .enter next
  · exact ⟨_, arriving.changed_settled conduct .enter next, rfl⟩

/-- The current state has exited and entered again. -/
theorem reenterCurrent_enters
    {kind : Kind}
    {subject : Instance β}
    {value : Unit}
    (present : run.machine.current = some subject)
    (done : reenterCurrent conduct kind subject.serial run = .ok value after) :
    Run.Enters conduct run subject [.exit, .enter] after := by
  have here : run.machine.currentSerial = some subject.serial :=
    Machine.currentSerial_of_current present
  obtain ⟨before, _, looked, done⟩ := bind_ok done
  cases looked
  rw [if_pos here] at done
  obtain ⟨_, exited, exits, done⟩ := bind_ok done
  rw [callCurrent_apply_some conduct .exit run subject present] at exits
  obtain ⟨-, rfl⟩ := of_ended_eq_ok exits
  obtain ⟨_, entered, enters, done⟩ := bind_ok done
  rw [callCurrent_apply_some conduct .enter _ (run.settled conduct .exit subject) rfl] at enters
  obtain ⟨-, rfl⟩ := of_ended_eq_ok enters
  obtain ⟨_, _, records, logs⟩ := bind_ok done
  cases records
  cases logs
  let exited := run.hooked conduct .exit subject
  constructor
  · rw [Run.calls_log, run.exits_of_some subject present,
      ← run.calls_reacted conduct .exit subject]
    exact exited.calls_reacted conduct .enter (run.settled conduct .exit subject)
  · exact ⟨_, (run.changed_settled conduct .exit subject).trans
      (exited.changed_settled conduct .enter (run.settled conduct .exit subject)), rfl⟩

/-- A transition to a state is made: either it replaces the current state, or the current state is
this one and enters again. -/
theorem carryOut_enters
    {transition : Transition β}
    {subject : Instance β}
    {value : Unit}
    (leads : transition = .replace subject ∧ run.machine.currentSerial ≠ some subject.serial ∨
      transition = .reenter subject.kind subject.serial ∧ run.machine.current = some subject)
    (done : carryOut conduct transition run = .ok value after) :
    Run.Enters conduct run subject
      (if run.machine.currentSerial = some subject.serial then [.exit, .enter] else [.enter])
      after := by
  rcases leads with ⟨rfl, elsewhere⟩ | ⟨rfl, present⟩
  · rw [if_neg elsewhere]
    exact replaceCurrent_enters done
  · rw [if_pos (Machine.currentSerial_of_current present)]
    exact reenterCurrent_enters present done

end Kernel
end TickMachine
