import TickMachine.Proofs.Ledger
import TickMachine.Proofs.Onward

/-!
# The pending transition

In immediate mode nothing is ever pending.  In deferred mode a transition that lets the current
state exit and enter again does not hold the state but only names it, and it is made much later.
Whatever happens until then, hooks that break off included, it goes on naming the current state.  So
no machine ever finds that a state is to enter again that is not current.
-/

namespace TickMachine

variable {β D N : Type}

/-- No state that was to enter again was found not to be current. -/
def Stage.NeverSkipped (stage : Stage β D N) : Prop :=
  ∀ serial, LogEvent.reenterSkipped serial ∉ stage.run.ledger

/-- No step finds that a state which should enter again is not current. -/
theorem Step.neverSkipped
    {conduct : Conduct β D N}
    {deeds : List Deed}
    {before after : Stage β D N}
    (step : Step conduct deeds before after)
    (orderly : before.Orderly)
    (never : before.NeverSkipped) :
    after.NeverSkipped := by
  intro serial
  cases step.adds with
  | nothing ledger =>
      rw [ledger]
      exact never serial
  | made kind name ledger =>
      rw [ledger]
      simpa using never serial
  | parked subject moving ledger =>
      rw [ledger]
      simpa using never serial
  | popped found depth ledger =>
      rw [ledger]
      simpa using never serial
  | skipped kind number due elsewhere =>
      -- A transition of this kind that is made names the current state.
      have named : before.run.machine.current.map Instance.identity = some (kind, number) := by
        refine orderly.again (kind, number) (.inl ?_)
        rw [due]
        rfl
      exact absurd (Machine.currentSerial_of_identity named) elsewhere

/-- It never happens that a state which should enter again is not current. -/
theorem neverSkipped_lasting
    {id : MachineId}
    {config : Config}
    {registry : Registry β}
    {data : D}
    {origin : Machine β D}
    (conduct : Conduct β D N)
    (permitted : Except Interruption Reply → Prop)
    (made : Machine.make id config registry data = .ok origin) :
    Lasting conduct permitted origin fun stage => stage.Orderly ∧ stage.NeverSkipped where
  start now := ⟨(orderly_lasting conduct permitted made).start now, fun _ => List.not_mem_nil⟩
  step _ _ step held := ⟨step.orderly held.1, step.neverSkipped held.1 held.2⟩
  clock _ now held := ⟨held.1.clock now, held.2⟩
  rearrange _ hands kept held := ⟨held.1.rearrange hands kept, held.2⟩
  refused _ _ held := ⟨held.1.end_call, held.2⟩
  broken _ _ _ _ _ _ held := ⟨held.1.end_call, held.2⟩

/-- Whatever hooks do, nothing is pending in immediate mode, and a pending transition that is to let
a state exit and enter again names the current state.  So no state that was to enter again was ever
found not to be current. -/
theorem pending_coherent
    {id : MachineId}
    {config : Config}
    {registry : Registry β}
    {data : D}
    {origin : Machine β D}
    {conduct : Conduct β D N}
    {run : Run β D N}
    (made : Machine.make id config registry data = .ok origin)
    (reached : Reachable conduct (fun _ => True) origin run) :
    (config.immediate = true → run.machine.pending = none) ∧
    (∀ kind serial, run.machine.pending = some (.reenter kind serial) →
      ∃ subject, run.machine.current = some subject ∧
        subject.kind = kind ∧ subject.serial = serial) ∧
    ∀ serial, Entry.logged (.reenterSkipped serial) ∉ run.journal := by
  have fixed := (fixed_lasting conduct (fun _ => True) made).reachable reached
  obtain ⟨orderly, never⟩ := (neverSkipped_lasting conduct (fun _ => True) made).reachable reached
  refine ⟨fun immediate => orderly.free (.inl ?_), fun kind serial waiting => ?_,
    fun serial noted => never serial ?_⟩
  · rw [fixed.2.1, immediate]
  · have named : run.machine.current.map Instance.identity = some (kind, serial) := by
      refine orderly.again (kind, serial) (.inr ?_)
      dsimp only
      rw [waiting]
      rfl
    obtain ⟨subject, present, same⟩ := Option.map_eq_some_iff.mp named
    exact ⟨subject, present, congrArg Prod.fst same, congrArg Prod.snd same⟩
  · exact List.mem_filterMap.mpr ⟨_, Array.mem_toList_iff.mpr noted, rfl⟩

/-- A state breaks off when it exits in order to enter again.  When it has been popped once more,
the transition that is pending then names it. -/
theorem pending_coherent_brittle :
    ∃ subject,
      (brittleAfter false
        [.switchTo (.fresh ⟨1⟩), .tick ⟨0⟩, .push, .pop, .tick ⟨0⟩, .push, .pop]).machine.current =
          some subject ∧
      subject.kind = ⟨1⟩ ∧ subject.serial = ⟨1⟩ := by
  have named :
      (brittleAfter false [.switchTo (.fresh ⟨1⟩), .tick ⟨0⟩, .push, .pop, .tick ⟨0⟩, .push,
        .pop]).machine.pending.bind Transition.again? = some (⟨1⟩, ⟨1⟩) := by
    decide +kernel
  obtain ⟨transition, waiting, same⟩ := Option.bind_eq_some_iff.mp named
  cases transition with
  | replace next => nomatch same
  | reenter kind serial =>
      cases same
      exact (pending_coherent (brittle_made false) (brittleAfter_reachable false _)).2.1 _ _ waiting

end TickMachine
