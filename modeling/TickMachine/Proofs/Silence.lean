import TickMachine.Proofs.Onward
import TickMachine.Proofs.Touch

/-!
# States of which no hook is called

A machine calls hooks only of a state that is current or is being entered.  So no hook was ever
called of a state that callers hold or that waits in a request, and some hook was called of the
current state and of every state on the stack.  A state that was made and has been dropped before
any hook of it was called is gone: whatever happens, no hook of it will be called.
-/

namespace TickMachine

variable {β D N : Type}

/-! ## Calls in a step -/

/-- The number of the state that a call is about to enter, or to let enter again. -/
def Phase.coming? : Phase β → Option Serial
  | .found transition | .due transition => some transition.serial
  | .swapping _ _ next | .entering next => some next.serial
  | .reentering _ serial false => some serial
  | _ => none

/-- Why a hook of the state with a number is called when only the given deeds are done. -/
def Stage.Causes (stage : Stage β D N) (deeds : List Deed) (serial : Serial) : Hook → Prop
  | .enter => stage.phase.coming? = some serial
  | .exit => stage.run.machine.currentSerial = some serial
  | .tick _ => .tick ∈ deeds
  | .restart => .restart ∈ deeds

section Steps

variable {conduct : Conduct β D N} {deeds : List Deed} {before after : Stage β D N}

/-- A step calls no hook, or one hook of a state that is current or is being entered. -/
theorem Step.calls_cases (step : Step conduct deeds before after) :
    after.run.calls = before.run.calls ∨
    ∃ (hook : Hook) (other : Instance β),
      (before.run.machine.current = some other ∨ before.phase = .entering other) ∧
        before.Causes deeds other.serial hook ∧
        after.run.calls = before.run.calls ++ [(hook, other.kind, other.serial)] := by
  have exits (subject : Instance β) (present : before.run.machine.current = some subject) :
      before.Causes deeds subject.serial .exit :=
    Machine.currentSerial_of_current present
  cases step with
  | write entry quiet => exact .inl (Run.calls_write _ entry quiet)
  | take destination request taken =>
      left
      rw [Run.calls, Run.take_journal]
      rfl
  | make kind behavior concrete => exact .inl (Run.calls_log _ _)
  | create kind behavior slot => exact .inl (Run.calls_log _ _)
  | letGo subject => exact .inl (Run.calls_released _ subject)
  | release source previous next => exact .inl (Run.calls_released _ previous)
  | pop key below transition rest top retrieved => exact .inl (Run.calls_log _ _)
  | skip kind serial elsewhere => exact .inl (Run.calls_log _ _)
  | tick subject delta present awake done =>
      exact .inr ⟨.tick delta, subject, .inl present, done,
        Run.calls_reacted _ conduct (.tick delta) subject⟩
  | restart subject present done =>
      exact .inr ⟨.restart, subject, .inl present, done,
        Run.calls_reacted _ conduct .restart subject⟩
  | exit subject _ present | exitInPlace _ subject present | leave subject present =>
      exact .inr ⟨.exit, subject, .inl present, exits subject present,
        Run.calls_reacted _ conduct .exit subject⟩
  | @enter batch run next absent =>
      exact .inr ⟨.enter, next, .inr rfl, rfl,
        (run.entering next).calls_reacted conduct .enter next⟩
  | enterAgain kind subject present =>
      exact .inr ⟨.enter, subject, .inl present, rfl,
        Run.calls_reacted _ conduct .enter subject⟩
  | _ => exact .inl rfl

/-- A step calls hooks only of states with numbers of current states or of states being entered. -/
theorem Step.callsOf_eq
    (step : Step conduct deeds before after)
    (serial : Serial)
    (away : ∀ other, before.run.machine.current = some other ∨ before.phase = .entering other →
      other.serial ≠ serial) :
    after.run.callsOf serial = before.run.callsOf serial := by
  obtain same | ⟨hook, other, place, -, calls⟩ := step.calls_cases
  · rw [Run.callsOf, same]
    rfl
  · rw [Run.callsOf_append calls]
    simp [away other place]

/-- What was called before a step was called after it. -/
theorem Step.callsOf_ne_nil
    (step : Step conduct deeds before after)
    {serial : Serial}
    (called : before.run.callsOf serial ≠ []) :
    after.run.callsOf serial ≠ [] := by
  obtain ⟨more, calls⟩ := step.goesOn.calls
  rw [Run.callsOf_append calls]
  exact List.append_ne_nil_of_left_ne_nil called _

/-- A state that is current or is being entered is in a place of the machine. -/
theorem Stage.inside_pos
    {stage : Stage β D N}
    {subject : Instance β}
    (place : stage.run.machine.current = some subject ∨ stage.phase = .entering subject) :
    1 ≤ stage.inside subject.serial := by
  have one : subject.copies subject.serial = 1 := if_pos rfl
  rw [inside]
  rcases place with present | entering
  · have split := stage.run.machine.copies_of_current subject present subject.serial
    omega
  · rw [entering, Phase.copies, one]
    exact Nat.le_add_right 1 _

end Steps

/-! ## States that cannot be requested any more -/

namespace Stage

/-- The state with a number was made, and it is neither in a request nor in hands. -/
def Captured (stage : Stage β D N) (serial : Serial) : Prop :=
  stage.loose stage.run.machine.id serial + 1 ≤ stage.run.machine.given serial

/-- A state that is in a place of the machine is in no request and in no hands. -/
theorem Orderly.captured
    {stage : Stage β D N}
    (orderly : stage.Orderly)
    {serial : Serial}
    (placed : 1 ≤ stage.inside serial) :
    stage.Captured serial := by
  have once := orderly.once serial
  rw [copies_eq] at once
  rw [Captured]
  omega

/-- A state that is about to be made has a number that was not given before. -/
theorem Captured.ne_newborn
    {phase : Phase β}
    {batch : List (Request β)}
    {run : Run β D N}
    {serial : Serial}
    (captured : Captured ⟨phase, batch, run⟩ serial)
    (kind : Kind)
    (behavior : β) :
    (run.newborn kind behavior).serial ≠ serial := by
  rintro rfl
  have few : _ + 1 ≤ run.machine.given (run.newborn kind behavior).serial := captured
  have fresh : run.machine.given (run.newborn kind behavior).serial = 0 := by
    simp [Machine.given, Run.newborn]
  omega

/-- A state of the machine in a request is one that can be requested. -/
theorem Captured.ne_existing
    {phase : Phase β}
    {batch : List (Request β)}
    {run : Run β D N}
    {subject : Instance β}
    {serial : Serial}
    (captured : Captured ⟨phase, .existing subject :: batch, run⟩ serial)
    (own : subject.owner = run.machine.id) :
    subject.serial ≠ serial := by
  rintro rfl
  have few : _ + 1 ≤ run.machine.given subject.serial := captured
  have given := run.machine.given_le_one subject.serial
  simp only [loose, requestCopies_cons, Request.copies_own _ _ subject own, Instance.copies,
    if_true] at few
  omega

/-- What a call holds when it ends is lost, so nobody gets hold of a captured state. -/
theorem Captured.end_call
    {phase later : Phase β}
    {batch : List (Request β)}
    {run : Run β D N}
    {serial : Serial}
    (captured : Captured ⟨phase, batch, run⟩ serial) :
    Captured ⟨later, [], run⟩ serial := by
  simp only [Captured, loose, requestCopies_nil] at captured ⊢
  omega

/-- Callers cannot get hold of a state that they do not hold. -/
theorem Captured.rearrange
    {run : Run β D N}
    {serial : Serial}
    (captured : Captured ⟨.idle, [], run⟩ serial)
    (hands : Hands β)
    (kept : (hands.own run.machine.id).Subperm (run.hands.own run.machine.id)) :
    Captured ⟨.idle, [], { run with hands := hands }⟩ serial := by
  have fewer : hands.copies run.machine.id serial ≤ run.hands.copies run.machine.id serial :=
    kept.countP_le _
  simp only [Captured, loose, Run.outside] at captured ⊢
  exact Nat.le_trans (by omega) captured

end Stage

/-- Nobody outside the machine gets hold of a state that cannot be requested any more. -/
theorem Step.captured
    {conduct : Conduct β D N}
    {deeds : List Deed}
    {before after : Stage β D N}
    (step : Step conduct deeds before after)
    {serial : Serial}
    (captured : before.Captured serial) :
    after.Captured serial := by
  have fewer := step.loose_le before.run.machine.id serial
  rw [Machine.givenBy, if_pos rfl, Machine.givenBy, if_pos step.fixed.1] at fewer
  rw [Stage.Captured] at captured ⊢
  rw [step.fixed.1]
  omega

/-! ## Which states were called -/

/-- What the calls in the journal tell of the places of states. -/
structure Stage.Noted (stage : Stage β D N) : Prop where
  /-- A state of which a hook was called cannot be requested any more. -/
  captured (serial : Serial) : stage.run.callsOf serial ≠ [] → stage.Captured serial
  /-- A hook of the current state was called. -/
  current (subject : Instance β) :
    stage.run.machine.current = some subject → stage.run.callsOf subject.serial ≠ []
  /-- A hook of every state on the stack was called. -/
  pushed (serial : Serial) :
    serial ∈ stage.run.machine.stack → stage.run.callsOf serial ≠ []

section Steps

variable {conduct : Conduct β D N} {deeds : List Deed} {before after : Stage β D N}

/-- A step keeps the current state, or another one has been entered. -/
theorem Step.current_cases
    (step : Step conduct deeds before after)
    {subject : Instance β}
    (present : after.run.machine.current = some subject) :
    (∃ other, before.run.machine.current = some other ∧ other.serial = subject.serial) ∨
      after.run.callsOf subject.serial ≠ [] := by
  cases step with
  | @pause phase batch run paused =>
      obtain ⟨other, here, rfl⟩ := Option.map_eq_some_iff.mp present
      exact .inl ⟨other, here, rfl⟩
  | take destination request taken =>
      rw [Run.take_machine] at present
      exact .inl ⟨subject, present, rfl⟩
  | letGo | release =>
      rw [Run.released_machine] at present
      exact .inl ⟨subject, present, rfl⟩
  | pop key below transition rest top retrieved =>
      obtain ⟨_, _, rfl⟩ := Machine.retrieve_frame retrieved
      exact .inl ⟨subject, present, rfl⟩
  | tick other _ here | restart other here | exitInPlace _ other here | enterAgain _ other here =>
      cases present
      exact .inl ⟨other, here, rfl⟩
  | exit other next here => nomatch present
  | @enter batch run next absent =>
      cases present
      have calls := (run.entering next).calls_reacted conduct .enter next
      have called : ((run.entering next).reacted conduct .enter next).callsOf next.serial ≠ [] := by
        rw [Run.callsOf_append calls]
        simp
      exact .inr called
  | leave other here => nomatch present
  | _ => exact .inl ⟨subject, present, rfl⟩

/-- The calls in the journal stay true of the places of states. -/
theorem Step.noted
    (step : Step conduct deeds before after)
    (orderly : before.Orderly)
    (noted : before.Noted) :
    after.Noted where
  captured serial called := by
    refine step.captured ?_
    by_cases placed : 1 ≤ before.inside serial
    · exact orderly.captured placed
    · refine noted.captured serial ?_
      rwa [← step.callsOf_eq serial fun other place same => placed (same ▸ Stage.inside_pos place)]
  current subject present := by
    obtain ⟨other, here, same⟩ | called := step.current_cases present
    · rw [← same]
      exact step.callsOf_ne_nil (noted.current other here)
    · exact called
  pushed serial member := by
    refine step.callsOf_ne_nil ?_
    obtain same | ⟨-, subject, present, top⟩ | ⟨-, popped, top⟩ := step.stack_cases
    · exact noted.pushed serial (same ▸ member)
    · rw [top] at member
      rcases List.mem_cons.mp member with rfl | below
      · exact noted.current subject present
      · exact noted.pushed serial below
    · exact noted.pushed serial (top ▸ List.mem_cons_of_mem popped member)

end Steps

/-- What the calls tell of the places of states is right at every run. -/
theorem noted_lasting
    {id : MachineId}
    {config : Config}
    {registry : Registry β}
    {data : D}
    {origin : Machine β D}
    (conduct : Conduct β D N)
    (permitted : Except Interruption Reply → Prop)
    (made : Machine.make id config registry data = .ok origin) :
    Lasting conduct permitted origin fun stage => stage.Orderly ∧ stage.Noted where
  start now := by
    refine ⟨(orderly_lasting conduct permitted made).start now, ?_⟩
    rw [Machine.eq_idle_of_make made]
    exact ⟨fun _ called => absurd rfl called, nofun, nofun⟩
  step _ _ step held := ⟨step.orderly held.1, step.noted held.1 held.2⟩
  clock _ now held := ⟨held.1.clock now, held.2.captured, held.2.current, held.2.pushed⟩
  rearrange _ hands kept held :=
    ⟨held.1.rearrange hands kept,
      fun serial called => (held.2.captured serial called).rearrange hands kept,
      held.2.current, held.2.pushed⟩
  refused _ _ held :=
    ⟨held.1.end_call, fun serial called => (held.2.captured serial called).end_call,
      held.2.current, held.2.pushed⟩
  broken _ _ _ _ _ _ held :=
    ⟨held.1.end_call, fun serial called => (held.2.captured serial called).end_call,
      held.2.current, held.2.pushed⟩

/-! ## States that are gone -/

/-- The state with a number was made, and no place, request or hand has it. -/
def Stage.Missing (stage : Stage β D N) (serial : Serial) : Prop :=
  stage.copies serial + 1 ≤ stage.run.machine.given serial

/-- No hook of a state that is missing is called. -/
theorem Step.callsOf_missing
    {conduct : Conduct β D N}
    {deeds : List Deed}
    {before after : Stage β D N}
    (step : Step conduct deeds before after)
    {serial : Serial}
    (missing : before.Missing serial) :
    after.run.callsOf serial = before.run.callsOf serial := by
  apply step.callsOf_eq
  intro other place same
  have placed := Stage.inside_pos place
  have given := before.run.machine.given_le_one serial
  rw [same] at placed
  rw [Stage.Missing, Stage.copies_eq] at missing
  omega

/-- What is missing stays missing, whatever hooks do, and no hook of it is called any more. -/
theorem missing_persistent
    (conduct : Conduct β D N)
    (permitted : Except Interruption Reply → Prop)
    (serial : Serial)
    (calls : List Hook) :
    Persistent conduct permitted fun stage =>
      stage.Orderly ∧ stage.Missing serial ∧ stage.run.callsOf serial = calls where
  step _ _ step held :=
    ⟨step.orderly held.1, step.once held.1.keyed serial 1 held.2.1,
      (step.callsOf_missing held.2.1).trans held.2.2⟩
  clock _ now held := ⟨held.1.clock now, held.2⟩
  rearrange _ hands kept held :=
    ⟨held.1.rearrange hands kept,
      Nat.le_trans (Nat.add_le_add_right (Stage.copies_rearrange_le hands kept serial) 1)
        held.2.1,
      held.2.2⟩
  refused _ _ held :=
    ⟨held.1.end_call,
      Nat.le_trans (Nat.add_le_add_right (Stage.copies_end_le serial) 1) held.2.1, held.2.2⟩
  broken _ _ _ _ _ _ held :=
    ⟨held.1.end_call,
      Nat.le_trans (Nat.add_le_add_right (Stage.copies_end_le serial) 1) held.2.1, held.2.2⟩

/-- The state with a number was made, no place, request or hand has it, and no hook of it was
called. -/
structure Stage.Gone (stage : Stage β D N) (serial : Serial) : Prop where
  nowhere : stage.copies serial + 1 ≤ stage.run.machine.given serial
  silent : stage.run.callsOf serial = []

/-! ## States that are not going to be entered -/

/-- A call in deferred mode that makes no transition. -/
structure Stage.Calm (stage : Stage β D N) : Prop where
  orderly : stage.Orderly
  noted : stage.Noted
  patient : stage.run.machine.config.immediate = false
  still : ¬ stage.phase.IsMoving

/-- No hook of the state with a number was called, and it cannot be requested any more.  If it is
anywhere, it waits to be entered. -/
structure Stage.Adrift (stage : Stage β D N) (serial : Serial) : Prop where
  captured : stage.Captured serial
  silent : stage.run.callsOf serial = []

section Steps

variable {conduct : Conduct β D N} {deeds : List Deed} {before after : Stage β D N}

/-- In deferred mode nothing but a tick makes a transition, and nothing but a shutdown makes the
current state leave. -/
theorem Step.still
    (step : Step conduct deeds before after)
    (patient : before.run.machine.config.immediate = false)
    (neverResumed : .resume ∉ deeds)
    (neverLeft : .leave ∉ deeds)
    (still : ¬ before.phase.IsMoving) :
    ¬ after.phase.IsMoving := by
  cases step with
  | urge transition immediate => exact absurd (immediate.symm.trans patient) nofun
  | resume transition occupied done => exact absurd done neverResumed
  | leave subject present free done => exact absurd done neverLeft
  | vacant next absent => exact absurd trivial still
  | release source previous next => exact absurd trivial still
  | exit subject next present => exact absurd trivial still
  | record source next => exact absurd trivial still
  | exitInPlace kind subject present => exact absurd trivial still
  | enterAgain kind subject present => exact absurd trivial still
  | write | setData | pause | pauseHeld | take | enqueue | lose | draw | next | clear
  | giveBack => exact still
  | _ => exact not_false

/-- A step of a call that neither resumes nor leaves makes no transition in deferred mode. -/
theorem Step.calm
    (step : Step conduct deeds before after)
    (neverResumed : .resume ∉ deeds)
    (neverLeft : .leave ∉ deeds)
    (calm : before.Calm) :
    after.Calm where
  orderly := step.orderly calm.orderly
  noted := step.noted calm.orderly calm.noted
  patient := by
    rw [step.fixed.2.1]
    exact calm.patient
  still := step.still calm.patient neverResumed neverLeft calm.still

/-- No hook of a state that is adrift is called in deferred mode before a transition is made. -/
theorem Step.adrift
    (step : Step conduct deeds before after)
    (calm : before.Calm)
    {serial : Serial}
    (adrift : before.Adrift serial) :
    after.Adrift serial where
  captured := step.captured adrift.captured
  silent := by
    rw [step.callsOf_eq serial, adrift.silent]
    intro other place same
    rcases place with present | entering
    · exact calm.noted.current other present (same ▸ adrift.silent)
    · refine calm.still ?_
      rw [entering]
      trivial

/-- Such a call makes no transition at all. -/
theorem Steps.calm
    (steps : Steps conduct deeds before after)
    (neverResumed : .resume ∉ deeds)
    (neverLeft : .leave ∉ deeds)
    (calm : before.Calm) :
    after.Calm :=
  steps.invariant (fun _ _ step => step.calm neverResumed neverLeft) calm

/-- A state that is going nowhere at one stage is going nowhere at the end of such a call. -/
theorem Steps.adrift
    (steps : Steps conduct deeds before after)
    (neverResumed : .resume ∉ deeds)
    (neverLeft : .leave ∉ deeds)
    (calm : before.Calm)
    {serial : Serial}
    (adrift : before.Adrift serial) :
    after.Adrift serial := by
  induction steps with
  | refl => exact adrift
  | tail earlier step inductionHypothesis =>
      exact step.adrift (Steps.calm earlier neverResumed neverLeft calm) inductionHypothesis

end Steps

/-- To take up a request calls no hook. -/
theorem Kernel.takeUp_calls
    {origin : Origin}
    {request : Request β}
    {run after : Run β D N}
    {transition : Transition β}
    (taken : takeUp origin request run = .ok transition after) :
    after.calls = run.calls := by
  obtain ⟨kind, behavior, -, -, -, rfl⟩ | ⟨subject, -, -, -, rfl⟩ := takeUp_cases taken
  · rw [Run.counted, Run.calls_log]
    refine Eq.trans (Run.calls_write (run.write _) _ ?_) (Run.calls_write run _ ?_)
    · exact not_false
    · exact not_false
  · exact Run.calls_write _ _ not_false

/-- A state that has just been taken up was never called and cannot be requested again. -/
theorem Kernel.takeUp_adrift
    {origin : Origin}
    {request : Request β}
    {batch : List (Request β)}
    {run after : Run β D N}
    {transition : Transition β}
    (orderly : Stage.Orderly ⟨.idle, request :: batch, run⟩)
    (noted : Stage.Noted ⟨.idle, request :: batch, run⟩)
    (taken : takeUp origin request run = .ok transition after) :
    Stage.Adrift ⟨.found transition, batch, after⟩ transition.serial := by
  have once := orderly.once transition.serial
  rw [Stage.copies_eq] at once
  have silent (free : ¬ Stage.Captured ⟨.idle, request :: batch, run⟩ transition.serial) :
      after.callsOf transition.serial = [] := by
    rw [Run.callsOf, takeUp_calls taken]
    exact not_not.mp fun called => free (noted.captured transition.serial called)
  obtain ⟨kind, behavior, rfl, -, rfl, rfl⟩ | ⟨subject, rfl, own, rfl, rfl⟩ := takeUp_cases taken
  · -- The number had not been given, so nobody could have a state with it.
    have one : (run.newborn kind behavior).copies (run.newborn kind behavior).serial = 1 :=
      if_pos rfl
    have fresh := run.copies_newborn kind behavior (run.newborn kind behavior).serial
    have few := (run.counted kind).machine.given_le_one (run.newborn kind behavior).serial
    simp only [Transition.serial] at once silent ⊢
    refine ⟨?_, silent fun captured => ?_⟩
    · simp only [Stage.loose, requestCopies_cons, Request.copies] at once
      change requestCopies run.machine.id (run.newborn kind behavior).serial batch +
        run.outside run.machine.id (run.newborn kind behavior).serial + 1 ≤
          (run.counted kind).machine.given (run.newborn kind behavior).serial
      omega
    · exact captured.ne_newborn kind behavior rfl
  · -- The state was in the request, and so it was in no other.
    have one : (Request.existing subject).copies run.machine.id subject.serial = 1 := by
      rw [Request.copies_own run.machine.id subject.serial subject own]
      exact if_pos rfl
    have few := run.machine.given_le_one subject.serial
    simp only [Transition.serial, Stage.loose, requestCopies_cons, one] at once silent ⊢
    refine ⟨?_, silent fun captured => ?_⟩
    · change requestCopies run.machine.id subject.serial batch +
        run.outside run.machine.id subject.serial + 1 ≤ run.machine.given subject.serial
      omega
    · exact captured.ne_existing own rfl

/-- A state that is adrift and that is not pending is gone. -/
theorem Stage.Adrift.gone
    {run : Run β D N}
    {serial : Serial}
    (adrift : Adrift ⟨.idle, [], run⟩ serial)
    (calm : Calm ⟨.idle, [], run⟩)
    (elsewhere : run.machine.pendingSerial ≠ some serial) :
    Gone ⟨.idle, [], run⟩ serial := by
  refine ⟨?_, adrift.silent⟩
  have current : (run.machine.current.elim 0 fun subject => subject.copies serial) = 0 := by
    cases present : run.machine.current with
    | none => rfl
    | some subject =>
        refine if_neg fun same => ?_
        exact calm.noted.current subject present (same ▸ adrift.silent)
  have pending : (run.machine.pending.elim 0 fun transition => transition.copies serial) = 0 := by
    cases waiting : run.machine.pending with
    | none => rfl
    | some transition =>
        cases transition with
        | reenter kind number => rfl
        | replace next =>
            refine if_neg fun same => elsewhere ?_
            rw [Machine.pendingSerial, waiting]
            exact congrArg some same
  have parked : parkedCopies run.machine.parked serial = 0 := by
    refine if_neg fun parked => ?_
    exact calm.noted.pushed serial (calm.orderly.wanted serial parked) adrift.silent
  have captured := adrift.captured
  rw [Captured] at captured
  rw [copies_eq, inside, Machine.copies, current, pending, parked, Phase.copies]
  omega

end TickMachine
