import TickMachine.Proofs.Places

/-!
# Parking

A machine keeps a state that is neither current nor pending only for the stack.  Whatever hooks do,
each parked state has its own number and is on the stack, and a transition that is to enter the
current state again does name the current state.  If no hook breaks off, the converse holds as well:
a state that is on the stack is parked unless it is current or pending.  So a machine always comes
back to the state that it pushed.
-/

namespace TickMachine

variable {β D N : Type}

/-- The state that a transition lets exit and enter again. -/
def Transition.again? : Transition β → Option (Kind × Serial)
  | .replace _ => none
  | .reenter kind serial => some (kind, serial)

/-- The state that a call is going to let exit and enter again. -/
def Phase.again? : Phase β → Option (Kind × Serial)
  | .found transition | .due transition => transition.again?
  | .reentering kind serial _ => some (kind, serial)
  | _ => none

/-- Whether a call has begun to make a transition, or to leave the current state for good. -/
def Phase.IsMoving : Phase β → Prop
  | .due _ | .swapping _ _ _ | .entering _ | .reentering _ _ _ | .leaving _ => True
  | _ => False

/-- What holds of the places of states whatever hooks do. -/
structure Stage.Orderly (stage : Stage β D N) : Prop where
  /-- Every parked state is found under its own number. -/
  keyed : stage.run.machine.Keyed
  /-- No number is given twice, and no state is in two places. -/
  once (serial : Serial) : stage.copies serial ≤ stage.run.machine.given serial
  /-- Only states that the stack refers to are parked. -/
  wanted (serial : Serial) :
    serial ∈ stage.run.machine.parked → serial ∈ stage.run.machine.stack
  /-- Nothing is pending in immediate mode or while a transition is made. -/
  free :
    stage.run.machine.config.immediate = true ∨ stage.phase.IsMoving →
      stage.run.machine.pending = none
  /-- Only the current state is going to exit and enter again. -/
  again (identity : Kind × Serial) :
    stage.phase.again? = some identity ∨
        stage.run.machine.pending.bind Transition.again? = some identity →
      stage.run.machine.current.map Instance.identity = some identity

namespace Run

/-- A state that is let go is parked under its own number, if at all. -/
theorem keyed_released
    (run : Run β D N)
    (subject : Instance β)
    (keyed : run.machine.Keyed) :
    (run.released subject).machine.Keyed := by
  intro serial parked found
  rw [released_machine] at found
  dsimp only at found
  split at found
  next =>
    rw [Std.TreeMap.getElem?_insert] at found
    split at found
    next same =>
      cases found
      exact Std.LawfulEqCmp.eq_of_compare same
    next => exact keyed serial parked found
  next => exact keyed serial parked found

/-- A state that is let go is parked only if the stack refers to it. -/
theorem wanted_released
    (run : Run β D N)
    (subject : Instance β)
    (wanted : ∀ serial ∈ run.machine.parked, serial ∈ run.machine.stack)
    (serial : Serial)
    (parked : serial ∈ (run.released subject).machine.parked) :
    serial ∈ (run.released subject).machine.stack := by
  rw [released_machine] at parked ⊢
  dsimp only at parked ⊢
  split at parked
  next pushed =>
    rcases Std.TreeMap.mem_insert.mp parked with same | parked
    · cases Std.LawfulEqCmp.eq_of_compare same
      exact pushed
    · exact wanted serial parked
  next => exact wanted serial parked

end Run

/-- A parked state stays wanted when another one is taken off the stack. -/
theorem Machine.mem_below
    {machine : Machine β D}
    {key serial : Serial}
    {below : List Serial}
    (wanted : ∀ serial ∈ machine.parked, serial ∈ machine.stack)
    (top : machine.stack = key :: below)
    (parked : serial ∈ machine.parked)
    (apart : key ≠ serial) :
    serial ∈ below := by
  have pushed := wanted serial parked
  rw [top] at pushed
  rcases List.mem_cons.mp pushed with same | deeper
  · exact absurd same.symm apart
  · exact deeper

variable {conduct : Conduct β D N} {deeds : List Deed} {before after : Stage β D N}

/-- No step parks a state under the number of another one. -/
theorem Step.keyed
    (step : Step conduct deeds before after)
    (keyed : before.run.machine.Keyed) :
    after.run.machine.Keyed := by
  cases step with
  | letGo subject => exact Run.keyed_released _ subject keyed
  | release source previous next => exact Run.keyed_released _ previous keyed
  | take destination request taken =>
      rw [Run.take_machine]
      exact keyed
  | pop key below transition rest top retrieved =>
      obtain ⟨_, _, _, rfl⟩ | ⟨_, _, _, _, _, rfl⟩ | ⟨_, _, _, _, rfl⟩ :=
        Machine.retrieve_cases retrieved
      · intro serial subject parked
        simp only [Run.write_machine] at parked
        rw [Std.TreeMap.getElem?_erase] at parked
        split at parked
        · nomatch parked
        · exact keyed serial subject parked
      · exact keyed
      · exact keyed
  | _ => exact keyed

/-- No step leaves a state parked that the stack has ceased to refer to. -/
theorem Step.wanted
    (step : Step conduct deeds before after)
    (wanted : ∀ serial ∈ before.run.machine.parked, serial ∈ before.run.machine.stack)
    (serial : Serial)
    (parked : serial ∈ after.run.machine.parked) :
    serial ∈ after.run.machine.stack := by
  cases step with
  | letGo subject => exact Run.wanted_released _ subject wanted serial parked
  | release source previous next => exact Run.wanted_released _ previous wanted serial parked
  | take destination request taken =>
      rw [Run.take_machine] at parked ⊢
      exact wanted serial parked
  | push subject present => exact List.mem_cons_of_mem _ (wanted serial parked)
  | pop key below transition rest top retrieved =>
      obtain ⟨_, _, _, rfl⟩ | ⟨unparked, _, _, _, _, rfl⟩ | ⟨unparked, _, _, _, rfl⟩ :=
        Machine.retrieve_cases retrieved
      · obtain ⟨apart, parked⟩ := Std.TreeMap.mem_erase.mp parked
        exact Machine.mem_below wanted top parked fun same =>
          apart (same ▸ Std.ReflCmp.compare_self)
      · exact Machine.mem_below wanted top parked fun same => unparked (same ▸ parked)
      · exact Machine.mem_below wanted top parked fun same => unparked (same ▸ parked)
  | popLost key below top lost =>
      have unparked : key ∉ _ := (Machine.retrieve_eq_none lost).1
      exact Machine.mem_below wanted top parked fun same => unparked (same ▸ parked)
  | _ => exact wanted serial parked

/-- No step leaves something pending in immediate mode or while a transition is made. -/
theorem Step.free
    (step : Step conduct deeds before after)
    (free : before.run.machine.config.immediate = true ∨ before.phase.IsMoving →
      before.run.machine.pending = none)
    (bound : after.run.machine.config.immediate = true ∨ after.phase.IsMoving) :
    after.run.machine.pending = none := by
  cases step with
  | take destination request taken =>
      rw [Run.take_machine] at bound ⊢
      exact free bound
  | defer _ patient | supersede _ _ patient =>
      rcases bound with immediate | moving
      · exact absurd (patient.symm.trans immediate) Bool.false_ne_true
      · exact moving.elim
  | make | accept | forget | popLost => exact free (bound.imp_right False.elim)
  | urge transition immediate => exact free (.inl immediate)
  | letGo subject =>
      rw [Run.released_machine] at bound ⊢
      exact free (bound.imp_right False.elim)
  | resume | abandon => rfl
  | pop key below transition rest top retrieved =>
      obtain ⟨_, _, _, rfl⟩ | ⟨_, _, _, _, _, rfl⟩ | ⟨_, _, _, _, rfl⟩ :=
        Machine.retrieve_cases retrieved
      · exact free (bound.imp_right False.elim)
      · exact free (bound.imp_right False.elim)
      · rfl
  | release source previous next =>
      rw [Run.released_machine]
      exact free (.inr trivial)
  | exit | vacant | record | enter | exitInPlace | enterAgain | recordAgain | skip
  | recordLeaving => exact free (.inr trivial)
  | leave subject present unoccupied => exact unoccupied
  | _ => exact free bound

/-- No step lets another state than the current one be about to exit and enter again. -/
theorem Step.again
    (step : Step conduct deeds before after)
    (orderly : before.Orderly)
    (identity : Kind × Serial)
    (again : after.phase.again? = some identity ∨
        after.run.machine.pending.bind Transition.again? = some identity) :
    after.run.machine.current.map Instance.identity = some identity := by
  -- While a transition is made, nothing is pending that could name the current state.
  have moving (elsewhere : before.phase.IsMoving)
      (pending : before.run.machine.pending.bind Transition.again? = some identity) : False := by
    rw [orderly.free (.inr elsewhere)] at pending
    nomatch pending
  cases step with
  | pause paused =>
      rw [Run.withCurrent_current, Instance.map_identity_paused]
      exact orderly.again identity again
  | take destination request taken =>
      rw [Run.take_machine] at again ⊢
      exact orderly.again identity again
  | defer | supersede =>
      rcases again with going | pending
      · nomatch going
      · exact orderly.again identity (.inl pending)
  | letGo subject =>
      rw [Run.released_machine] at again ⊢
      exact orderly.again identity again
  | resume transition occupied =>
      rcases again with due | pending
      · refine orderly.again identity (.inr ?_)
        rw [occupied]
        exact due
      · nomatch pending
  | abandon transition occupied =>
      rcases again with spare | pending
      · nomatch spare
      · nomatch pending
  | pop key below transition rest top retrieved =>
      obtain ⟨_, _, rfl, rfl⟩ | ⟨_, subject, present, rfl, rfl, rfl⟩ | ⟨_, _, waiting, _, rfl⟩ :=
        Machine.retrieve_cases retrieved
      · exact orderly.again identity again
      · rcases again with found | pending
        · dsimp only at present ⊢
          rw [present]
          exact found
        · exact orderly.again identity (.inr pending)
      · rcases again with found | pending
        · refine orderly.again identity (.inr ?_)
          dsimp only at waiting ⊢
          rw [waiting]
          exact found
        · nomatch pending
  | tick subject _ present | restart subject present | exitInPlace _ subject present
  | enterAgain _ subject present =>
      exact (Run.identity_hooked _ conduct _ subject present).trans (orderly.again identity again)
  | exit | vacant | enter =>
      rcases again with going | pending
      · nomatch going
      · exact (moving trivial pending).elim
  | release source previous next =>
      rw [Run.released_machine] at again
      rcases again with swapping | pending
      · nomatch swapping
      · exact (moving trivial pending).elim
  | recordAgain | skip =>
      rcases again with idle | pending
      · nomatch idle
      · exact orderly.again identity (.inr pending)
  | leave subject present free =>
      rcases again with leaving | pending
      · nomatch leaving
      · dsimp only [Run.reacted, Run.withCurrent, Run.mapMachine] at pending
        rw [free] at pending
        nomatch pending
  | _ => exact orderly.again identity again

/-- The places of states stay in order, whatever a step does. -/
theorem Step.orderly
    (step : Step conduct deeds before after)
    (orderly : before.Orderly) :
    after.Orderly where
  keyed := step.keyed orderly.keyed
  once serial := step.once orderly.keyed serial 0 (orderly.once serial)
  wanted := step.wanted orderly.wanted
  free := step.free orderly.free
  again := step.again orderly

/-! ## Without a hook that breaks off -/

/-- What holds of the places of states if no hook breaks off. -/
structure Stage.Faithful (stage : Stage β D N) : Prop where
  orderly : stage.Orderly
  /-- A state that the stack refers to can be entered without another request. -/
  kept (serial : Serial) : serial ∈ stage.run.machine.stack → 1 ≤ stage.inside serial
  /-- No state is lost. -/
  found (serial : Serial) : stage.phase ≠ .lost serial

namespace Machine

/-- A state with the number can be entered without another request. -/
def Keeps (machine : Machine β D) (serial : Serial) : Prop :=
  ∃ subject : Instance β, subject.serial = serial ∧
    (machine.current = some subject ∨ machine.pending = some (.replace subject) ∨
      machine.parked[serial]? = some subject)

theorem copies_current (machine : Machine β D) (serial : Serial) :
    (machine.current.elim 0 fun subject => subject.copies serial) =
      if machine.currentSerial = some serial then 1 else 0 := by
  unfold currentSerial
  cases machine.current with
  | none => rfl
  | some subject => simp [Instance.copies]

/-- The pending transition holds no state but the one that it leads to. -/
theorem copies_pending_le (machine : Machine β D) (serial : Serial) :
    (machine.pending.elim 0 fun transition => transition.copies serial) ≤
      if machine.pendingSerial = some serial then 1 else 0 := by
  unfold pendingSerial
  cases machine.pending with
  | none => exact Nat.zero_le _
  | some transition =>
      cases transition with
      | replace next => simp [Transition.copies, Instance.copies, Transition.serial]
      | reenter kind serial => exact Nat.zero_le _

/-- A state that is not found is in no place of the machine. -/
theorem copies_of_retrieve_eq_none
    {machine : Machine β D}
    {serial : Serial}
    (lost : machine.retrieve serial = none) :
    machine.copies serial = 0 := by
  obtain ⟨unparked, elsewhere, idle⟩ := retrieve_eq_none lost
  have current := machine.copies_current serial
  have pending := machine.copies_pending_le serial
  rw [if_neg elsewhere] at current
  rw [if_neg idle] at pending
  rw [copies, parkedCopies, if_neg unparked]
  omega

end Machine

/-- A state that the machine still has and that the stack refers to is not lost in a step. -/
theorem Step.kept
    (step : Step conduct deeds before after)
    (keyed : before.run.machine.Keyed)
    (serial : Serial)
    (kept : serial ∈ before.run.machine.stack → 1 ≤ before.inside serial)
    (pushed : serial ∈ after.run.machine.stack) :
    1 ≤ after.inside serial := by
  refine (step.moves before.run.machine.id serial).stays keyed pushed ?_
  rcases step.stack_cases with same | ⟨-, subject, present, grown⟩ | ⟨-, key, shrunk⟩
  · rw [same] at pushed
    exact kept pushed
  · rw [grown] at pushed
    rcases List.mem_cons.mp pushed with rfl | deeper
    · have placed := before.run.machine.copies_of_current subject present subject.serial
      rw [Instance.copies, if_pos rfl] at placed
      rw [Stage.inside]
      omega
    · exact kept deeper
  · refine kept ?_
    rw [shrunk]
    exact List.mem_cons_of_mem _ pushed

/-- What the machine still has when the steps begin, it has as long as the stack refers to it. -/
theorem Steps.kept
    (steps : Steps conduct deeds before after)
    (orderly : before.Orderly)
    (serial : Serial)
    (kept : serial ∈ before.run.machine.stack → 1 ≤ before.inside serial) :
    serial ∈ after.run.machine.stack → 1 ≤ after.inside serial := by
  induction steps with
  | refl => exact kept
  | tail earlier step inductionHypothesis =>
      have keyed := (Steps.invariant (fun _ _ step => step.orderly) earlier orderly).keyed
      exact step.kept keyed serial inductionHypothesis

/-- A state that the stack refers to is always found. -/
theorem Step.found
    (step : Step conduct deeds before after)
    (faithful : before.Faithful)
    (serial : Serial) :
    after.phase ≠ .lost serial := by
  cases step with
  | @popLost batch run key below top lost =>
      have pushed : key ∈ run.machine.stack := by
        rw [top]
        exact List.mem_cons_self
      have kept : 1 ≤ 0 + run.machine.copies key := faithful.kept key pushed
      have gone := Machine.copies_of_retrieve_eq_none lost
      change run.machine.copies key = 0 at gone
      omega
  | write | setData | pause | pauseHeld | take | enqueue | lose | draw | next | clear | giveBack =>
      exact faithful.found serial
  | _ => nofun

/-- If no hook breaks off, no step loses a state that the stack refers to. -/
theorem Step.faithful
    (step : Step conduct deeds before after)
    (faithful : before.Faithful) :
    after.Faithful where
  orderly := step.orderly faithful.orderly
  kept serial := step.kept faithful.orderly.keyed serial (faithful.kept serial)
  found := step.found faithful

/-! ## Reachable runs -/

variable {permitted : Except Interruption Reply → Prop} {origin : Machine β D}

/-- When a call ends, what it held is not in the machine any more. -/
theorem Stage.Orderly.end_call
    {phase : Phase β}
    {batch : List (Request β)}
    {run : Run β D N}
    (orderly : Orderly ⟨phase, batch, run⟩) :
    Orderly ⟨.idle, [], run⟩ where
  keyed := orderly.keyed
  once serial := Nat.le_trans (Stage.copies_end_le serial) (orderly.once serial)
  wanted := orderly.wanted
  free bound := orderly.free (bound.imp_right False.elim)
  again identity again := by
    rcases again with idle | pending
    · cases idle
    · exact orderly.again identity (.inr pending)

theorem Stage.Orderly.clock
    {run : Run β D N}
    (orderly : Orderly ⟨.idle, [], run⟩)
    (now : Instant) :
    Orderly ⟨.idle, [], { run with now := now }⟩ :=
  ⟨orderly.keyed, orderly.once, orderly.wanted, orderly.free, orderly.again⟩

theorem Stage.Faithful.clock
    {run : Run β D N}
    (faithful : Faithful ⟨.idle, [], run⟩)
    (now : Instant) :
    Faithful ⟨.idle, [], { run with now := now }⟩ :=
  ⟨faithful.orderly.clock now, faithful.kept, nofun⟩

theorem Stage.Orderly.rearrange
    {run : Run β D N}
    (orderly : Orderly ⟨.idle, [], run⟩)
    (hands : Hands β)
    (kept : (hands.own run.machine.id).Subperm (run.hands.own run.machine.id)) :
    Orderly ⟨.idle, [], { run with hands := hands }⟩ where
  keyed := orderly.keyed
  once serial := Nat.le_trans (Stage.copies_rearrange_le hands kept serial) (orderly.once serial)
  wanted := orderly.wanted
  free := orderly.free
  again := orderly.again

theorem orderly_idle
    (id : MachineId)
    (config : Config)
    (registry : Registry β)
    (data : D)
    (now : Instant) :
    Stage.Orderly (⟨.idle, [], ⟨.idle id config registry data, ∅, #[], now⟩⟩ : Stage β D N) where
  keyed serial subject parked := by
    rw [Machine.idle, Std.TreeMap.getElem?_emptyc] at parked
    cases parked
  once serial := by
    have copies : Stage.copies
        (⟨.idle, [], ⟨.idle id config registry data, ∅, #[], now⟩⟩ : Stage β D N) serial = 0 := by
      simp [Stage.copies, Stage.inside, Phase.copies, Machine.copies, Machine.idle, parkedCopies,
        Run.outside, Hands.copies, Hands.own]
    rw [copies]
    exact Nat.zero_le _
  wanted serial parked := absurd parked Std.TreeMap.not_mem_emptyc
  free _ := rfl
  again identity again := by
    rcases again with idle | pending
    · cases idle
    · cases pending

/-- Whatever is done to a machine, its places stay in order. -/
theorem orderly_lasting
    {id : MachineId}
    {config : Config}
    {registry : Registry β}
    {data : D}
    (conduct : Conduct β D N)
    (permitted : Except Interruption Reply → Prop)
    (made : Machine.make id config registry data = .ok origin) :
    Lasting conduct permitted origin Stage.Orderly where
  start now := by
    rw [Machine.eq_idle_of_make made]
    exact orderly_idle id config registry data now
  step _ _ step orderly := step.orderly orderly
  clock _ now orderly := orderly.clock now
  rearrange _ hands kept orderly := orderly.rearrange hands kept
  refused _ _ orderly := orderly.end_call
  broken _ _ _ _ _ _ orderly := orderly.end_call

/-- As long as no hook breaks off, a machine keeps every state that its stack refers to. -/
theorem faithful_lasting
    {id : MachineId}
    {config : Config}
    {registry : Registry β}
    {data : D}
    (conduct : Conduct β D N)
    (made : Machine.make id config registry data = .ok origin) :
    Lasting conduct Unbroken origin Stage.Faithful where
  start now := by
    refine ⟨(orderly_lasting conduct Unbroken made).start now, fun serial pushed => ?_, nofun⟩
    rw [Machine.eq_idle_of_make made] at pushed
    nomatch pushed
  step _ _ step faithful := step.faithful faithful
  clock _ now faithful := faithful.clock now
  rearrange _ hands kept faithful :=
    ⟨faithful.orderly.rearrange hands kept, faithful.kept, nofun⟩
  refused serial _ faithful := absurd rfl (faithful.found serial)
  broken _ _ _ _ unbroken := unbroken.elim

namespace Machine

theorem currentSerial_of_current
    {machine : Machine β D}
    {subject : Instance β}
    (present : machine.current = some subject) :
    machine.currentSerial = some subject.serial := by
  rw [currentSerial, present]
  rfl

theorem currentSerial_of_identity
    {machine : Machine β D}
    {kind : Kind}
    {serial : Serial}
    (same : machine.current.map Instance.identity = some (kind, serial)) :
    machine.currentSerial = some serial := by
  obtain ⟨subject, present, identity⟩ := Option.map_eq_some_iff.mp same
  rw [currentSerial, present]
  exact congrArg some (congrArg Prod.snd identity)

/-- A state with a number that is counted in the machine is in one of its places. -/
theorem keeps_of_copies
    {machine : Machine β D}
    {serial : Serial}
    (keyed : machine.Keyed)
    (positive : 1 ≤ machine.copies serial) :
    machine.Keeps serial := by
  by_cases here : machine.currentSerial = some serial
  · obtain ⟨subject, present, same⟩ := Option.map_eq_some_iff.mp here
    exact ⟨subject, same, .inl present⟩
  by_cases parked : serial ∈ machine.parked
  · obtain ⟨subject, found⟩ := Option.isSome_iff_exists.mp
      (Std.TreeMap.mem_iff_isSome_getElem?.mp parked)
    exact ⟨subject, keyed serial subject found, .inr (.inr found)⟩
  rw [copies, copies_current, if_neg here, parkedCopies, if_neg parked] at positive
  cases waiting : machine.pending with
  | none =>
      rw [waiting, Option.elim_none] at positive
      omega
  | some transition =>
      rw [waiting, Option.elim_some] at positive
      cases transition with
      | replace next =>
          rw [Transition.copies, Instance.copies] at positive
          split at positive
          next same => exact ⟨next, same, .inr (.inl waiting)⟩
          next => omega
      | reenter kind serial =>
          rw [Transition.copies] at positive
          omega

end Machine

/-- A state that is pending is not parked. -/
theorem Stage.Orderly.pending_unparked
    {run : Run β D N}
    (orderly : Orderly ⟨.idle, [], run⟩)
    (serial : Serial)
    (parked : serial ∈ run.machine.parked) :
    run.machine.currentSerial ≠ some serial ∧ run.machine.pendingSerial ≠ some serial := by
  have once : run.machine.copies serial ≤ 1 := by
    have once := orderly.once serial
    have given := run.machine.given_le_one serial
    simp only [Stage.copies, Stage.inside] at once
    omega
  have current := run.machine.copies_current serial
  rw [Machine.copies, parkedCopies, if_pos parked, current] at once
  have elsewhere : run.machine.currentSerial ≠ some serial := by
    intro here
    rw [if_pos here] at once
    omega
  refine ⟨elsewhere, fun pending => ?_⟩
  obtain ⟨transition, waiting, rfl⟩ := Option.map_eq_some_iff.mp pending
  cases transition with
  | replace next =>
      rw [waiting, Option.elim_some, Transition.copies, Instance.copies, Transition.serial,
        if_pos rfl] at once
      omega
  | reenter kind serial =>
      refine elsewhere (Machine.currentSerial_of_identity (orderly.again (kind, serial) (.inr ?_)))
      rw [waiting]
      rfl

/-- Exactly those states are parked that the stack refers to and that are neither current nor
pending. -/
theorem Stage.Faithful.mem_parked_iff
    {run : Run β D N}
    (faithful : Faithful ⟨.idle, [], run⟩)
    (serial : Serial) :
    serial ∈ run.machine.parked ↔
      serial ∈ run.machine.stack ∧ run.machine.currentSerial ≠ some serial ∧
        run.machine.pendingSerial ≠ some serial := by
  constructor
  · intro parked
    exact ⟨faithful.orderly.wanted serial parked, faithful.orderly.pending_unparked serial parked⟩
  · rintro ⟨pushed, elsewhere, idle⟩
    by_contra unparked
    have kept : 1 ≤ 0 + run.machine.copies serial := faithful.kept serial pushed
    have current := run.machine.copies_current serial
    have pending := run.machine.copies_pending_le serial
    rw [if_neg elsewhere] at current
    rw [if_neg idle] at pending
    rw [Machine.copies, parkedCopies, if_neg unparked] at kept
    omega

/-- A state that is on the stack of a machine is parked unless it is current or pending, and no
other state is parked.  So the machine still has every state on its stack, and no call of it is
refused because a state is lost.  This holds as long as no hook broke off. -/
theorem parked_exactly
    {id : MachineId}
    {config : Config}
    {registry : Registry β}
    {data : D}
    {conduct : Conduct β D N}
    {run : Run β D N}
    (made : Machine.make id config registry data = .ok origin)
    (reached : Reachable conduct Unbroken origin run) :
    (∀ serial, serial ∈ run.machine.parked ↔
      serial ∈ run.machine.stack ∧ run.machine.currentSerial ≠ some serial ∧
        run.machine.pendingSerial ≠ some serial) ∧
    (∀ serial ∈ run.machine.stack, run.machine.Keeps serial) ∧
    ∀ now operation serial,
      (run.perform conduct now operation).1 ≠ .error (.refused (.lost serial)) := by
  have faithful := (faithful_lasting conduct made).reachable reached
  refine ⟨faithful.mem_parked_iff, ?_, ?_⟩
  · intro serial pushed
    have kept : 1 ≤ 0 + run.machine.copies serial := faithful.kept serial pushed
    exact Machine.keeps_of_copies faithful.orderly.keyed (by omega)
  · intro now operation serial answer
    have refused := (faithful_lasting conduct made).perform_refused run now operation faithful
      (.lost serial) answer
    exact refused.found serial rfl

/-- A relay that has pushed its first state parks it when the second one is entered. -/
theorem parked_exactly_relay :
    (⟨1⟩ : Serial) ∈
      (((relayStarted true).perform Actor.conduct .epoch .push).2.perform Actor.conduct .epoch
        (.switchTo (.fresh ⟨2⟩))).2.machine.parked := by
  have pushed : Reachable Actor.conduct Unbroken (relay true)
      ((relayStarted true).perform Actor.conduct .epoch .push).2 :=
    .perform _ _ (relayStarted_reachable true) (by decide +kernel)
  have reached : Reachable Actor.conduct Unbroken (relay true)
      (((relayStarted true).perform Actor.conduct .epoch .push).2.perform Actor.conduct .epoch
        (.switchTo (.fresh ⟨2⟩))).2 :=
    .perform _ _ pushed (by decide +kernel)
  exact ((parked_exactly (relay_made true) reached).1 ⟨1⟩).mpr (by decide +kernel)

end TickMachine
