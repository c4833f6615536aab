import TickMachine.Proofs.Touch

/-!
# Whose states a machine has

Every state carries the number of the machine that made it.  A machine takes up only requests for
states of its own, so every state that is current, pending or parked in it, or on its way in a call
of it, was made by it.  States of other machines get no further than its inbox.
-/

namespace TickMachine

variable {β D N : Type}

/-- Every state that the machine can enter without another request was made by it. -/
structure Stage.Owned (stage : Stage β D N) : Prop where
  moving (subject : Instance β) :
    subject ∈ stage.phase.subjects → subject.owner = stage.run.machine.id
  current (subject : Instance β) :
    stage.run.machine.current = some subject → subject.owner = stage.run.machine.id
  pending (transition : Transition β) (subject : Instance β) :
    stage.run.machine.pending = some transition → subject ∈ transition.subject?.toList →
      subject.owner = stage.run.machine.id
  parked (serial : Serial) (subject : Instance β) :
    stage.run.machine.parked[serial]? = some subject → subject.owner = stage.run.machine.id

namespace Stage.Owned

variable {phase later : Phase β} {batch rest : List (Request β)} {run : Run β D N}

/-- The current state may have changed, or it may have left its place. -/
theorem withCurrent
    {after : Run β D N}
    (owned : Owned ⟨phase, batch, run⟩)
    (id : after.machine.id = run.machine.id)
    (pending : after.machine.pending = run.machine.pending)
    (parked : after.machine.parked = run.machine.parked)
    (moving : ∀ subject ∈ later.subjects, subject.owner = run.machine.id)
    (current : ∀ subject, after.machine.current = some subject → subject.owner = run.machine.id) :
    Owned ⟨later, rest, after⟩ where
  moving := by
    rw [id]
    exact moving
  current := by
    rw [id]
    exact current
  pending := by
    rw [id, pending]
    exact owned.pending
  parked := by
    rw [id, parked]
    exact owned.parked

/-- Where no state moves, only those on their way have to be looked at. -/
theorem carry
    {after : Run β D N}
    (owned : Owned ⟨phase, batch, run⟩)
    (id : after.machine.id = run.machine.id)
    (current : after.machine.current = run.machine.current)
    (pending : after.machine.pending = run.machine.pending)
    (parked : after.machine.parked = run.machine.parked)
    (moving : ∀ subject ∈ later.subjects, subject.owner = run.machine.id) :
    Owned ⟨later, rest, after⟩ :=
  owned.withCurrent id pending parked moving (by rw [current]; exact owned.current)

/-- The pending transition may have changed, or it may have been taken out. -/
theorem withPending
    (owned : Owned ⟨phase, batch, run⟩)
    (next : Option (Transition β))
    (moving : ∀ subject ∈ later.subjects, subject.owner = run.machine.id)
    (pending : ∀ transition ∈ next, ∀ subject ∈ transition.subject?.toList,
      subject.owner = run.machine.id) :
    Owned ⟨later, rest, run.mapMachine fun machine => { machine with pending := next }⟩ where
  moving := moving
  current := owned.current
  pending transition subject waiting := pending transition waiting subject
  parked := owned.parked

/-- A state that is let go is parked at most. -/
theorem released
    (owned : Owned ⟨phase, batch, run⟩)
    (subject : Instance β)
    (own : subject.owner = run.machine.id)
    (moving : ∀ subject ∈ later.subjects, subject.owner = run.machine.id) :
    Owned ⟨later, rest, run.released subject⟩ where
  moving := by
    rw [Run.released_machine]
    exact moving
  current := by
    rw [Run.released_machine]
    exact owned.current
  pending := by
    rw [Run.released_machine]
    exact owned.pending
  parked serial found := by
    rw [Run.released_machine]
    dsimp only
    split
    next =>
      intro parked
      rw [Std.TreeMap.getElem?_insert] at parked
      split at parked
      · cases parked
        exact own
      · exact owned.parked serial found parked
    next => exact owned.parked serial found

/-- A state that is found again leaves its place. -/
theorem retrieved
    {serial : Serial}
    {below : List Serial}
    {transition : Transition β}
    {machine : Machine β D}
    {entry : Entry β N}
    (owned : Owned ⟨.idle, batch, run⟩)
    (retrieved : { run.machine with stack := below }.retrieve serial = some (transition, machine)) :
    Owned ⟨.found transition, batch, Run.write { run with machine := machine } entry⟩ := by
  obtain ⟨found, parked, rfl, rfl⟩ | ⟨_, _, _, _, rfl, rfl⟩ | ⟨_, _, waiting, _, rfl⟩ :=
    Machine.retrieve_cases retrieved
  · refine ⟨fun subject member => ?_, owned.current, owned.pending, fun key subject present => ?_⟩
    · cases List.mem_singleton.mp member
      exact owned.parked serial found parked
    · rw [Run.write_machine, Std.TreeMap.getElem?_erase] at present
      split at present
      · nomatch present
      · exact owned.parked key subject present
  · exact ⟨nofun, owned.current, owned.pending, owned.parked⟩
  · exact ⟨fun subject => owned.pending transition subject waiting, owned.current, nofun,
      owned.parked⟩

end Stage.Owned

/-- No step brings a state of another machine further than the inbox. -/
theorem Step.owned
    {conduct : Conduct β D N}
    {deeds : List Deed}
    {before after : Stage β D N}
    (step : Step conduct deeds before after)
    (owned : before.Owned) :
    after.Owned := by
  have alone {subject other : Instance β} {id : MachineId} (own : subject.owner = id)
      (member : other ∈ [subject]) : other.owner = id := by
    cases List.mem_singleton.mp member
    exact own
  cases step with
  | @pause phase batch run paused =>
      refine owned.withCurrent rfl rfl rfl owned.moving fun subject present => ?_
      obtain ⟨other, here, rfl⟩ := Option.map_eq_some_iff.mp present
      exact owned.current other here
  | @take phase batch run destination request taken =>
      have machine := run.take_machine destination
      exact owned.carry (by rw [machine]) (by rw [machine]) (by rw [machine]) (by rw [machine])
        owned.moving
  | make kind behavior concrete => exact owned.carry rfl rfl rfl rfl fun _ => alone rfl
  | accept subject own => exact owned.carry rfl rfl rfl rfl fun _ => alone own
  | defer transition patient free =>
      refine owned.withPending _ nofun fun next waiting => ?_
      cases waiting
      exact owned.moving
  | supersede transition previous patient occupied =>
      refine owned.withPending _ (fun subject => owned.pending previous subject occupied)
        fun next waiting => ?_
      cases waiting
      exact owned.moving
  | letGo subject => exact owned.released subject (owned.moving subject List.mem_cons_self) nofun
  | resume transition occupied | abandon transition occupied =>
      exact owned.withPending _ (fun subject => owned.pending transition subject occupied) nofun
  | pop serial below transition rest top retrieved => exact owned.retrieved retrieved
  | tick subject _ present | restart subject present | exitInPlace _ subject present
  | enterAgain _ subject present =>
      refine owned.withCurrent rfl rfl rfl nofun fun other here => ?_
      cases here
      exact owned.current subject present
  | exit subject next present =>
      refine owned.withCurrent rfl rfl rfl (fun other member => ?_) nofun
      rcases List.mem_cons.mp member with rfl | member
      · exact owned.current subject present
      · exact owned.moving other member
  | release source previous next =>
      exact owned.released previous (owned.moving previous List.mem_cons_self)
        fun other member => owned.moving other (List.mem_cons_of_mem _ member)
  | enter next absent =>
      refine owned.withCurrent rfl rfl rfl nofun fun other here => ?_
      cases here
      exact owned.moving next List.mem_cons_self
  | leave subject present =>
      exact owned.withCurrent rfl rfl rfl (fun _ => alone (owned.current subject present)) nofun
  | create | forget | push | popLost | recordAgain | skip =>
      exact owned.carry rfl rfl rfl rfl nofun
  | _ => exact owned.carry rfl rfl rfl rfl owned.moving

end TickMachine
