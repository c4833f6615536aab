import TickMachine.Proofs.Frame
import TickMachine.Proofs.Parking

/-!
# What changes a state

A state of a machine changes only in two ways: a hook of it runs, or the owner of the machine sets
its paused flag while it is current.  A state that the stack refers to can be followed through all
places in which it can be, current, pending, parked or on its way in a call.  Between two stages it
changes by exactly those hooks of it that the journal tells of.
-/

namespace TickMachine

variable {β D N : Type}

/-! ## Changes of a state -/

/-- Something that changes a state. -/
inductive Touch (D : Type) where
  /-- A hook of the state ran, when the data were these and callers held states in these slots. -/
  | hook (hook : Hook) (data : D) (holds : Slot → Bool)
  /-- The owner of the machine set the paused flag. -/
  | pause (paused : Bool)

namespace Touch

/-- The hook that ran. -/
def hook? : Touch D → Option Hook
  | .hook ran _ _ => some ran
  | .pause _ => none

/-- The value to which the paused flag was set. -/
def flag? : Touch D → Option Bool
  | .hook _ _ _ => none
  | .pause paused => some paused

end Touch

namespace Instance

/-- A state after something has changed it. -/
def touched (conduct : Conduct β D N) (subject : Instance β) : Touch D → Instance β
  | .hook hook data holds =>
      let reaction := conduct.react hook subject.behavior
        { kind := subject.kind
          serial := subject.serial
          paused := subject.paused
          data := data
          holds := holds }
      { subject with behavior := reaction.behavior, paused := reaction.paused }
  | .pause paused => { subject with paused := paused }

theorem touched_identity
    (conduct : Conduct β D N)
    (subject : Instance β)
    (touch : Touch D) :
    (subject.touched conduct touch).identity = subject.identity := by
  cases touch <;> rfl

/-- A state has become what it is by these hooks and by setting its paused flag to these values, and
by nothing else. -/
def Changed
    (conduct : Conduct β D N)
    (hooks : List Hook)
    (flags : List Bool)
    (before after : Instance β) : Prop :=
  ∃ touches : List (Touch D),
    touches.filterMap Touch.hook? = hooks ∧ touches.filterMap Touch.flag? = flags ∧
      after = touches.foldl (touched conduct) before

namespace Changed

variable {conduct : Conduct β D N} {hooks more : List Hook} {flags others : List Bool}
  {before middle after : Instance β}

theorem refl (subject : Instance β) : Changed conduct [] [] subject subject :=
  ⟨[], rfl, rfl, rfl⟩

theorem single (touch : Touch D) (subject : Instance β) :
    Changed conduct touch.hook?.toList touch.flag?.toList subject
      (subject.touched conduct touch) := by
  refine ⟨[touch], ?_, ?_, rfl⟩
  · cases touch <;> rfl
  · cases touch <;> rfl

/-- Changes one after the other are changes by all of their hooks, in order. -/
theorem trans
    (first : Changed conduct hooks flags before middle)
    (second : Changed conduct more others middle after) :
    Changed conduct (hooks ++ more) (flags ++ others) before after := by
  obtain ⟨early, hooked, flagged, rfl⟩ := first
  obtain ⟨late, hookedThen, flaggedThen, rfl⟩ := second
  refine ⟨early ++ late, ?_, ?_, List.foldl_append.symm⟩
  · rw [List.filterMap_append, hooked, hookedThen]
  · rw [List.filterMap_append, flagged, flaggedThen]

/-- A state stays the same one, whatever changes it. -/
theorem identity (changed : Changed conduct hooks flags before after) :
    after.identity = before.identity := by
  obtain ⟨touches, -, -, rfl⟩ := changed
  induction touches generalizing before with
  | nil => rfl
  | cons touch touches inductionHypothesis =>
      exact inductionHypothesis.trans (before.touched_identity conduct touch)

theorem serial (changed : Changed conduct hooks flags before after) :
    after.serial = before.serial :=
  congrArg Prod.snd changed.identity

/-- A state that has neither reacted to a hook nor had its paused flag set is as it was. -/
theorem eq_of_nil (changed : Changed conduct [] [] before after) : after = before := by
  obtain ⟨touches, hooked, flagged, rfl⟩ := changed
  cases touches with
  | nil => rfl
  | cons touch more =>
      cases touch with
      | hook => nomatch hooked
      | pause => nomatch flagged

end Changed

end Instance

namespace Run

/-- What changes a state when a hook of it runs. -/
def touch (run : Run β D N) (hook : Hook) : Touch D :=
  .hook hook run.machine.data fun slot => run.hands.contains slot

/-- A state that has reacted to a hook has changed by this hook. -/
theorem changed_settled
    (run : Run β D N)
    (conduct : Conduct β D N)
    (hook : Hook)
    (subject : Instance β) :
    subject.Changed conduct [hook] [] (run.settled conduct hook subject) :=
  .single (run.touch hook) subject

end Run

/-! ## Calls of hooks in the journal -/

/-- The hook that an entry tells was called. -/
def Entry.call? : Entry β N → Option (Hook × Kind × Serial)
  | .called hook kind serial => some (hook, kind, serial)
  | _ => none

theorem Entry.call?_of_not_isCall {entry : Entry β N} (quiet : ¬ entry.IsCall) :
    entry.call? = none := by
  cases entry with
  | called hook kind serial => exact absurd trivial quiet
  | _ => rfl

namespace Run

/-- The hooks that were called, oldest call first, with the states that they are hooks of. -/
def calls (run : Run β D N) : List (Hook × Kind × Serial) :=
  run.journal.toList.filterMap Entry.call?

/-- The hooks of a state that were called, oldest call first. -/
def callsOf (run : Run β D N) (serial : Serial) : List Hook :=
  (run.calls.filter fun call => call.2.2 = serial).map Prod.fst

theorem calls_write (run : Run β D N) (entry : Entry β N) (quiet : ¬ entry.IsCall) :
    (run.write entry).calls = run.calls := by
  simp [calls, Entry.call?_of_not_isCall quiet]

/-- Entries that are no calls of hooks can be left out. -/
theorem calls_eq_filter
    (run : Run β D N)
    (hidden : Entry β N → Bool)
    (quiet : ∀ entry, hidden entry = true → ¬ entry.IsCall) :
    run.calls =
      (run.journal.toList.filter fun entry => !hidden entry).filterMap Entry.call? := by
  rw [calls, List.filterMap_filter]
  refine List.filterMap_congr fun entry _ => ?_
  cases hides : hidden entry with
  | false => rfl
  | true => exact Entry.call?_of_not_isCall (quiet entry hides)

theorem calls_log (run : Run β D N) (event : LogEvent) :
    (run.write (.logged event)).calls = run.calls :=
  run.calls_write _ not_false

theorem calls_released (run : Run β D N) (subject : Instance β) :
    (run.released subject).calls = run.calls := by
  unfold released
  split
  · exact run.calls_log _
  · exact run.calls_log _

/-- A reaction shows in the journal as one call, whatever the hook reports besides. -/
theorem calls_reacted
    (run : Run β D N)
    (conduct : Conduct β D N)
    (hook : Hook)
    (subject : Instance β) :
    (run.reacted conduct hook subject).calls =
      run.calls ++ [(hook, subject.kind, subject.serial)] := by
  have notes (reported : List N) :
      (reported.map (Entry.noted : N → Entry β N)).filterMap Entry.call? = [] := by
    simp [List.filterMap_map, Entry.call?, Function.comp_def]
  simp [calls, reacted, notes, Entry.call?]

theorem callsOf_append
    {before after : Run β D N}
    {added : List (Hook × Kind × Serial)}
    (grown : after.calls = before.calls ++ added)
    (serial : Serial) :
    after.callsOf serial =
      before.callsOf serial ++ (added.filter fun call => call.2.2 = serial).map Prod.fst := by
  rw [callsOf, grown, List.filter_append, List.map_append]
  rfl

/-- Calls that have been made stay in the journal. -/
theorem GoesOn.calls
    {deeds : List Deed}
    {before after : Run β D N}
    (goesOn : GoesOn deeds before after) :
    ∃ more, after.calls = before.calls ++ more := by
  obtain ⟨added, wrote, -⟩ := goesOn
  refine ⟨added.filterMap Entry.call?, ?_⟩
  rw [Run.calls, wrote, List.filterMap_append]
  rfl

end Run

/-! ## Where a state is -/

/-- The state that a transition replaces the current one with. -/
def Transition.subject? : Transition β → Option (Instance β)
  | .replace next => some next
  | .reenter _ _ => none

/-- The states that are on their way in a phase. -/
def Phase.subjects : Phase β → List (Instance β)
  | .found transition | .due transition | .spare transition => transition.subject?.toList
  | .swapping _ previous next => previous.toList ++ [next]
  | .entering next => [next]
  | .leaving previous => [previous]
  | .idle | .reentering _ _ _ | .lost _ => []

theorem Transition.eq_of_mem
    {transition : Transition β}
    {subject : Instance β}
    (member : subject ∈ transition.subject?.toList) :
    transition = .replace subject := by
  cases transition with
  | replace next => rw [List.mem_singleton.mp member]
  | reenter kind serial => nomatch member

/-- A machine has a state in one of its places. -/
def Machine.Has (machine : Machine β D) (subject : Instance β) : Prop :=
  machine.current = some subject ∨ machine.pending = some (.replace subject) ∨
    machine.parked[subject.serial]? = some subject

namespace Stage

/-- A state can be entered without another request. -/
def Holds (stage : Stage β D N) (subject : Instance β) : Prop :=
  subject ∈ stage.phase.subjects ∨ stage.run.machine.Has subject

/-- When nothing is on its way, a state can be entered only out of the machine. -/
theorem holds_idle
    {batch : List (Request β)}
    {run : Run β D N}
    {subject : Instance β} :
    Holds ⟨.idle, batch, run⟩ subject ↔ run.machine.Has subject :=
  or_iff_right List.not_mem_nil

/-- The states with a number that can be entered without another request. -/
def held (stage : Stage β D N) (serial : Serial) : List (Instance β) :=
  (stage.phase.subjects ++ stage.run.machine.current.toList ++
      (stage.run.machine.pending.bind Transition.subject?).toList).filter
    (fun subject => subject.serial = serial) ++
  stage.run.machine.parked[serial]?.toList

theorem length_held (stage : Stage β D N) (serial : Serial) :
    (stage.held serial).length = stage.inside serial := by
  have single (subject : Instance β) :
      [subject].countP (fun subject => subject.serial = serial) = subject.copies serial := by
    simp [Instance.copies, List.countP_cons]
  have transition (found : Transition β) :
      found.subject?.toList.countP (fun subject => subject.serial = serial) =
        found.copies serial := by
    cases found with
    | replace next => exact single next
    | reenter kind serial => rfl
  have phase : stage.phase.subjects.countP (fun subject => subject.serial = serial) =
      stage.phase.copies serial := by
    cases stage.phase with
    | found found | due found | spare found => exact transition found
    | swapping source previous next =>
        rw [Phase.subjects, List.countP_append, single]
        cases previous with
        | none => rfl
        | some previous => exact congrArg (· + _) (single previous)
    | entering next => exact single next
    | leaving previous => exact single previous
    | _ => rfl
  have current : stage.run.machine.current.toList.countP (fun subject => subject.serial = serial) =
      stage.run.machine.current.elim 0 fun subject => subject.copies serial := by
    cases stage.run.machine.current with
    | none => rfl
    | some subject => exact single subject
  have pending : (stage.run.machine.pending.bind Transition.subject?).toList.countP
        (fun subject => subject.serial = serial) =
      stage.run.machine.pending.elim 0 fun found => found.copies serial := by
    cases stage.run.machine.pending with
    | none => rfl
    | some found => exact transition found
  have parked : stage.run.machine.parked[serial]?.toList.length =
      parkedCopies stage.run.machine.parked serial := by
    simp only [parkedCopies, Std.TreeMap.mem_iff_isSome_getElem?]
    cases stage.run.machine.parked[serial]? <;> rfl
  rw [held, List.length_append, ← List.countP_eq_length_filter, List.countP_append,
    List.countP_append, phase, current, pending, parked, inside, Machine.copies]
  omega

theorem mem_held_of_holds
    {stage : Stage β D N}
    {subject : Instance β}
    (holds : stage.Holds subject) :
    subject ∈ stage.held subject.serial := by
  rcases holds with moving | present | waiting | parked
  · simp [held, moving]
  · simp [held, present]
  · simp [held, waiting, Transition.subject?]
  · simp [held, parked]

/-- There is only one state with a number. -/
theorem Orderly.unique
    {stage : Stage β D N}
    (orderly : stage.Orderly)
    {first second : Instance β}
    (holdsFirst : stage.Holds first)
    (holdsSecond : stage.Holds second)
    (same : first.serial = second.serial) :
    first = second := by
  have few : (stage.held second.serial).length ≤ 1 := by
    have once := orderly.once second.serial
    have given := stage.run.machine.given_le_one second.serial
    rw [length_held]
    rw [copies] at once
    omega
  have memberFirst := mem_held_of_holds holdsFirst
  have memberSecond := mem_held_of_holds holdsSecond
  rw [same] at memberFirst
  cases found : stage.held second.serial with
  | nil =>
      rw [found] at memberFirst
      exact absurd memberFirst List.not_mem_nil
  | cons only others =>
      rw [found, List.length_cons] at few
      have alone : others = [] := List.length_eq_zero_iff.mp (by omega)
      rw [found, alone] at memberFirst memberSecond
      rw [List.mem_singleton.mp memberFirst, List.mem_singleton.mp memberSecond]

end Stage

/-! ## Steps -/

/-- A state that was held before is held after.  In between it has changed by exactly those hooks of
it that the journal tells of, and its paused flag has been set to these values. -/
def Touched
    (conduct : Conduct β D N)
    (flags : List Bool)
    (before after : Stage β D N)
    (subject : Instance β) : Prop :=
  ∃ hooks changed,
    subject.Changed conduct hooks flags changed ∧
      after.run.callsOf subject.serial = before.run.callsOf subject.serial ++ hooks ∧
      after.Holds changed

namespace Touched

variable {conduct : Conduct β D N} {before middle after : Stage β D N} {subject : Instance β}

/-- Nothing happens to a state while no hook is called. -/
theorem still
    (calls : after.run.calls = before.run.calls)
    (holds : after.Holds subject) :
    Touched conduct [] before after subject := by
  refine ⟨[], subject, .refl subject, ?_, holds⟩
  rw [Run.callsOf, calls]
  exact (List.append_nil _).symm

/-- A hook of another state changes nothing. -/
theorem aside
    {hook : Hook}
    {other : Instance β}
    (calls : after.run.calls = before.run.calls ++ [(hook, other.kind, other.serial)])
    (apart : other.serial ≠ subject.serial)
    (holds : after.Holds subject) :
    Touched conduct [] before after subject := by
  refine ⟨[], subject, .refl subject, ?_, holds⟩
  rw [Run.callsOf_append calls]
  simp [apart]

/-- A hook of the state itself has run. -/
theorem called
    (run : Run β D N)
    (hook : Hook)
    (calls : after.run.calls = before.run.calls ++ [(hook, subject.kind, subject.serial)])
    (holds : after.Holds (run.settled conduct hook subject)) :
    Touched conduct [] before after subject := by
  refine ⟨[hook], _, run.changed_settled conduct hook subject, ?_, holds⟩
  rw [Run.callsOf_append calls]
  simp

/-- A state is followed from stage to stage, and its changes add up. -/
theorem trans
    {early late : List Bool}
    (first : Touched conduct early before middle subject)
    (second : ∀ changed : Instance β, changed.serial = subject.serial →
      middle.Holds changed → Touched conduct late middle after changed) :
    Touched conduct (early ++ late) before after subject := by
  obtain ⟨hooks, changed, changes, calls, holds⟩ := first
  have same := changes.serial
  obtain ⟨others, final, changesThen, callsThen, still⟩ := second changed same holds
  refine ⟨hooks ++ others, final, changes.trans changesThen, ?_, still⟩
  rw [same] at callsThen
  rw [callsThen, calls, List.append_assoc]

end Touched

/-- What leaves the places of states as they are keeps a state that is held. -/
theorem Stage.Holds.carry
    {before after : Stage β D N}
    {subject : Instance β}
    (holds : before.Holds subject)
    (moving : ∀ subject ∈ before.phase.subjects, subject ∈ after.phase.subjects)
    (current : after.run.machine.current = before.run.machine.current)
    (pending : after.run.machine.pending = before.run.machine.pending)
    (parked : after.run.machine.parked = before.run.machine.parked) :
    after.Holds subject := by
  unfold Holds Machine.Has
  rw [current, pending, parked]
  exact holds.imp_left (moving subject)

/-- A state that was pending is on its way when the pending transition is taken out. -/
theorem Stage.Holds.takePending
    {later : Phase β}
    {batch : List (Request β)}
    {run : Run β D N}
    {subject : Instance β}
    {transition : Transition β}
    (holds : Stage.Holds ⟨.idle, batch, run⟩ subject)
    (occupied : run.machine.pending = some transition)
    (moving : ∀ subject ∈ transition.subject?.toList, subject ∈ later.subjects) :
    Stage.Holds ⟨later, batch, run.mapMachine fun machine => { machine with pending := none }⟩
      subject := by
  rcases holds with held | present | waiting | parked
  · nomatch held
  · exact .inr (.inl present)
  · cases occupied.symm.trans waiting
    exact .inl (moving subject (List.mem_singleton_self subject))
  · exact .inr (.inr (.inr parked))

/-- A state that is found again is on its way, and any other state stays where it was. -/
theorem Stage.Holds.retrieved
    {batch : List (Request β)}
    {run : Run β D N}
    {subject : Instance β}
    {key : Serial}
    {below : List Serial}
    {transition : Transition β}
    {rest : Machine β D}
    (holds : Stage.Holds ⟨.idle, batch, run⟩ subject)
    (retrieved : { run.machine with stack := below }.retrieve key = some (transition, rest)) :
    Stage.Holds ⟨.found transition, batch, { run with machine := rest }⟩ subject := by
  obtain ⟨found, at_key, rfl, rfl⟩ | ⟨_, _, _, _, rfl, rfl⟩ | ⟨_, _, occupied, _, rfl⟩ :=
    Machine.retrieve_cases retrieved
  · rcases holds with held | present | waiting | parked
    · nomatch held
    · exact .inr (.inl present)
    · exact .inr (.inr (.inl waiting))
    · by_cases same : key = subject.serial
      · cases same
        cases at_key.symm.trans parked
        exact .inl (List.mem_singleton_self subject)
      · refine .inr (.inr (.inr ?_))
        dsimp only
        rw [Std.TreeMap.getElem?_erase, if_neg, parked]
        exact fun equal => same (Std.LawfulEqCmp.eq_of_compare equal)
  · exact holds.carry nofun rfl rfl rfl
  · exact holds.takePending occupied fun held member => member

/-- A state that is let go is parked if the stack refers to it. -/
theorem Stage.Holds.released
    {phase later : Phase β}
    {batch : List (Request β)}
    {run : Run β D N}
    {subject other : Instance β}
    (holds : Stage.Holds ⟨phase, batch, run⟩ subject)
    (orderly : Stage.Orderly ⟨phase, batch, run⟩)
    (pushed : subject.serial ∈ run.machine.stack)
    (going : other ∈ phase.subjects)
    (moving : ∀ subject ∈ phase.subjects, subject ∈ later.subjects ∨ subject = other) :
    Stage.Holds ⟨later, batch, run.released other⟩ subject := by
  unfold Holds Machine.Has
  rw [Run.released_machine]
  by_cases same : other.serial = subject.serial
  · have equal : other = subject := orderly.unique (.inl going) holds same
    refine .inr (.inr (.inr ?_))
    rw [equal, if_pos pushed]
    exact Std.TreeMap.getElem?_insert_self
  · rcases holds with held | present | waiting | parked
    · rcases moving subject held with held | equal
      · exact .inl held
      · exact absurd (congrArg Instance.serial equal).symm same
    · exact .inr (.inl present)
    · exact .inr (.inr (.inl waiting))
    · refine .inr (.inr (.inr ?_))
      dsimp only
      split
      · rw [Std.TreeMap.getElem?_insert, if_neg, parked]
        exact fun equal => same (Std.LawfulEqCmp.eq_of_compare equal)
      · exact parked

/-- When a hook of a state runs, that state has changed by this hook, and any other state has not
changed. -/
theorem Touched.hooked
    {conduct : Conduct β D N}
    {before after : Stage β D N}
    {subject other : Instance β}
    (run : Run β D N)
    (hook : Hook)
    (orderly : before.Orderly)
    (holds : before.Holds subject)
    (calls : after.run.calls = before.run.calls ++ [(hook, other.kind, other.serial)])
    (had : before.Holds other)
    (has : after.Holds (run.settled conduct hook other))
    (moving : ∀ subject ∈ before.phase.subjects, subject ∈ after.phase.subjects ∨ subject = other)
    (current : ∀ subject, before.run.machine.current = some subject → subject = other)
    (pending : after.run.machine.pending = before.run.machine.pending)
    (parked : after.run.machine.parked = before.run.machine.parked) :
    Touched conduct [] before after subject := by
  by_cases same : other.serial = subject.serial
  · cases orderly.unique had holds same
    exact .called run hook calls has
  · have apart : subject ≠ other := fun equal => same (congrArg Instance.serial equal).symm
    refine .aside calls same ?_
    rcases holds with held | present | waiting | found
    · exact .inl ((moving subject held).resolve_right apart)
    · exact absurd (current subject present) apart
    · exact .inr (.inr (.inl (pending.trans waiting)))
    · exact .inr (.inr (.inr (by rw [parked]; exact found)))

variable {conduct : Conduct β D N} {deeds : List Deed} {before after : Stage β D N}

/-- A step changes a state that the stack refers to only by a hook of it, unless the owner of the
machine sets its paused flag. -/
theorem Step.touched
    (step : Step conduct deeds before after)
    (undisturbed : .pause ∉ deeds)
    (orderly : before.Orderly)
    (subject : Instance β)
    (holds : before.Holds subject)
    (pushed : subject.serial ∈ before.run.machine.stack) :
    Touched conduct [] before after subject := by
  cases step with
  | write entry quiet fits =>
      exact .still (Run.calls_write _ entry quiet) (holds.carry (fun _ held => held) rfl rfl rfl)
  | pause paused done => exact absurd done undisturbed
  | take destination request taken =>
      refine .still ?_ (holds.carry (fun _ held => held) ?_ ?_ ?_)
      · rw [Run.calls, Run.take_journal]
        rfl
      · rw [Run.take_machine]
      · rw [Run.take_machine]
      · rw [Run.take_machine]
  | make | create =>
      exact .still (Run.calls_write _ _ not_false) (holds.carry nofun rfl rfl rfl)
  | accept | forget | push | popLost | recordAgain =>
      exact .still rfl (holds.carry nofun rfl rfl rfl)
  | defer transition patient free =>
      refine .still rfl ?_
      rcases holds with held | present | waiting | parked
      · exact .inr (.inr (.inl (congrArg some (Transition.eq_of_mem held))))
      · exact .inr (.inl present)
      · exact absurd (free.symm.trans waiting) nofun
      · exact .inr (.inr (.inr parked))
  | supersede transition previous patient occupied =>
      refine .still rfl ?_
      rcases holds with held | present | waiting | parked
      · exact .inr (.inr (.inl (congrArg some (Transition.eq_of_mem held))))
      · exact .inr (.inl present)
      · cases occupied.symm.trans waiting
        exact .inl (List.mem_singleton_self subject)
      · exact .inr (.inr (.inr parked))
  | letGo other =>
      refine .still (Run.calls_released _ other) ?_
      exact holds.released orderly pushed (List.mem_singleton_self other)
        fun held member => .inr (List.mem_singleton.mp member)
  | resume _ occupied | abandon _ occupied =>
      exact .still rfl (holds.takePending occupied fun held member => member)
  | pop key below transition rest top retrieved done =>
      exact .still (Run.calls_log _ _) (holds.retrieved retrieved)
  | tick other _ present | restart other present | exitInPlace _ other present
  | enterAgain _ other present =>
      exact .hooked _ _ orderly holds (Run.calls_reacted _ conduct _ other)
        (.inr (.inl present)) (.inr (.inl rfl)) nofun
        (fun _ here => Option.some.inj (here.symm.trans present)) rfl rfl
  | exit other next present =>
      exact .hooked _ .exit orderly holds (Run.calls_reacted _ conduct _ other)
        (.inr (.inl present)) (.inl List.mem_cons_self)
        (fun _ held => .inl (List.mem_cons_of_mem _ held))
        (fun _ here => Option.some.inj (here.symm.trans present)) rfl rfl
  | release source previous next =>
      refine .still (Run.calls_released _ previous) ?_
      refine holds.released orderly pushed List.mem_cons_self fun held member => ?_
      exact (List.mem_cons.mp member).symm
  | @enter batch run next absent =>
      exact .hooked (run.entering next) .enter orderly holds
        ((run.entering next).calls_reacted conduct .enter next)
        (.inl (List.mem_singleton_self next)) (.inr (.inl rfl))
        (fun _ held => .inr (List.mem_singleton.mp held))
        (fun _ here => absurd (absent.symm.trans here) nofun) rfl rfl
  | skip kind serial elsewhere =>
      exact .still (Run.calls_log _ _) (holds.carry nofun rfl rfl rfl)
  | leave other present free done =>
      exact .hooked _ .exit orderly holds (Run.calls_reacted _ conduct _ other)
        (.inr (.inl present)) (.inl List.mem_cons_self) nofun
        (fun _ here => Option.some.inj (here.symm.trans present)) rfl rfl
  | _ => exact .still rfl (holds.carry (fun _ held => held) rfl rfl rfl)

end TickMachine
