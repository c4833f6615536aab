import TickMachine.Proofs.Touch

/-!
# The ledger

Some log events are written only together with what they tell of: that a state was made or parked,
that a state on the stack was found, that the current state was to enter again and was not there.
The ledger of a run is the list of these events.  It determines how many states were made and which
states are parked.
-/

namespace TickMachine

variable {β D N : Type}

/-- The events in a journal that belong to its ledger. -/
def ledgerOf (entries : List (Entry β N)) : List LogEvent :=
  entries.filterMap Entry.bound?

namespace Run

/-- The ledger of a run. -/
def ledger (run : Run β D N) : List LogEvent :=
  ledgerOf run.journal.toList

theorem ledger_write (run : Run β D N) (entry : Entry β N) :
    (run.write entry).ledger = run.ledger ++ entry.bound?.toList := by
  simp only [ledger, ledgerOf, write_journal, Array.toList_push, List.filterMap_append]
  congr 1

/-- The ledger tells that a state is parked exactly when the stack refers to it. -/
theorem ledger_released (run : Run β D N) (subject : Instance β) :
    (run.released subject).ledger =
      run.ledger ++
        if subject.serial ∈ run.machine.stack then [.parked subject.serial] else [] := by
  unfold released
  split
  · exact run.ledger_write (.logged (.parked subject.serial))
  · exact run.ledger_write (.logged (.dropped subject.serial))

/-- Hooks cannot write into the ledger. -/
theorem ledger_reacted
    (run : Run β D N)
    (conduct : Conduct β D N)
    (hook : Hook)
    (subject : Instance β) :
    (run.reacted conduct hook subject).ledger = run.ledger := by
  simp [ledger, ledgerOf, reacted, Entry.bound?]

end Run

/-! ## Steps -/

/-- What a step adds to the ledger, and what it does to the parked states and to the number of
states that were made. -/
inductive Stage.Adds (before after : Stage β D N) : Prop where
  /-- It adds nothing. -/
  | nothing
      (ledger : after.run.ledger = before.run.ledger)
      (made : after.run.machine.made = before.run.machine.made)
      (parked : after.run.machine.parked = before.run.machine.parked)
  /-- A state is made. -/
  | made (kind : Kind) (name : String)
      (ledger : after.run.ledger =
        before.run.ledger ++ [.made kind name ⟨before.run.machine.made + 1⟩])
      (made : after.run.machine.made = before.run.machine.made + 1)
      (parked : after.run.machine.parked = before.run.machine.parked)
  /-- A state that was on its way is parked. -/
  | parked (subject : Instance β)
      (moving : subject ∈ before.phase.subjects)
      (ledger : after.run.ledger = before.run.ledger ++ [.parked subject.serial])
      (made : after.run.machine.made = before.run.machine.made)
      (parked : after.run.machine.parked =
        before.run.machine.parked.insert subject.serial subject)
  /-- A state on the stack is found.  If it was parked, it is not parked any more. -/
  | popped (serial : Serial) (depth : Nat)
      (ledger : after.run.ledger = before.run.ledger ++ [.popped serial depth])
      (made : after.run.machine.made = before.run.machine.made)
      (parked : after.run.machine.parked = before.run.machine.parked.erase serial ∨
        serial ∉ before.run.machine.parked ∧
          after.run.machine.parked = before.run.machine.parked)
  /-- A state that is not current was to enter again. -/
  | skipped (kind : Kind) (serial : Serial)
      (due : before.phase = .due (.reenter kind serial))
      (elsewhere : before.run.machine.currentSerial ≠ some serial)
      (ledger : after.run.ledger = before.run.ledger ++ [.reenterSkipped serial])
      (made : after.run.machine.made = before.run.machine.made)
      (parked : after.run.machine.parked = before.run.machine.parked)

variable {conduct : Conduct β D N} {deeds : List Deed} {before after : Stage β D N}

/-- To let a state go that is on its way parks it or adds nothing. -/
theorem Stage.adds_released
    {phase later : Phase β}
    {batch : List (Request β)}
    (run : Run β D N)
    (subject : Instance β)
    (moving : subject ∈ phase.subjects) :
    Adds ⟨phase, batch, run⟩ ⟨later, batch, run.released subject⟩ := by
  have ledger := run.ledger_released subject
  have machine := run.released_machine subject
  by_cases pushed : subject.serial ∈ run.machine.stack
  · rw [if_pos pushed] at ledger machine
    exact .parked subject moving ledger (by rw [machine]) (by rw [machine])
  · rw [if_neg pushed, List.append_nil] at ledger
    rw [if_neg pushed] at machine
    exact .nothing ledger (by rw [machine]) (by rw [machine])

/-- Each step adds to the ledger what it does to the states. -/
theorem Step.adds (step : Step conduct deeds before after) : before.Adds after := by
  cases step with
  | @write phase batch run entry quiet fits loose =>
      refine .nothing ?_ rfl rfl
      rw [run.ledger_write entry, loose]
      exact List.append_nil _
  | take destination request taken =>
      refine .nothing ?_ ?_ ?_
      · rw [Run.ledger, Run.take_journal]
        rfl
      · rw [Run.take_machine]
      · rw [Run.take_machine]
  | make kind | create kind => exact .made kind _ (Run.ledger_write _ _) rfl rfl
  | letGo subject => exact Stage.adds_released _ subject (List.mem_singleton_self subject)
  | release source previous next => exact Stage.adds_released _ previous List.mem_cons_self
  | pop serial below transition rest top retrieved =>
      obtain ⟨_, _, _, rfl⟩ | ⟨unparked, _, _, _, _, rfl⟩ | ⟨unparked, _, _, _, rfl⟩ :=
        Machine.retrieve_cases retrieved
      · exact .popped serial _ (Run.ledger_write _ _) rfl (.inl rfl)
      · exact .popped serial _ (Run.ledger_write _ _) rfl (.inr ⟨unparked, rfl⟩)
      · exact .popped serial _ (Run.ledger_write _ _) rfl (.inr ⟨unparked, rfl⟩)
  | tick subject delta present =>
      exact .nothing (Run.ledger_reacted _ conduct (.tick delta) subject) rfl rfl
  | restart subject present =>
      exact .nothing (Run.ledger_reacted _ conduct .restart subject) rfl rfl
  | exit subject | exitInPlace _ subject | leave subject =>
      exact .nothing (Run.ledger_reacted _ conduct .exit subject) rfl rfl
  | @enter batch run next absent =>
      exact .nothing ((run.entering next).ledger_reacted conduct .enter next) rfl rfl
  | enterAgain kind subject present =>
      exact .nothing (Run.ledger_reacted _ conduct .enter subject) rfl rfl
  | skip kind serial elsewhere =>
      exact .skipped kind serial rfl elsewhere (Run.ledger_write _ _) rfl rfl
  | _ => exact .nothing rfl rfl rfl

/-! ## What the ledger determines -/

namespace LogEvent

/-- The number of a state that was made. -/
def made? : LogEvent → Option Serial
  | .made _ _ serial => some serial
  | _ => none

/-- Follows the parked states through an event.  A state that is parked already cannot be parked
again. -/
def park (parked : List Serial) : LogEvent → Option (List Serial)
  | .parked serial => if serial ∈ parked then none else some (serial :: parked)
  | .popped serial _ => some (parked.filter fun other => other ≠ serial)
  | _ => some parked

end LogEvent

/-- The numbers of the states that a ledger tells were made, in order. -/
def numbersIn (ledger : List LogEvent) : List Serial :=
  ledger.filterMap LogEvent.made?

/-- The parked states after all events of a ledger, unless a state was parked that was parked
already. -/
def parkedAfter (ledger : List LogEvent) : Option (List Serial) :=
  ledger.foldlM LogEvent.park []

/-- The numbers from one to the given one. -/
def serialsUpTo (count : Nat) : List Serial :=
  (List.range' 1 count).map Serial.mk

theorem serialsUpTo_succ (count : Nat) :
    serialsUpTo (count + 1) = serialsUpTo count ++ [⟨count + 1⟩] := by
  rw [serialsUpTo, serialsUpTo, List.range'_concat, List.map_append, Nat.one_mul, Nat.add_comm 1]
  rfl

/-- The ledger, which continues an earlier one, tells how many states were made and which are
parked. -/
structure Stage.Recorded (past : List LogEvent) (stage : Stage β D N) : Prop where
  numbered : numbersIn (past ++ stage.run.ledger) = serialsUpTo stage.run.machine.made
  parking : ∃ parked, parkedAfter (past ++ stage.run.ledger) = some parked ∧
    ∀ serial, serial ∈ parked ↔ serial ∈ stage.run.machine.parked

/-- A state on its way is counted in its phase. -/
theorem Phase.copies_pos
    {phase : Phase β}
    {subject : Instance β}
    (moving : subject ∈ phase.subjects) :
    1 ≤ phase.copies subject.serial := by
  have one : subject.copies subject.serial = 1 := if_pos rfl
  have transition {found : Transition β} (member : subject ∈ found.subject?.toList) :
      1 ≤ found.copies subject.serial := by
    rw [Transition.eq_of_mem member]
    exact Nat.le_of_eq one.symm
  cases phase with
  | found found => exact transition moving
  | due found => exact transition moving
  | spare found => exact transition moving
  | entering next =>
      cases List.mem_singleton.mp moving
      exact Nat.le_of_eq one.symm
  | leaving previous =>
      cases List.mem_singleton.mp moving
      exact Nat.le_of_eq one.symm
  | swapping source previous next =>
      rw [Phase.copies]
      rcases List.mem_append.mp moving with left | arrives
      · cases Option.mem_toList.mp left
        exact Nat.le_trans (Nat.le_of_eq one.symm) (Nat.le_add_right _ _)
      · cases List.mem_singleton.mp arrives
        exact Nat.le_trans (Nat.le_of_eq one.symm) (Nat.le_add_left _ _)
  | _ => cases moving

/-- A state on its way is not parked. -/
theorem Stage.Orderly.moving_unparked
    {stage : Stage β D N}
    (orderly : stage.Orderly)
    {subject : Instance β}
    (moving : subject ∈ stage.phase.subjects) :
    subject.serial ∉ stage.run.machine.parked := by
  intro parked
  have once := orderly.once subject.serial
  have given := stage.run.machine.given_le_one subject.serial
  have moves := Phase.copies_pos moving
  rw [copies, inside, Machine.copies, parkedCopies, if_pos parked] at once
  omega

theorem numbersIn_append (first second : List LogEvent) :
    numbersIn (first ++ second) = numbersIn first ++ numbersIn second :=
  List.filterMap_append

theorem numbersIn_snoc (ledger : List LogEvent) (event : LogEvent) :
    numbersIn (ledger ++ [event]) = numbersIn ledger ++ event.made?.toList := by
  rw [numbersIn_append]
  cases found : event.made? <;> simp [numbersIn, found]

theorem parkedAfter_snoc (ledger : List LogEvent) (event : LogEvent) :
    parkedAfter (ledger ++ [event]) =
      (parkedAfter ledger).bind fun parked => event.park parked := by
  rw [parkedAfter, List.foldlM_append]
  simp [parkedAfter]

/-- The ledger stays true of the states that were made and of those that are parked. -/
theorem Step.recorded
    {past : List LogEvent}
    (step : Step conduct deeds before after)
    (orderly : before.Orderly)
    (recorded : before.Recorded past) :
    after.Recorded past := by
  obtain ⟨numbered, parked, followed, exactly⟩ := recorded
  cases step.adds with
  | nothing ledger made places =>
      refine ⟨?_, parked, ?_, ?_⟩
      · rw [ledger, made, numbered]
      · rw [ledger, followed]
      · rw [places]
        exact exactly
  | made kind name ledger made places =>
      refine ⟨?_, parked, ?_, ?_⟩
      · rw [ledger, made, ← List.append_assoc, numbersIn_snoc, numbered, serialsUpTo_succ]
        rfl
      · rw [ledger, ← List.append_assoc, parkedAfter_snoc, followed]
        rfl
      · rw [places]
        exact exactly
  | parked subject moving ledger made places =>
      have new : subject.serial ∉ parked := fun member =>
        orderly.moving_unparked moving ((exactly subject.serial).mp member)
      refine ⟨?_, subject.serial :: parked, ?_, fun serial => ?_⟩
      · rw [ledger, made, ← List.append_assoc, numbersIn_snoc, numbered]
        exact List.append_nil _
      · rw [ledger, ← List.append_assoc, parkedAfter_snoc, followed]
        exact if_neg new
      · rw [places, Std.TreeMap.mem_insert, List.mem_cons, exactly,
          Std.LawfulEqCmp.compare_eq_iff_eq, eq_comm]
  | popped number depth ledger made places =>
      refine ⟨?_, parked.filter fun other => other ≠ number, ?_, fun serial => ?_⟩
      · rw [ledger, made, ← List.append_assoc, numbersIn_snoc, numbered]
        exact List.append_nil _
      · rw [ledger, ← List.append_assoc, parkedAfter_snoc, followed]
        rfl
      · rw [List.mem_filter, exactly, decide_eq_true_eq]
        rcases places with erased | ⟨unparked, same⟩
        · rw [erased, Std.TreeMap.mem_erase, and_comm, ne_comm]
          exact and_congr_left fun _ => not_congr Std.LawfulEqCmp.compare_eq_iff_eq.symm
        · rw [same]
          exact and_iff_left_of_imp fun member equal => unparked (equal ▸ member)
  | skipped kind number due elsewhere ledger made places =>
      refine ⟨?_, parked, ?_, ?_⟩
      · rw [ledger, made, ← List.append_assoc, numbersIn_snoc, numbered]
        exact List.append_nil _
      · rw [ledger, ← List.append_assoc, parkedAfter_snoc, followed]
        rfl
      · rw [places]
        exact exactly

end TickMachine
