import TickMachine.Proofs.Frame
import TickMachine.Proofs.Reachable

/-!
# Places of states

A state of a machine can be in many places: it can be current, pending or parked, it can be in a
request, in a caller's hands, or on its way in a call.  This module counts the places of the states
with a given number.  No step puts a state into two places, and no step makes a state with a number
that was given before, so there is never more than one.
-/

namespace TickMachine

variable {β D N : Type}

/-! ## Counting -/

/-- Whether a state has a number, as a count. -/
def Instance.copies (subject : Instance β) (serial : Serial) : Nat :=
  if subject.serial = serial then 1 else 0

/-- How many states with a number are in a transition. -/
def Transition.copies (serial : Serial) : Transition β → Nat
  | .replace next => next.copies serial
  | .reenter _ _ => 0

/-- How many states of a machine with a number are in a request. -/
def Request.copies (id : MachineId) (serial : Serial) : Request β → Nat
  | .fresh _ => 0
  | .existing subject => if subject.owner = id then subject.copies serial else 0

theorem Request.copies_own
    (id : MachineId)
    (serial : Serial)
    (subject : Instance β)
    (own : subject.owner = id) :
    (existing subject).copies id serial = subject.copies serial :=
  if_pos own

/-- How many states of a machine with a number are in requests. -/
def requestCopies (id : MachineId) (serial : Serial) : List (Request β) → Nat
  | [] => 0
  | request :: more => request.copies id serial + requestCopies id serial more

/-- How many states of a machine with a number callers hold. -/
def Hands.copies (hands : Hands β) (id : MachineId) (serial : Serial) : Nat :=
  (hands.own id).countP fun subject => subject.serial = serial

/-- How many states with a number are on their way in a phase. -/
def Phase.copies (serial : Serial) : Phase β → Nat
  | .found transition | .due transition | .spare transition => transition.copies serial
  | .swapping _ previous next =>
      (previous.elim 0 fun previous => previous.copies serial) + next.copies serial
  | .entering next => next.copies serial
  | .leaving previous => previous.copies serial
  | .idle | .reentering _ _ _ | .lost _ => 0

/-- Whether a state with a number is parked, as a count. -/
def parkedCopies (parked : Std.TreeMap Serial (Instance β)) (serial : Serial) : Nat :=
  if serial ∈ parked then 1 else 0

/-- How many states with a number a machine has outside of its inbox. -/
def Machine.copies (machine : Machine β D) (serial : Serial) : Nat :=
  (machine.current.elim 0 fun subject => subject.copies serial) +
    (machine.pending.elim 0 fun transition => transition.copies serial) +
    parkedCopies machine.parked serial

@[simp] theorem requestCopies_nil (id : MachineId) (serial : Serial) :
    requestCopies id serial ([] : List (Request β)) = 0 := rfl

@[simp] theorem requestCopies_cons
    (id : MachineId)
    (serial : Serial)
    (request : Request β)
    (more : List (Request β)) :
    requestCopies id serial (request :: more) =
      request.copies id serial + requestCopies id serial more := rfl

@[simp] theorem requestCopies_append
    (id : MachineId)
    (serial : Serial)
    (first second : List (Request β)) :
    requestCopies id serial (first ++ second) =
      requestCopies id serial first + requestCopies id serial second := by
  induction first with
  | nil => simp
  | cons request more inductionHypothesis => simp [inductionHypothesis, Nat.add_assoc]

theorem parkedCopies_insert
    (parked : Std.TreeMap Serial (Instance β))
    (subject : Instance β)
    (serial : Serial) :
    parkedCopies (parked.insert subject.serial subject) serial =
      if subject.serial = serial then 1 else parkedCopies parked serial := by
  rw [parkedCopies, parkedCopies]
  by_cases same : subject.serial = serial
  · subst same
    simp
  · have apart : compare subject.serial serial ≠ .eq := fun equal =>
      same (Std.LawfulEqCmp.eq_of_compare equal)
    simp [same, apart]

/-! ## Maps -/

section Maps

variable {κ ν : Type} [Ord κ] [Std.TransOrd κ] [Std.LawfulEqOrd κ]

/-- To take away what is not there changes nothing. -/
theorem toList_erase_of_none
    (map : Std.TreeMap κ ν)
    (key : κ)
    (missing : map[key]? = none) :
    (map.erase key).toList = map.toList := by
  refine Std.TreeMap.Equiv.toList_eq (.of_forall_constGet?_eq fun other => ?_)
  rw [Std.TreeMap.getElem?_erase]
  split
  next same =>
    cases Std.LawfulEqCmp.eq_of_compare same
    exact missing.symm
  next => rfl

/-- What a map has for a key does not matter when it is taken away. -/
theorem toList_erase_insert (map : Std.TreeMap κ ν) (key : κ) (value : ν) :
    ((map.insert key value).erase key).toList = (map.erase key).toList := by
  refine Std.TreeMap.Equiv.toList_eq (.of_forall_constGet?_eq fun other => ?_)
  rw [Std.TreeMap.getElem?_erase, Std.TreeMap.getElem?_erase, Std.TreeMap.getElem?_insert]
  split <;> rfl

variable [DecidableEq κ]

/-- An entry of a map can be told apart from all others. -/
theorem toList_perm_erase
    (map : Std.TreeMap κ ν)
    (key : κ)
    (value : ν)
    (held : map[key]? = some value) :
    map.toList.Perm ((key, value) :: (map.erase key).toList) := by
  have restored : map.Equiv ((map.erase key).insert key value) := by
    refine .of_forall_constGet?_eq fun other => ?_
    rw [Std.TreeMap.getElem?_insert, Std.TreeMap.getElem?_erase]
    split
    next same =>
      cases Std.LawfulEqCmp.eq_of_compare same
      exact held
    next => rfl
  have others : (map.erase key).toList.filter (fun entry => ¬ key == entry.1) =
      (map.erase key).toList := by
    refine List.filter_eq_self.mpr ?_
    rintro ⟨other, found⟩ member
    have present := Std.TreeMap.mem_toList_iff_getElem?_eq_some.mp member
    rw [Std.TreeMap.getElem?_erase] at present
    simp only [decide_eq_true_eq, beq_iff_eq]
    rintro rfl
    simp at present
  have inserted : ((map.erase key).insert key value).toList.Perm
      ((key, value) :: (map.erase key).toList.filter (fun entry => ¬ key == entry.1)) :=
    Std.TreeMap.toList_insert_perm
  rw [others] at inserted
  rw [restored.toList_eq]
  exact inserted

/-- The entry that is put into a map can be told apart from all others. -/
theorem toList_perm_insert (map : Std.TreeMap κ ν) (key : κ) (value : ν) :
    (map.insert key value).toList.Perm ((key, value) :: (map.erase key).toList) := by
  rw [← toList_erase_insert map key value]
  exact toList_perm_erase _ key value Std.TreeMap.getElem?_insert_self

end Maps

/-! ## Hands -/

namespace Hands

theorem copies_eq_countP (hands : Hands β) (id : MachineId) (serial : Serial) :
    hands.copies id serial =
      hands.toList.countP fun entry => entry.2.owner = id ∧ entry.2.serial = serial := by
  simp only [copies, own, List.countP_map, List.countP_filter, Function.comp_def]
  congr
  funext entry
  simp [Bool.and_comm]

/-- A state that leaves the hands is counted there no more. -/
theorem copies_of_held
    (hands : Hands β)
    (slot : Slot)
    (subject : Instance β)
    (held : hands[slot]? = some subject)
    (id : MachineId)
    (serial : Serial) :
    hands.copies id serial =
      (Request.existing subject).copies id serial + Hands.copies (hands.erase slot) id serial := by
  rw [copies_eq_countP, copies_eq_countP, (toList_perm_erase hands slot subject held).countP_eq,
    List.countP_cons, Request.copies, Instance.copies]
  by_cases own : subject.owner = id <;> by_cases same : subject.serial = serial <;>
    simp [own, same, Nat.add_comm]

theorem copies_congr
    (first second : Hands β)
    (same : first.toList = second.toList)
    (id : MachineId)
    (serial : Serial) :
    first.copies id serial = second.copies id serial := by
  rw [copies, copies, own, own, same]

/-- To empty a slot does not bring a state into the hands. -/
theorem copies_erase_le
    (hands : Hands β)
    (slot : Slot)
    (id : MachineId)
    (serial : Serial) :
    Hands.copies (hands.erase slot) id serial ≤ hands.copies id serial := by
  cases held : hands[slot]? with
  | none =>
      have same := toList_erase_of_none hands slot held
      exact Nat.le_of_eq (copies_congr _ _ same id serial)
  | some subject =>
      have split := hands.copies_of_held slot subject held id serial
      omega

/-- What a slot holds does not matter when it is emptied. -/
theorem copies_erase_insert
    (hands : Hands β)
    (slot : Slot)
    (subject : Instance β)
    (id : MachineId)
    (serial : Serial) :
    Hands.copies ((hands.insert slot subject).erase slot) id serial =
      Hands.copies (hands.erase slot) id serial :=
  copies_congr _ _ (toList_erase_insert hands slot subject) id serial

/-- A state that comes into the hands may take the place of another. -/
theorem copies_insert_le
    (hands : Hands β)
    (slot : Slot)
    (subject : Instance β)
    (id : MachineId)
    (serial : Serial) :
    Hands.copies (hands.insert slot subject) id serial ≤
      (Request.existing subject).copies id serial + hands.copies id serial := by
  have split := copies_of_held (hands.insert slot subject) slot subject
    Std.TreeMap.getElem?_insert_self id serial
  have others := hands.copies_erase_insert slot subject id serial
  have fewer := hands.copies_erase_le slot id serial
  omega

/-- To pause a state in hand does not change how many there are. -/
theorem copies_insert_of_held
    (hands : Hands β)
    (slot : Slot)
    (subject : Instance β)
    (held : hands[slot]? = some subject)
    (paused : Bool)
    (id : MachineId)
    (serial : Serial) :
    Hands.copies (hands.insert slot { subject with paused := paused }) id serial =
      hands.copies id serial := by
  have before := hands.copies_of_held slot subject held id serial
  have after := copies_of_held (hands.insert slot { subject with paused := paused }) slot _
    Std.TreeMap.getElem?_insert_self id serial
  rw [copies_erase_insert] at after
  exact after.trans before.symm

theorem copies_pause
    (hands : Hands β)
    (slot : Slot)
    (paused : Bool)
    (id : MachineId)
    (serial : Serial) :
    (hands.pause slot paused).copies id serial = hands.copies id serial := by
  unfold pause
  split
  next => rfl
  next subject held => exact hands.copies_insert_of_held slot subject held paused id serial

/-- Claiming destinations moves states from the hands into requests. -/
theorem copies_claim
    (destinations : List Destination)
    (hands : Hands β)
    (id : MachineId)
    (serial : Serial) :
    requestCopies id serial (hands.claim destinations).1 +
        (hands.claim destinations).2.copies id serial =
      hands.copies id serial := by
  induction destinations generalizing hands with
  | nil => simp [claim]
  | cons destination more inductionHypothesis =>
      cases destination with
      | fresh kind =>
          simp only [claim, requestCopies_cons, Request.copies]
          have rest := inductionHypothesis hands
          omega
      | held slot =>
          cases held : hands[slot]? with
          | none =>
              simp only [claim, held]
              exact inductionHypothesis hands
          | some subject =>
              have split := hands.copies_of_held slot subject held id serial
              have rest := inductionHypothesis (hands.erase slot)
              simp only [claim, held, requestCopies_cons]
              omega

end Hands
/-! ## Effects on places -/

namespace Machine

/-- Whether a machine has given a number, as a count. -/
def given (machine : Machine β D) (serial : Serial) : Nat :=
  if 1 ≤ serial.number ∧ serial.number ≤ machine.made then 1 else 0

theorem given_le_one (machine : Machine β D) (serial : Serial) : machine.given serial ≤ 1 := by
  unfold given
  split
  · exact Nat.le_refl 1
  · exact Nat.zero_le 1

/-- Whether a machine is this one and has given a number, as a count. -/
def givenBy (machine : Machine β D) (id : MachineId) (serial : Serial) : Nat :=
  if machine.id = id then machine.given serial else 0

/-- Every parked state is found under its own number. -/
def Keyed (machine : Machine β D) : Prop :=
  ∀ (serial : Serial) (subject : Instance β),
    machine.parked[serial]? = some subject → subject.serial = serial

theorem copies_of_current
    (machine : Machine β D)
    (subject : Instance β)
    (present : machine.current = some subject)
    (serial : Serial) :
    machine.copies serial =
      subject.copies serial + { machine with current := none }.copies serial := by
  simp only [copies, present, Option.elim_some, Option.elim_none]
  omega

theorem copies_of_pending
    (machine : Machine β D)
    (transition : Transition β)
    (waiting : machine.pending = some transition)
    (serial : Serial) :
    machine.copies serial =
      transition.copies serial + { machine with pending := none }.copies serial := by
  simp only [copies, waiting, Option.elim_some, Option.elim_none]
  omega

/-- A parked state can be told apart from all others. -/
theorem copies_of_parked
    (machine : Machine β D)
    (keyed : machine.Keyed)
    (key : Serial)
    (subject : Instance β)
    (parked : machine.parked[key]? = some subject)
    (serial : Serial) :
    machine.copies serial =
      subject.copies serial +
        { machine with parked := machine.parked.erase key }.copies serial := by
  have own : subject.serial = key := keyed key subject parked
  have present : key ∈ machine.parked := by
    rw [Std.TreeMap.mem_iff_isSome_getElem?, parked]
    rfl
  have split : parkedCopies machine.parked serial =
      subject.copies serial + parkedCopies (machine.parked.erase key) serial := by
    rw [parkedCopies, parkedCopies, Instance.copies, own]
    by_cases same : key = serial
    · subst same
      simp [present]
    · have apart : compare key serial ≠ .eq := fun equal =>
        same (Std.LawfulEqCmp.eq_of_compare equal)
      simp [same, apart]
  simp only [copies, split]
  omega

theorem copies_insert_le
    (machine : Machine β D)
    (subject : Instance β)
    (serial : Serial) :
    { machine with parked := machine.parked.insert subject.serial subject }.copies serial ≤
      subject.copies serial + machine.copies serial := by
  have split := parkedCopies_insert machine.parked subject serial
  by_cases same : subject.serial = serial
  · rw [if_pos same] at split
    simp only [copies, Instance.copies, if_pos same, split]
    omega
  · rw [if_neg same] at split
    simp only [copies, split]
    omega

/-- The transition back to a state that was pushed leads to this state. -/
theorem retrieve_serial
    {machine rest : Machine β D}
    {serial : Serial}
    {below : List Serial}
    {transition : Transition β}
    (keyed : machine.Keyed)
    (retrieved : { machine with stack := below }.retrieve serial = some (transition, rest)) :
    transition.serial = serial := by
  obtain ⟨found, parked, rfl, -⟩ | ⟨-, _, _, _, rfl, -⟩ | ⟨-, -, -, same, -⟩ :=
    retrieve_cases retrieved
  · exact keyed serial found parked
  · rfl
  · exact same

/-- The transition back to a state takes it from its place. -/
theorem copies_retrieve
    {machine rest : Machine β D}
    {key : Serial}
    {transition : Transition β}
    (keyed : machine.Keyed)
    (retrieved : machine.retrieve key = some (transition, rest))
    (serial : Serial) :
    machine.copies serial = transition.copies serial + rest.copies serial := by
  obtain ⟨found, parked, rfl, rfl⟩ | ⟨-, subject, -, -, rfl, rfl⟩ | ⟨-, -, waiting, -, rfl⟩ :=
    retrieve_cases retrieved
  · exact machine.copies_of_parked keyed key found parked serial
  · simp [Transition.copies]
  · exact machine.copies_of_pending transition waiting serial

end Machine

namespace Run

/-- How many states of a machine with a number wait in the inbox or are in hands. -/
def outside (run : Run β D N) (id : MachineId) (serial : Serial) : Nat :=
  requestCopies id serial run.machine.inbox + run.hands.copies id serial

/-- Whatever a hook asks for moves from the hands to the inbox. -/
theorem outside_reacted
    (run : Run β D N)
    (conduct : Conduct β D N)
    (hook : Hook)
    (subject : Instance β)
    (id : MachineId)
    (serial : Serial) :
    (run.reacted conduct hook subject).outside id serial = run.outside id serial := by
  have claimed := run.hands.copies_claim (run.reaction conduct hook subject).requests id serial
  simp only [outside, reacted, asked, requestCopies_append]
  omega

theorem outside_hooked
    (run : Run β D N)
    (conduct : Conduct β D N)
    (hook : Hook)
    (subject : Instance β)
    (id : MachineId)
    (serial : Serial) :
    (run.hooked conduct hook subject).outside id serial = run.outside id serial :=
  run.outside_reacted conduct hook subject id serial

theorem outside_released
    (run : Run β D N)
    (subject : Instance β)
    (id : MachineId)
    (serial : Serial) :
    (run.released subject).outside id serial = run.outside id serial := by
  simp only [outside, released_machine, released_hands]

/-- A request that is taken out of the hands is counted there no more. -/
theorem outside_take
    (run : Run β D N)
    (destination : Destination)
    (request : Request β)
    (taken : (run.take destination).1 = some request)
    (id : MachineId)
    (serial : Serial) :
    run.outside id serial =
      request.copies id serial + (run.take destination).2.outside id serial := by
  cases destination with
  | fresh kind =>
      cases taken
      exact (Nat.zero_add _).symm
  | held slot =>
      unfold take at taken ⊢
      dsimp only at taken ⊢
      split at taken
      next => nomatch taken
      next subject held =>
        cases taken
        have split := run.hands.copies_of_held slot subject held id serial
        simp only [outside]
        omega

/-- A state that is let go gets into one place of the machine at most. -/
theorem copies_released_le
    (run : Run β D N)
    (subject : Instance β)
    (serial : Serial) :
    (run.released subject).machine.copies serial ≤
      subject.copies serial + run.machine.copies serial := by
  rw [released_machine]
  split
  · exact run.machine.copies_insert_le subject serial
  · exact Nat.le_add_left _ _

/-- A state that the stack refers to is still in the machine after another one is let go. -/
theorem copies_released_pos
    (run : Run β D N)
    (subject : Instance β)
    (serial : Serial)
    (pushed : serial ∈ run.machine.stack)
    (positive : 1 ≤ subject.copies serial + run.machine.copies serial) :
    1 ≤ (run.released subject).machine.copies serial := by
  rw [released_machine]
  have split := parkedCopies_insert run.machine.parked subject serial
  by_cases same : subject.serial = serial
  · rw [if_pos same] at split
    rw [if_pos (same ▸ pushed)]
    simp only [Machine.copies, split]
    omega
  · rw [if_neg same] at split
    rw [Instance.copies, if_neg same, Nat.zero_add] at positive
    split
    · simpa only [Machine.copies, split] using positive
    · exact positive

/-- A new state has a number that was not given before. -/
theorem copies_newborn
    (run : Run β D N)
    (kind : Kind)
    (behavior : β)
    (serial : Serial) :
    (run.newborn kind behavior).copies serial + run.machine.given serial =
      (run.counted kind).machine.given serial := by
  obtain ⟨number⟩ := serial
  by_cases fresh : run.machine.made + 1 = number
  · subst fresh
    simp [Instance.copies, newborn, Machine.given, counted]
  · have same : 1 ≤ number ∧ number ≤ run.machine.made + 1 ↔
        1 ≤ number ∧ number ≤ run.machine.made := by omega
    simp [Instance.copies, newborn, Machine.given, counted, fresh, same]

/-- A new state has a number that was not given before by any machine. -/
theorem copies_newborn_request
    (run : Run β D N)
    (kind : Kind)
    (behavior : β)
    (id : MachineId)
    (serial : Serial) :
    (Request.existing (run.newborn kind behavior)).copies id serial +
        run.machine.givenBy id serial =
      (run.counted kind).machine.givenBy id serial := by
  have fresh := run.copies_newborn kind behavior serial
  by_cases own : run.machine.id = id
  · have counted : (run.counted kind).machine.id = id := own
    have newborn : (run.newborn kind behavior).owner = id := own
    rw [Machine.givenBy, if_pos own, Machine.givenBy, if_pos counted,
      Request.copies_own id serial _ newborn]
    exact fresh
  · have counted : (run.counted kind).machine.id ≠ id := own
    have newborn : (run.newborn kind behavior).owner ≠ id := own
    rw [Machine.givenBy, if_neg own, Machine.givenBy, if_neg counted, Request.copies,
      if_neg newborn]

end Run

/-! ## One place -/

namespace Stage

/-- How many states of the machine with a number can be entered without another request. -/
def inside (stage : Stage β D N) (serial : Serial) : Nat :=
  stage.phase.copies serial + stage.run.machine.copies serial

/-- How many places the states of the machine with a number are in. -/
def copies (stage : Stage β D N) (serial : Serial) : Nat :=
  stage.inside serial + requestCopies stage.run.machine.id serial stage.batch +
    stage.run.outside stage.run.machine.id serial

variable {phase later : Phase β} {batch rest : List (Request β)} {run after : Run β D N}

theorem inside_pause (paused : Bool) (serial : Serial) :
    inside ⟨phase, batch, run.withCurrent
        (run.machine.current.map fun subject => { subject with paused := paused })⟩ serial =
      inside ⟨phase, batch, run⟩ serial := by
  simp only [inside, Machine.copies, Run.withCurrent, Run.mapMachine_machine]
  cases run.machine.current <;> rfl

/-- The transition that was found is pending. -/
theorem inside_defer
    (transition : Transition β)
    (free : run.machine.pending = none)
    (serial : Serial) :
    inside ⟨.idle, batch, run.mapMachine fun machine =>
        { machine with pending := some transition }⟩ serial =
      inside ⟨.found transition, batch, run⟩ serial := by
  simp only [inside, Phase.copies, Machine.copies, Run.mapMachine_machine, free,
    Option.elim_some, Option.elim_none]
  omega

/-- The new transition is pending, and the one before it is on its way out. -/
theorem inside_supersede
    (transition previous : Transition β)
    (occupied : run.machine.pending = some previous)
    (serial : Serial) :
    inside ⟨.spare previous, batch, run.mapMachine fun machine =>
        { machine with pending := some transition }⟩ serial =
      inside ⟨.found transition, batch, run⟩ serial := by
  simp only [inside, Phase.copies, Machine.copies, Run.mapMachine_machine, occupied,
    Option.elim_some]
  omega

/-- The transition that was pending is in the call. -/
theorem inside_takePending
    (transition : Transition β)
    (occupied : run.machine.pending = some transition)
    (serial : Serial)
    (counted : later.copies serial = transition.copies serial) :
    inside ⟨later, batch, run.mapMachine fun machine => { machine with pending := none }⟩ serial =
      inside ⟨.idle, batch, run⟩ serial := by
  simp only [inside, counted]
  simp only [Phase.copies, Machine.copies, Run.mapMachine_machine, occupied, Option.elim_some,
    Option.elim_none]
  omega

theorem inside_hooked
    (conduct : Conduct β D N)
    (hook : Hook)
    (subject : Instance β)
    (present : run.machine.current = some subject)
    (serial : Serial) :
    inside ⟨phase, batch, run.hooked conduct hook subject⟩ serial =
      inside ⟨phase, batch, run⟩ serial := by
  simp only [inside, Machine.copies, Run.hooked, Run.withCurrent, Run.mapMachine_machine,
    Run.reacted, present, Option.elim_some]
  rfl

/-- The state that has exited is in the call. -/
theorem inside_exited
    (conduct : Conduct β D N)
    (subject : Instance β)
    (present : run.machine.current = some subject)
    (serial : Serial)
    (counted : later.copies serial = subject.copies serial + phase.copies serial) :
    inside ⟨later, batch, (run.withCurrent none).reacted conduct .exit subject⟩ serial =
      inside ⟨phase, batch, run⟩ serial := by
  simp only [inside, counted, Machine.copies, Run.withCurrent, Run.mapMachine_machine, Run.reacted,
    present, Option.elim_some, Option.elim_none]
  omega

/-- The state that was to be entered is current. -/
theorem inside_enter
    (conduct : Conduct β D N)
    (next : Instance β)
    (absent : run.machine.current = none)
    (serial : Serial) :
    inside ⟨.idle, batch, (run.entering next).hooked conduct .enter next⟩ serial =
      inside ⟨.entering next, batch, run⟩ serial := by
  rw [inside_hooked conduct .enter next rfl]
  simp only [inside, Phase.copies, Machine.copies, Run.entering, Run.mapMachine_machine, absent,
    Option.elim_some, Option.elim_none]
  omega

/-- The state that was found has left its place and is on its way. -/
theorem inside_retrieve
    {key : Serial}
    {transition : Transition β}
    {rest : Machine β D}
    {below : List Serial}
    (keyed : run.machine.Keyed)
    (retrieved : { run.machine with stack := below }.retrieve key = some (transition, rest))
    (serial : Serial) :
    inside ⟨.found transition, batch, { run with machine := rest }⟩ serial =
      inside ⟨.idle, batch, run⟩ serial := by
  have keyedBelow : Machine.Keyed { run.machine with stack := below } := keyed
  have taken := Machine.copies_retrieve keyedBelow retrieved serial
  simp only [inside, Phase.copies, Nat.zero_add]
  exact taken.symm

theorem inside_released_le
    (subject : Instance β)
    (serial : Serial)
    (counted : phase.copies serial = subject.copies serial + later.copies serial) :
    inside ⟨later, batch, run.released subject⟩ serial ≤ inside ⟨phase, batch, run⟩ serial := by
  have fewer := run.copies_released_le subject serial
  simp only [inside, counted]
  omega

/-- A state that is let go stays in the machine if the stack refers to it. -/
theorem inside_released_pos
    (subject : Instance β)
    (serial : Serial)
    (counted : phase.copies serial = subject.copies serial + later.copies serial)
    (pushed : serial ∈ run.machine.stack)
    (positive : 1 ≤ inside ⟨phase, batch, run⟩ serial) :
    1 ≤ inside ⟨later, batch, run.released subject⟩ serial := by
  have kept := run.copies_released_pos subject serial pushed
  simp only [inside, counted] at positive ⊢
  omega

/-- What a call holds when it ends is not in any place any more. -/
theorem copies_end_le (serial : Serial) :
    copies ⟨.idle, [], run⟩ serial ≤ copies ⟨phase, batch, run⟩ serial := by
  simp only [copies, inside, Phase.copies, requestCopies_nil]
  omega

/-- Callers cannot put a state of the machine into a second place. -/
theorem copies_rearrange_le
    (hands : Hands β)
    (kept : (hands.own run.machine.id).Subperm (run.hands.own run.machine.id))
    (serial : Serial) :
    copies ⟨phase, batch, { run with hands := hands }⟩ serial ≤
      copies ⟨phase, batch, run⟩ serial :=
  Nat.add_le_add_left (Nat.add_le_add_left (kept.countP_le _) _) _

end Stage

/-! ## Moves of states -/

namespace Stage

/-- How many states of a machine with a number are in requests or in hands. -/
def loose (stage : Stage β D N) (id : MachineId) (serial : Serial) : Nat :=
  requestCopies id serial stage.batch + stage.run.outside id serial

theorem copies_eq (stage : Stage β D N) (serial : Serial) :
    stage.copies serial = stage.inside serial + stage.loose stage.run.machine.id serial :=
  Nat.add_assoc _ _ _

/-- How the states of a machine with a number may move. -/
structure Moves (before after : Stage β D N) (id : MachineId) (serial : Serial) : Prop where
  /-- States get into requests and hands only when they are made, and into the machine only when
  they are made or out of requests and hands. -/
  arrives :
    ∃ arriving,
      after.loose id serial + arriving + before.run.machine.givenBy id serial ≤
        before.loose id serial + after.run.machine.givenBy id serial ∧
      (before.run.machine.Keyed → before.run.machine.id = id →
        after.inside serial ≤ before.inside serial + arriving)
  /-- States get out of the machine only if the stack does not refer to them. -/
  stays :
    before.run.machine.Keyed → serial ∈ after.run.machine.stack →
      1 ≤ before.inside serial → 1 ≤ after.inside serial

variable {before after : Stage β D N} {id : MachineId} {serial : Serial}

/-- Only requests and states in hands move. -/
theorem Moves.of_inside_eq
    (sameGiven : after.run.machine.givenBy id serial = before.run.machine.givenBy id serial)
    (sameInside : after.inside serial = before.inside serial)
    (fewer : after.loose id serial ≤ before.loose id serial) :
    before.Moves after id serial :=
  ⟨⟨0, by omega, fun _ _ => Nat.le_of_eq sameInside⟩, fun _ _ present => sameInside ▸ present⟩

/-- Only states in the machine move. -/
theorem Moves.of_loose_eq
    (sameGiven : after.run.machine.givenBy id serial = before.run.machine.givenBy id serial)
    (sameLoose : after.loose id serial = before.loose id serial)
    (sameInside : before.run.machine.Keyed → after.inside serial = before.inside serial) :
    before.Moves after id serial :=
  ⟨⟨0, by omega, fun keyed _ => Nat.le_of_eq (sameInside keyed)⟩,
    fun keyed _ present => sameInside keyed ▸ present⟩

variable {phase later : Phase β} {batch : List (Request β)} {run : Run β D N}

/-- A call of a hook of the current state. -/
theorem Moves.hooked
    (conduct : Conduct β D N)
    (hook : Hook)
    (subject : Instance β)
    (present : run.machine.current = some subject)
    (counted : later.copies serial = phase.copies serial) :
    Moves ⟨phase, batch, run⟩ ⟨later, batch, run.hooked conduct hook subject⟩ id serial := by
  refine .of_loose_eq rfl
    (congrArg (_ + ·) (run.outside_hooked conduct hook subject id serial)) fun _ => ?_
  rw [inside_hooked conduct hook subject present, inside, inside, counted]

/-- The exit of the current state. -/
theorem Moves.exited
    (conduct : Conduct β D N)
    (subject : Instance β)
    (present : run.machine.current = some subject)
    (counted : later.copies serial = subject.copies serial + phase.copies serial) :
    Moves ⟨phase, batch, run⟩
      ⟨later, batch, (run.withCurrent none).reacted conduct .exit subject⟩ id serial :=
  .of_loose_eq rfl (congrArg (_ + ·) (Run.outside_reacted _ conduct _ subject id serial))
    fun _ => inside_exited conduct subject present serial counted

/-- A state that is parked or dropped. -/
theorem Moves.released
    (subject : Instance β)
    (counted : phase.copies serial = subject.copies serial + later.copies serial) :
    Moves ⟨phase, batch, run⟩ ⟨later, batch, run.released subject⟩ id serial := by
  refine ⟨⟨0, ?_, fun _ _ => inside_released_le subject serial counted⟩, fun _ pushed present => ?_⟩
  · simp only [loose, Run.outside_released, Run.released_machine]
    exact Nat.le_refl _
  · rw [Run.released_machine] at pushed
    exact inside_released_pos subject serial counted pushed present

/-- A state that is made for a request. -/
theorem Moves.made (kind : Kind) (behavior : β) :
    Moves ⟨.idle, .fresh kind :: batch, run⟩
      ⟨.found (.replace (run.newborn kind behavior)), batch, run.counted kind⟩ id serial := by
  have fresh := run.copies_newborn_request kind behavior id serial
  refine ⟨⟨(Request.existing (run.newborn kind behavior)).copies id serial, ?_, fun _ own => ?_⟩,
    fun _ _ present => Nat.le_trans present (Nat.add_le_add_right (Nat.zero_le _) _)⟩
  · change requestCopies id serial batch + run.outside id serial + _ +
        run.machine.givenBy id serial ≤
      requestCopies id serial (.fresh kind :: batch) + run.outside id serial +
        (run.counted kind).machine.givenBy id serial
    simp only [requestCopies_cons, Request.copies] at fresh ⊢
    omega
  · rw [Request.copies_own id serial (run.newborn kind behavior) own]
    change (run.newborn kind behavior).copies serial + run.machine.copies serial ≤
      0 + run.machine.copies serial + (run.newborn kind behavior).copies serial
    omega

/-- A state of the machine that a request brings into it. -/
theorem Moves.accepted (subject : Instance β) (own : subject.owner = run.machine.id) :
    Moves ⟨.idle, .existing subject :: batch, run⟩ ⟨.found (.replace subject), batch, run⟩
      id serial := by
  refine ⟨⟨(Request.existing subject).copies id serial, ?_, fun _ here => ?_⟩,
    fun _ _ present => Nat.le_trans present (Nat.add_le_add_right (Nat.zero_le _) _)⟩
  · simp only [loose, requestCopies_cons]
    omega
  · rw [Request.copies_own id serial subject (own.trans here)]
    simp only [inside, Phase.copies, Transition.copies]
    omega

/-- A state that is made for a caller. -/
theorem Moves.created (kind : Kind) (behavior : β) (slot : Slot) :
    Moves ⟨phase, batch, run⟩
      ⟨phase, batch, { run.counted kind with
        hands := run.hands.insert slot (run.newborn kind behavior) }⟩ id serial := by
  have fresh := run.copies_newborn_request kind behavior id serial
  have held := run.hands.copies_insert_le slot (run.newborn kind behavior) id serial
  refine ⟨⟨0, ?_, fun _ _ => Nat.le_refl _⟩, fun _ _ present => present⟩
  change requestCopies id serial batch + (requestCopies id serial run.machine.inbox +
      Hands.copies (run.hands.insert slot (run.newborn kind behavior)) id serial) + 0 +
        run.machine.givenBy id serial ≤
    requestCopies id serial batch + run.outside id serial +
      (run.counted kind).machine.givenBy id serial
  simp only [Run.outside]
  omega

end Stage

/-- No step moves states in any other way. -/
theorem Step.moves
    {conduct : Conduct β D N}
    {deeds : List Deed}
    {before after : Stage β D N}
    (step : Step conduct deeds before after)
    (id : MachineId)
    (serial : Serial) :
    before.Moves after id serial := by
  cases step with
  | @pause phase batch run paused =>
      exact .of_loose_eq rfl rfl fun _ => Stage.inside_pause paused serial
  | @pauseHeld phase batch run slot paused =>
      refine .of_inside_eq rfl rfl ?_
      simp only [Stage.loose, Run.outside, Hands.copies_pause, Nat.le_refl]
  | @take phase batch run destination request taken =>
      have split := run.outside_take destination request taken id serial
      refine .of_inside_eq ?_ ?_ ?_
      · rw [Run.take_machine]
      · rw [Stage.inside, Run.take_machine, Stage.inside]
      · simp only [Stage.loose, requestCopies_cons]
        omega
  | enqueue request =>
      refine .of_inside_eq rfl rfl ?_
      simp only [Stage.loose, Run.outside, Run.enqueue, Run.mapMachine, requestCopies_cons,
        requestCopies_append, requestCopies_nil]
      omega
  | lose request =>
      refine .of_inside_eq rfl rfl ?_
      simp only [Stage.loose, requestCopies_cons]
      omega
  | draw =>
      refine .of_inside_eq rfl rfl ?_
      simp only [Stage.loose, Run.outside, Run.mapMachine, Kernel.emptied, requestCopies_append,
        requestCopies_nil]
      omega
  | next request more waiting =>
      refine .of_inside_eq rfl rfl ?_
      simp only [Stage.loose, Run.outside, Run.mapMachine, waiting, requestCopies_cons]
      omega
  | clear =>
      refine .of_inside_eq rfl rfl ?_
      simp only [Stage.loose, Run.outside, Run.mapMachine, Kernel.emptied, requestCopies_nil]
      omega
  | giveBack requests =>
      refine .of_inside_eq rfl rfl ?_
      simp only [Stage.loose, Run.outside, Run.mapMachine, requestCopies_append]
      omega
  | make kind behavior concrete => exact .made kind behavior
  | accept subject own => exact .accepted subject own
  | create kind behavior slot => exact .created kind behavior slot
  | defer transition patient free =>
      exact .of_loose_eq rfl rfl fun _ => Stage.inside_defer transition free serial
  | supersede transition previous patient occupied =>
      exact .of_loose_eq rfl rfl fun _ => Stage.inside_supersede transition previous occupied serial
  | letGo subject => exact .released subject rfl
  | resume transition occupied | abandon transition occupied =>
      exact .of_loose_eq rfl rfl fun _ => Stage.inside_takePending transition occupied serial rfl
  | @pop batch run key below transition rest top retrieved =>
      have taken (keyed : run.machine.Keyed) :
          Stage.inside ⟨.found transition, batch, { run with machine := rest }⟩ serial =
            Stage.inside ⟨.idle, batch, run⟩ serial :=
        Stage.inside_retrieve keyed retrieved serial
      obtain ⟨_, _, rfl⟩ := Machine.retrieve_frame retrieved
      exact .of_loose_eq rfl rfl taken
  | tick subject _ present | restart subject present | exitInPlace _ subject present
  | enterAgain _ subject present => exact .hooked conduct _ subject present rfl
  | exit subject _ present | leave subject present => exact .exited conduct subject present rfl
  | vacant next absent =>
      exact .of_loose_eq rfl rfl fun _ => congrArg (· + _) (Nat.zero_add _)
  | release source previous next =>
      exact .released previous (congrArg _ (Nat.zero_add _).symm)
  | record source next =>
      exact .of_loose_eq rfl rfl fun _ => congrArg (· + _) (Nat.zero_add _).symm
  | @enter batch run next absent =>
      exact .of_loose_eq rfl
        (congrArg (_ + ·) ((run.entering next).outside_hooked conduct .enter next id serial))
        fun _ => Stage.inside_enter conduct next absent serial
  | _ => exact .of_inside_eq rfl rfl (Nat.le_refl _)

/-- No step puts a state into a second place, or gives a number again.  A state that is missing
stays missing. -/
theorem Step.once
    {conduct : Conduct β D N}
    {deeds : List Deed}
    {before after : Stage β D N}
    (step : Step conduct deeds before after)
    (keyed : before.run.machine.Keyed)
    (serial : Serial)
    (missing : Nat)
    (once : before.copies serial + missing ≤ before.run.machine.given serial) :
    after.copies serial + missing ≤ after.run.machine.given serial := by
  have sameId := step.fixed.1
  obtain ⟨arriving, fewer, inside⟩ := (step.moves before.run.machine.id serial).arrives
  have entered := inside keyed rfl
  rw [Machine.givenBy, if_pos rfl, Machine.givenBy, if_pos sameId] at fewer
  rw [Stage.copies_eq] at once ⊢
  rw [sameId]
  omega

/-- A state gets into requests or hands only when it is made. -/
theorem Step.loose_le
    {conduct : Conduct β D N}
    {deeds : List Deed}
    {before after : Stage β D N}
    (step : Step conduct deeds before after)
    (id : MachineId)
    (serial : Serial) :
    after.loose id serial + before.run.machine.givenBy id serial ≤
      before.loose id serial + after.run.machine.givenBy id serial := by
  obtain ⟨arriving, fewer, -⟩ := (step.moves id serial).arrives
  omega

end TickMachine
