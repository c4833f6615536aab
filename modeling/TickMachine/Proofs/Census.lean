import TickMachine.Proofs.Ledger
import TickMachine.Proofs.Ownership

/-!
# All states of a machine

A state can be in the reach of several machines: it is made by one machine, and it can wait in the
inbox of another, which will refuse it.  This module lists the states that a machine has, wherever
they are in it, and counts those with a given address.  An operation does not add to the states with
an address, in the machine and in hands together, except for a state that it makes.
-/

namespace TickMachine

variable {β D N : Type}

/-- The machine that made a state, and the number that it gave to it. -/
def Instance.address (subject : Instance β) : MachineId × Serial :=
  (subject.owner, subject.serial)

/-- The state in a request. -/
def Request.subject? : Request β → Option (Instance β)
  | .fresh _ => none
  | .existing subject => some subject

namespace Machine

/-- All states that a machine has: the current one, the pending one, the parked ones, and those in
requests that wait in its inbox. -/
def states (machine : Machine β D) : List (Instance β) :=
  machine.current.toList ++ (machine.pending.bind Transition.subject?).toList ++
    machine.parked.toList.map Prod.snd ++ machine.inbox.filterMap Request.subject?

/-- How many states with an address a machine has. -/
def tally (machine : Machine β D) (id : MachineId) (serial : Serial) : Nat :=
  (if machine.id = id then machine.copies serial else 0) + requestCopies id serial machine.inbox

end Machine

/-- How many states with an address there are at a stage. -/
def Stage.tally (stage : Stage β D N) (id : MachineId) (serial : Serial) : Nat :=
  (if stage.run.machine.id = id then stage.inside serial else 0) + stage.loose id serial

theorem Stage.tally_idle (run : Run β D N) (id : MachineId) (serial : Serial) :
    tally ⟨.idle, [], run⟩ id serial =
      run.machine.tally id serial + run.hands.copies id serial := by
  have inside : Stage.inside ⟨.idle, [], run⟩ serial = run.machine.copies serial := Nat.zero_add _
  simp only [tally, Machine.tally, inside, loose, requestCopies_nil, Run.outside]
  omega

/-- What a call holds when it ends is lost to the count. -/
theorem Stage.tally_end_le
    (stage : Stage β D N)
    (id : MachineId)
    (serial : Serial) :
    tally ⟨.idle, [], stage.run⟩ id serial ≤ stage.tally id serial := by
  have fewer : Stage.inside ⟨.idle, [], stage.run⟩ serial ≤ stage.inside serial :=
    Nat.add_le_add_right (Nat.zero_le _) _
  simp only [tally, loose, requestCopies_nil]
  split <;> omega

/-! ## Steps and operations -/

/-- A step does not add to the states with an address, except for a state that it makes. -/
theorem Step.tally_le
    {conduct : Conduct β D N}
    {deeds : List Deed}
    {before after : Stage β D N}
    (step : Step conduct deeds before after)
    (orderly : before.Orderly)
    (id : MachineId)
    (serial : Serial) :
    after.tally id serial + before.run.machine.givenBy id serial ≤
      before.tally id serial + after.run.machine.givenBy id serial := by
  by_cases own : before.run.machine.id = id
  · subst own
    have same := step.fixed.1
    -- What is missing from the states that were made is still missing.
    have once := orderly.once serial
    have missing := step.once orderly.keyed serial
      (before.run.machine.given serial - before.copies serial) (by omega)
    rw [Stage.copies_eq] at once missing
    rw [Stage.copies_eq] at missing
    simp only [Stage.tally, Machine.givenBy, same, if_true] at missing ⊢
    omega
  · have other : after.run.machine.id ≠ id := step.fixed.1 ▸ own
    have fewer := step.loose_le id serial
    rw [Machine.givenBy, if_neg own, Machine.givenBy, if_neg other] at fewer ⊢
    rw [Stage.tally, if_neg other, Stage.tally, if_neg own]
    omega

/-- Through a call, states are added to the count only as they are made. -/
theorem Steps.tally_le
    {conduct : Conduct β D N}
    {deeds : List Deed}
    {before after : Stage β D N}
    (steps : Steps conduct deeds before after)
    (orderly : before.Orderly)
    (id : MachineId)
    (serial : Serial) :
    after.tally id serial + before.run.machine.givenBy id serial ≤
      before.tally id serial + after.run.machine.givenBy id serial := by
  induction steps with
  | refl => exact Nat.le_refl _
  | tail earlier step inductionHypothesis =>
      have orderlyThen := Steps.invariant (fun _ _ step => step.orderly) earlier orderly
      have fewer := step.tally_le orderlyThen id serial
      omega

/-- However an operation ends, it has not added to the states with an address, in the machine and in
hands together, except for a state that it has made. -/
theorem Run.perform_tally_le
    (conduct : Conduct β D N)
    (run : Run β D N)
    (now : Instant)
    (operation : Operation β D)
    (orderly : Stage.Orderly ⟨.idle, [], run⟩)
    (id : MachineId)
    (serial : Serial) :
    let after := (run.perform conduct now operation).2
    after.machine.tally id serial + after.hands.copies id serial +
        run.machine.givenBy id serial ≤
      run.machine.tally id serial + run.hands.copies id serial +
        after.machine.givenBy id serial := by
  obtain ⟨phase, batch, steps⟩ := run.perform_anyhow conduct now operation
  have fewer := steps.tally_le (orderly.clock now) id serial
  have ended :=
    Stage.tally_end_le ⟨phase, batch, (run.perform conduct now operation).2⟩ id serial
  rw [Stage.tally_idle] at fewer ended
  dsimp only at fewer ended ⊢
  omega

/-! ## Counting lists -/

section Counting

variable (id : MachineId) (serial : Serial)

theorem Instance.count_address (subject : Instance β) :
    ([subject].map Instance.address).count (id, serial) =
      (Request.existing subject).copies id serial := by
  simp only [List.map_singleton, List.count_singleton, Instance.address, Request.copies,
    Instance.copies, beq_iff_eq, Prod.mk.injEq]
  by_cases own : subject.owner = id <;> by_cases same : subject.serial = serial <;> simp [own, same]

theorem count_requests (requests : List (Request β)) :
    ((requests.filterMap Request.subject?).map Instance.address).count (id, serial) =
      requestCopies id serial requests := by
  induction requests with
  | nil => rfl
  | cons request more inductionHypothesis =>
      cases request with
      | fresh kind =>
          rw [requestCopies_cons, Request.copies, Nat.zero_add]
          exact inductionHypothesis
      | existing subject =>
          rw [requestCopies_cons, ← subject.count_address id serial, ← inductionHypothesis,
            ← List.count_append, ← List.map_append]
          rfl

theorem Hands.count_address (hands : Hands β) :
    ((hands.toList.map Prod.snd).map Instance.address).count (id, serial) =
      hands.copies id serial := by
  rw [copies_eq_countP, List.map_map, List.count, List.countP_map]
  congr
  funext entry
  exact Bool.eq_iff_iff.mpr (by simp [Instance.address])

/-- A parked state can be found under its number only. -/
theorem count_parked
    {parked : Std.TreeMap Serial (Instance β)}
    {owner : MachineId}
    (keyed : ∀ (key : Serial) (subject : Instance β),
      parked[key]? = some subject → subject.serial = key)
    (owned : ∀ (key : Serial) (subject : Instance β),
      parked[key]? = some subject → subject.owner = owner) :
    ((parked.toList.map Prod.snd).map Instance.address).count (id, serial) =
      if owner = id then parkedCopies parked serial else 0 := by
  have other (entries : Std.TreeMap Serial (Instance β))
      (apart : ∀ (key : Serial) (subject : Instance β),
        entries[key]? = some subject → subject.address ≠ (id, serial)) :
      ((entries.toList.map Prod.snd).map Instance.address).count (id, serial) = 0 := by
    refine List.count_eq_zero.mpr fun member => ?_
    obtain ⟨subject, present, address⟩ := List.mem_map.mp member
    obtain ⟨⟨key, found⟩, listed, rfl⟩ := List.mem_map.mp present
    exact apart key found (Std.TreeMap.mem_toList_iff_getElem?_eq_some.mp listed) address
  by_cases own : owner = id
  · rw [if_pos own, parkedCopies]
    cases held : parked[serial]? with
    | none =>
        rw [if_neg (by rw [Std.TreeMap.mem_iff_isSome_getElem?, held]; exact Bool.false_ne_true)]
        refine other parked fun key subject present address => ?_
        have same : key = serial :=
          (keyed key subject present).symm.trans (congrArg Prod.snd address)
        rw [same, held] at present
        cases present
    | some subject =>
        have address : subject.address = (id, serial) :=
          congrArg₂ Prod.mk ((owned serial subject held).trans own) (keyed serial subject held)
        rw [if_pos (by rw [Std.TreeMap.mem_iff_isSome_getElem?, held]; rfl),
          (((toList_perm_erase parked serial subject held).map _).map _).count_eq, List.map_cons,
          List.map_cons, address, List.count_cons_self, other]
        intro key found present address
        have same : key = serial := by
          rw [Std.TreeMap.getElem?_erase] at present
          split at present
          · cases present
          · exact (keyed key found present).symm.trans (congrArg Prod.snd address)
        rw [same, Std.TreeMap.getElem?_erase_self] at present
        cases present
  · rw [if_neg own]
    exact other parked fun key subject present address =>
      own ((owned key subject present).symm.trans (congrArg Prod.fst address))

/-- The states that a machine has are counted where they are. -/
theorem Machine.count_states
    {batch : List (Request β)}
    {run : Run β D N}
    (keyed : run.machine.Keyed)
    (owned : Stage.Owned ⟨.idle, batch, run⟩) :
    (run.machine.states.map Instance.address).count (id, serial) = run.machine.tally id serial := by
  have single (subject : Instance β) (own : subject.owner = run.machine.id) :
      ([subject].map Instance.address).count (id, serial) =
        if run.machine.id = id then subject.copies serial else 0 := by
    rw [subject.count_address id serial, Request.copies, own]
  have current : (run.machine.current.toList.map Instance.address).count (id, serial) =
      if run.machine.id = id then
        run.machine.current.elim 0 fun subject => subject.copies serial
      else 0 := by
    cases present : run.machine.current with
    | none => exact (ite_self _).symm
    | some subject => exact single subject (owned.current subject present)
  have pending :
      ((run.machine.pending.bind Transition.subject?).toList.map Instance.address).count
          (id, serial) =
        if run.machine.id = id then
          run.machine.pending.elim 0 fun transition => transition.copies serial
        else 0 := by
    cases waiting : run.machine.pending with
    | none => exact (ite_self _).symm
    | some transition =>
        cases transition with
        | replace next =>
            exact single next (owned.pending _ next waiting List.mem_cons_self)
        | reenter kind number => exact (ite_self _).symm
  rw [states, List.map_append, List.map_append, List.map_append, List.count_append,
    List.count_append, List.count_append, current, pending, count_requests,
    count_parked id serial keyed owned.parked, tally, copies]
  split <;> rfl

end Counting

end TickMachine
