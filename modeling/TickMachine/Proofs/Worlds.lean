import Mathlib.Algebra.GroupWithZero.Nat
import Mathlib.Data.List.Nodup
import TickMachine.Proofs.Census
import TickMachine.World

/-!
# One number and one place

Machines are built and dropped, and callers pass states and handles around as they like.  Whatever
they do, and whatever hooks do, a machine gives the numbers from one upwards to the states that it
makes, in order, and each of these states is in one place at most: it is current, pending or parked
in its machine, or it waits in the inbox of some machine, or a caller holds it.
-/

namespace TickMachine

variable {β D N : Type}

/-- A machine that has just been made. -/
def Machine.IsNew (machine : Machine β D) (id : MachineId) : Prop :=
  ∃ config registry data, make id config registry data = .ok machine

/-- A builder makes machines in the same way. -/
theorem Machine.isNew_ofSteps
    {id : MachineId}
    {data : D}
    {steps : List (BuildStep β)}
    {machine : Machine β D}
    (made : ofSteps id data steps = .ok machine) :
    machine.IsNew id := by
  unfold ofSteps at made
  split at made
  · nomatch made
  · next builder taken =>
      unfold Builder.build at made
      split at made
      · nomatch made
      · exact ⟨builder.config, builder.registry, builder.data, made⟩

/-! ## What happens in a world -/

/-- What happened in a world, each entry with the number of the machine in which it happened. -/
abbrev Annals (β N : Type) := List (MachineId × Entry β N)

namespace Annals

/-- The entries about one machine. -/
def about (annals : Annals β N) (id : MachineId) : List (Entry β N) :=
  (annals.filter fun line => line.1 = id).map Prod.snd

/-- The entries of a call of a machine. -/
def ofCall (id : MachineId) (journal : Array (Entry β N)) : Annals β N :=
  journal.toList.map fun entry => (id, entry)

theorem about_append (first second : Annals β N) (id : MachineId) :
    about (first ++ second) id = about first id ++ about second id := by
  simp only [about, List.filter_append, List.map_append]

theorem about_ofCall_self (id : MachineId) (journal : Array (Entry β N)) :
    about (ofCall id journal) id = journal.toList := by
  simp [about, ofCall, List.filter_map, Function.comp_def]

theorem about_ofCall_other
    {id other : MachineId}
    (apart : id ≠ other)
    (journal : Array (Entry β N)) :
    about (ofCall id journal) other = [] := by
  simp [about, ofCall, List.filter_map, Function.comp_def, apart]

/-- The ledger of one machine. -/
def ledger (annals : Annals β N) (id : MachineId) : List LogEvent :=
  ledgerOf (annals.about id)

/-- What a call adds to the ledgers. -/
theorem ledger_ofCall (annals : Annals β N) (run : Run β D N) (id other : MachineId) :
    ledger (annals ++ ofCall id run.journal) other =
      annals.ledger other ++ if id = other then run.ledger else [] := by
  rw [ledger, about_append, ledgerOf, List.filterMap_append]
  split
  next same =>
    subst same
    rw [about_ofCall_self]
    rfl
  next apart =>
    rw [about_ofCall_other apart]
    rfl

end Annals

namespace World

/-- The worlds that come about, with what has happened in them.  As in the runs of one machine, an
owner changes nothing but the paused flag of a current state, by `Operation.pause`, and never
exchanges it for another state. -/
inductive Reachable (conduct : Conduct β D N) : Annals β N → World β D → Prop where
  /-- Nothing has been done yet. -/
  | empty : Reachable conduct [] .empty
  /-- A machine is built, perhaps in place of another one. -/
  | build {annals : Annals β N} {world after : World β D} (name : String)
      (make : MachineId → Except Rejection (Machine β D))
      (reached : Reachable conduct annals world)
      (fresh : ∀ id machine, make id = .ok machine → machine.IsNew id)
      (done : world.build name make = .ok after) :
      Reachable conduct annals after
  /-- A machine is dropped. -/
  | drop {annals : Annals β N} {world after : World β D} (name : String)
      (reached : Reachable conduct annals world)
      (done : world.drop name = .ok after) :
      Reachable conduct annals after
  /-- The owner of a machine does an operation, however it ends. -/
  | operate {annals : Annals β N} {world : World β D} {machine : Machine β D} (now : Instant)
      (name : String) (operation : Operation β D)
      (reached : Reachable conduct annals world)
      (found : world.machine? name = .ok machine) :
      Reachable conduct
        (annals ++ .ofCall machine.id (world.operate conduct now name operation).2.1)
        (world.operate conduct now name operation).2.2
  /-- Somebody takes a handle of a machine. -/
  | takeHandle {annals : Annals β N} {world after : World β D} (name handle : String)
      (reached : Reachable conduct annals world)
      (done : world.takeHandle name handle = .ok after) :
      Reachable conduct annals after
  /-- A request is posted through a handle, whether or not the machine is still there. -/
  | send {annals : Annals β N} {world : World β D} {id : MachineId} (now : Instant)
      (handle : String) (target : Destination)
      (reached : Reachable conduct annals world)
      (found : world.handle? handle = .ok id) :
      Reachable conduct (annals ++ .ofCall id (world.send conduct now handle target).2.1)
        (world.send conduct now handle target).2.2
  /-- A caller looks at a state in hand, and sets its paused flag or takes a handle from it. -/
  | inspect {annals : Annals β N} {world after : World β D} {subject : Instance β} (slot : Slot)
      (paused : Option Bool) (handle : Option String)
      (reached : Reachable conduct annals world)
      (done : world.inspect slot paused handle = .ok (subject, after)) :
      Reachable conduct annals after
  /-- Callers drop, move and pause states in their hands. -/
  | rearrange {annals : Annals β N} {world : World β D} (hands : Hands β)
      (reached : Reachable conduct annals world)
      (kept : ∀ id, (hands.own id).Subperm (world.hands.own id)) :
      Reachable conduct annals { world with hands := hands }

end World

/-! ## One machine -/

theorem count_serialsUpTo (count : Nat) (serial : Serial) :
    (serialsUpTo count).count serial =
      if 1 ≤ serial.number ∧ serial.number ≤ count then 1 else 0 := by
  induction count with
  | zero =>
      rw [if_neg (by omega)]
      rfl
  | succ count inductionHypothesis =>
      obtain ⟨number⟩ := serial
      rw [serialsUpTo_succ, List.count_append, inductionHypothesis, List.count_singleton]
      simp only [beq_iff_eq, Serial.mk.injEq]
      split <;> split <;> split <;> omega

namespace Stage

/-- A machine is in order, has states of its own only, and is as its ledger tells, which continues
an earlier one. -/
structure Kept (past : List LogEvent) (stage : Stage β D N) : Prop where
  orderly : stage.Orderly
  owned : stage.Owned
  recorded : stage.Recorded past

/-- Between two calls the states are in the machine or in hands. -/
theorem copies_idle (run : Run β D N) (serial : Serial) :
    copies ⟨.idle, [], run⟩ serial =
      run.machine.tally run.machine.id serial + run.hands.copies run.machine.id serial := by
  rw [← tally_idle, copies_eq, tally, if_pos rfl]

/-- The ledger tells how many states there may be with a number. -/
theorem Recorded.count_eq
    {past : List LogEvent}
    {stage : Stage β D N}
    (recorded : stage.Recorded past)
    (serial : Serial) :
    (numbersIn (past ++ stage.run.ledger)).count serial = stage.run.machine.given serial := by
  rw [recorded.numbered, count_serialsUpTo]
  rfl

namespace Kept

variable {past told : List LogEvent} {phase : Phase β} {batch : List (Request β)}
  {run after : Run β D N}

/-- When a call ends, what it held is lost.  The hands, the clock and the journal can be others
then, if they fit together with the machine. -/
theorem settle
    (kept : Kept past ⟨phase, batch, run⟩)
    (machine : after.machine = run.machine)
    (ledger : told ++ after.ledger = past ++ run.ledger)
    (once : ∀ serial, copies ⟨.idle, [], after⟩ serial ≤ run.machine.given serial) :
    Kept told ⟨.idle, [], after⟩ := by
  obtain ⟨_, hands, journal, now⟩ := after
  subst machine
  have ended := kept.orderly.end_call
  refine ⟨⟨ended.keyed, once, ended.wanted, ended.free, ended.again⟩,
    ⟨nofun, kept.owned.current, kept.owned.pending, kept.owned.parked⟩, ?_, ?_⟩
  · rw [ledger]
    exact kept.recorded.numbered
  · rw [ledger]
    exact kept.recorded.parking

theorem end_call (kept : Kept past ⟨phase, batch, run⟩) : Kept past ⟨.idle, [], run⟩ :=
  kept.settle rfl rfl kept.orderly.end_call.once

/-- What a machine has recorded of its states survives every operation, breakdowns included. -/
theorem persistent (conduct : Conduct β D N) (past : List LogEvent) :
    Persistent conduct (fun _ => True) (Kept past) where
  step _ _ step kept :=
    ⟨step.orderly kept.orderly, step.owned kept.owned, step.recorded kept.orderly kept.recorded⟩
  clock _ now kept := kept.settle rfl rfl (kept.orderly.clock now).once
  rearrange _ hands subset kept := kept.settle rfl rfl (kept.orderly.rearrange hands subset).once
  refused _ _ kept := kept.end_call
  broken _ _ _ _ _ _ kept := kept.end_call

end Kept
end Stage

/-- A machine by itself, between two calls. -/
def Machine.alone (machine : Machine β D) : Stage β D N :=
  ⟨.idle, [], ⟨machine, ∅, #[], .epoch⟩⟩

/-- A new machine has no states. -/
theorem Machine.IsNew.eq_idle
    {machine : Machine β D}
    {id : MachineId}
    (new : machine.IsNew id) :
    ∃ config registry data, machine = idle id config registry data := by
  obtain ⟨config, registry, data, made⟩ := new
  exact ⟨config, registry, data, eq_idle_of_make made⟩

theorem Machine.IsNew.tally_eq
    {machine : Machine β D}
    {id : MachineId}
    (new : machine.IsNew id)
    (other : MachineId)
    (serial : Serial) :
    machine.tally other serial = 0 := by
  obtain ⟨config, registry, data, rfl⟩ := new.eq_idle
  simp [tally, copies, idle, parkedCopies]

/-- A machine that was just built has recorded nothing, and has no states. -/
theorem Machine.IsNew.kept
    {machine : Machine β D}
    {id : MachineId}
    (new : machine.IsNew id) :
    Stage.Kept [] (machine.alone : Stage β D N) := by
  obtain ⟨config, registry, data, rfl⟩ := new.eq_idle
  refine ⟨orderly_idle id config registry data .epoch, ⟨nofun, nofun, nofun, ?_⟩, rfl, [], rfl, ?_⟩
  · intro serial subject parked
    rw [alone, idle, Std.TreeMap.getElem?_emptyc] at parked
    cases parked
  · intro serial
    simp [alone, idle]

/-- The slot in which an operation keeps a state that it makes for a caller. -/
def Operation.creates? : Operation β D → Option Slot
  | .create _ slot | .adopt _ _ slot => some slot
  | _ => none

/-- A caller who asks for a state gets one with the next number, or is refused, and no number is
used up. -/
theorem Run.perform_creates
    (conduct : Conduct β D N)
    (run : Run β D N)
    (now : Instant)
    {operation : Operation β D}
    {slot : Slot}
    (creates : operation.creates? = some slot) :
    ((run.perform conduct now operation).1 = .ok (.holding slot) ∧
      (run.perform conduct now operation).2.hands[slot]?.map Instance.address =
        some (run.machine.id, ⟨run.machine.made + 1⟩)) ∨
    (∃ cause, (run.perform conduct now operation).1 = .error cause) ∧
      (run.perform conduct now operation).2.machine = run.machine := by
  cases operation with
  | create kind _ =>
      cases creates
      unfold Run.perform
      rw [Kernel.perform, Kernel.bind_apply, Kernel.makeOfKind, Kernel.bind_apply,
        Kernel.copyPrototype_apply]
      cases run.machine.registry.prototype kind with
      | error refusal => exact .inr ⟨⟨_, rfl⟩, rfl⟩
      | ok behavior =>
          exact .inl ⟨rfl, congrArg (Option.map Instance.address) Std.TreeMap.getElem?_insert_self⟩
  | adopt kind behavior _ =>
      cases creates
      exact .inl ⟨rfl, congrArg (Option.map Instance.address) Std.TreeMap.getElem?_insert_self⟩
  | _ => cases creates

/-! ## All machines -/

namespace World

variable {annals : Annals β N} {world after : World β D}

/-- All states in a world. -/
def states (world : World β D) : List (Instance β) :=
  world.machines.toList.flatMap (fun entry => entry.2.states) ++ world.hands.toList.map Prod.snd

/-- How many states with an address machines have. -/
def tallyIn (machines : Std.TreeMap String (Machine β D)) (id : MachineId)
    (serial : Serial) : Nat :=
  (machines.toList.map fun entry => entry.2.tally id serial).sum

/-- How many states with an address there are in a world. -/
def tally (world : World β D) (id : MachineId) (serial : Serial) : Nat :=
  tallyIn world.machines id serial + world.hands.copies id serial

section

variable (machines : Std.TreeMap String (Machine β D)) (name : String) (machine : Machine β D)
  (id : MachineId) (serial : Serial)

/-- The machine that gets a name is counted instead of the one that had it. -/
theorem tallyIn_insert :
    tallyIn (machines.insert name machine) id serial =
      machine.tally id serial + tallyIn (machines.erase name) id serial := by
  rw [tallyIn, ((toList_perm_insert machines name machine).map _).sum_nat]
  rfl

theorem tallyIn_of_named (named : machines[name]? = some machine) :
    tallyIn machines id serial =
      machine.tally id serial + tallyIn (machines.erase name) id serial := by
  rw [tallyIn, ((toList_perm_erase machines name machine named).map _).sum_nat]
  rfl

theorem tallyIn_erase_le :
    tallyIn (machines.erase name) id serial ≤ tallyIn machines id serial := by
  cases named : machines[name]? with
  | none =>
      rw [tallyIn, toList_erase_of_none machines name named]
      exact Nat.le_refl _
  | some machine =>
      rw [tallyIn_of_named machines name machine id serial named]
      exact Nat.le_add_left _ _

end

theorem of_map_eq_ok
    {ε α γ : Type}
    {result : Except ε α}
    {change : α → γ}
    {final : γ}
    (done : result.map change = .ok final) :
    ∃ value, result = .ok value ∧ change value = final := by
  cases result with
  | error cause => nomatch done
  | ok value => exact ⟨value, rfl, Except.ok.inj done⟩

theorem machine?_eq_ok {name : String} {machine : Machine β D} :
    world.machine? name = .ok machine ↔ world.machines[name]? = some machine := by
  unfold machine?
  split
  next missing => simp [missing]
  next found named => simp [named]

/-- A machine is the one that has just got its name, or it had its name before. -/
theorem named_of_insert
    {machines : Std.TreeMap String (Machine β D)}
    {name other : String}
    {machine found : Machine β D}
    (named : (machines.insert name machine)[other]? = some found) :
    name = other ∧ machine = found ∨ name ≠ other ∧ machines[other]? = some found := by
  rw [Std.TreeMap.getElem?_insert] at named
  split at named
  next same => exact .inl ⟨Std.LawfulEqCmp.eq_of_compare same, Option.some.inj named⟩
  next apart =>
    exact .inr ⟨fun same => apart (Std.LawfulEqCmp.compare_eq_iff_eq.mpr same), named⟩

/-- What is known of a world by what has happened in it. -/
structure Settled (annals : Annals β N) (world : World β D) : Prop where
  /-- The living machines have been built. -/
  counted (name : String) (machine : Machine β D) :
    world.machines[name]? = some machine → machine.id.number ≤ world.built
  /-- No two living machines have the same number. -/
  apart (first second : String) (machine other : Machine β D) :
    world.machines[first]? = some machine → world.machines[second]? = some other →
      machine.id = other.id → first = second
  /-- All that has happened was in machines that have been built. -/
  past (line : MachineId × Entry β N) : line ∈ annals → line.1.number ≤ world.built
  /-- The machines, living or gone, gave the numbers in order and parked no state twice. -/
  told (id : MachineId) :
    (∃ count, numbersIn (annals.ledger id) = serialsUpTo count) ∧
      ∃ parked, parkedAfter (annals.ledger id) = some parked
  /-- The living machines are as their ledgers tell. -/
  kept (name : String) (machine : Machine β D) :
    world.machines[name]? = some machine →
      Stage.Kept (annals.ledger machine.id) (machine.alone : Stage β D N)
  /-- There are no more states than the ledgers tell. -/
  once (id : MachineId) (serial : Serial) :
    world.tally id serial ≤ (numbersIn (annals.ledger id)).count serial

namespace Settled

/-- Machines and states can go away. -/
theorem shrink
    (settled : Settled annals world)
    (built : after.built = world.built)
    (machines : ∀ (name : String) (machine : Machine β D),
      after.machines[name]? = some machine → world.machines[name]? = some machine)
    (fewer : ∀ id serial, after.tally id serial ≤ world.tally id serial) :
    Settled annals after where
  counted name machine named := built ▸ settled.counted name machine (machines name machine named)
  apart first second machine other named named' :=
    settled.apart first second machine other (machines first machine named)
      (machines second other named')
  past line member := built ▸ settled.past line member
  told := settled.told
  kept name machine named := settled.kept name machine (machines name machine named)
  once id serial := Nat.le_trans (fewer id serial) (settled.once id serial)

/-- Callers can do to the states in their hands what does not add to them. -/
theorem withHands
    (settled : Settled annals world)
    (handles : Std.TreeMap String MachineId)
    (hands : Hands β)
    (fewer : ∀ id serial, hands.copies id serial ≤ world.hands.copies id serial) :
    Settled annals { world with handles := handles, hands := hands } :=
  settled.shrink rfl (fun _ _ named => named) fun id serial =>
    Nat.add_le_add_left (fewer id serial) _

/-- A world in which a machine is dropped stays settled: states are lost at most. -/
theorem drop
    (settled : Settled annals world)
    (name : String)
    (done : world.drop name = .ok after) :
    Settled annals after := by
  obtain ⟨machine, -, rfl⟩ := of_map_eq_ok done
  refine settled.shrink rfl (fun other machine named => ?_) fun id serial =>
    Nat.add_le_add_right (tallyIn_erase_le world.machines name id serial) _
  rw [Std.TreeMap.getElem?_erase] at named
  split at named
  · nomatch named
  · exact named

/-- Nothing has happened yet in a machine that has not been built. -/
theorem about_unbuilt
    (settled : Settled annals world)
    (id : MachineId)
    (unbuilt : world.built < id.number) :
    annals.about id = [] := by
  have unheard : annals.filter (fun line => line.1 = id) = [] := by
    refine List.filter_eq_nil_iff.mpr fun line member same => ?_
    have built := settled.past line member
    rw [decide_eq_true_eq.mp same] at built
    omega
  rw [Annals.about, unheard]
  rfl

theorem ledger_unbuilt
    (settled : Settled annals world)
    (id : MachineId)
    (unbuilt : world.built < id.number) :
    annals.ledger id = [] := by
  rw [Annals.ledger, settled.about_unbuilt id unbuilt]
  rfl

/-- What is counted in a ledger of a machine. -/
theorem once_of_named
    (settled : Settled annals world)
    (name : String)
    (machine : Machine β D)
    (named : world.machines[name]? = some machine)
    (id : MachineId)
    (serial : Serial) :
    machine.tally id serial + tallyIn (world.machines.erase name) id serial +
        world.hands.copies id serial ≤
      (numbersIn (annals.ledger id)).count serial := by
  rw [← tallyIn_of_named _ name machine id serial named]
  exact settled.once id serial

/-- A new machine brings no state into the world. -/
theorem build
    (settled : Settled annals world)
    (name : String)
    (make : MachineId → Except Rejection (Machine β D))
    (fresh : ∀ id machine, make id = .ok machine → machine.IsNew id)
    (done : world.build name make = .ok after) :
    Settled annals after := by
  unfold World.build at done
  split at done
  · nomatch done
  next machine made =>
  cases done
  have new := fresh _ machine made
  have number : machine.id = ⟨world.built + 1⟩ := by
    obtain ⟨config, registry, data, same⟩ := new.eq_idle
    rw [same]
    rfl
  refine ⟨fun other found named => ?_, fun first second one two named named' same => ?_,
    fun line member => Nat.le_succ_of_le (settled.past line member), settled.told,
    fun other found named => ?_, fun id serial => ?_⟩
  · obtain ⟨_, rfl⟩ | ⟨_, named⟩ := named_of_insert named
    · exact Nat.le_of_eq (congrArg MachineId.number number)
    · exact Nat.le_succ_of_le (settled.counted other found named)
  · have lower (other : String) (found : Machine β D)
        (named : world.machines[other]? = some found) : found.id ≠ machine.id := by
      have counted := settled.counted other found named
      rintro equal
      rw [equal, number] at counted
      exact Nat.not_succ_le_self _ counted
    obtain ⟨rfl, rfl⟩ | ⟨_, named⟩ := named_of_insert named <;>
      obtain ⟨rfl, rfl⟩ | ⟨_, named'⟩ := named_of_insert named'
    · rfl
    · exact absurd same.symm (lower second two named')
    · exact absurd same (lower first one named)
    · exact settled.apart first second one two named named' same
  · obtain ⟨_, rfl⟩ | ⟨_, named⟩ := named_of_insert named
    · rw [settled.ledger_unbuilt machine.id (by rw [number]; exact Nat.lt_succ_self _)]
      exact new.kept
    · exact settled.kept other found named
  · rw [tally, tallyIn_insert, new.tally_eq, Nat.zero_add]
    exact Nat.le_trans
      (Nat.add_le_add_right (tallyIn_erase_le world.machines name id serial) _)
      (settled.once id serial)

end Settled

/-- An operation is done on a run with what callers hold in their hands. -/
theorem operate_eq
    (conduct : Conduct β D N)
    {name : String}
    {machine : Machine β D}
    (named : world.machines[name]? = some machine)
    (now : Instant)
    (operation : Operation β D) :
    let run := (Run.perform conduct ⟨machine, world.hands, #[], now⟩ now operation).2
    (world.operate conduct now name operation).2 =
      (run.journal, { world with
        machines := world.machines.insert name run.machine
        hands := run.hands }) := by
  unfold World.operate
  rw [machine?_eq_ok.mpr named]
  dsimp only
  split <;> rfl

/-- A caller who asks a machine for a state gets one with the next number, or the machine stays as
it was. -/
theorem operate_creates
    (conduct : Conduct β D N)
    {name : String}
    {machine : Machine β D}
    (named : world.machines[name]? = some machine)
    (now : Instant)
    {operation : Operation β D}
    {slot : Slot}
    (creates : operation.creates? = some slot) :
    let (answer, _, after) := world.operate conduct now name operation
    answer = .ok (.holding slot) ∧
        after.hands[slot]?.map Instance.address = some (machine.id, ⟨machine.made + 1⟩) ∨
      (∃ failure, answer = .error failure) ∧ after.machine? name = .ok machine := by
  have made := Run.perform_creates conduct ⟨machine, world.hands, #[], now⟩ now creates
  unfold World.operate
  rw [machine?_eq_ok.mpr named]
  dsimp only
  obtain ⟨answer, held⟩ | ⟨⟨cause, answer⟩, same⟩ := made
  · rw [answer]
    exact .inl ⟨rfl, held⟩
  · rw [answer]
    refine .inr ⟨⟨_, rfl⟩, machine?_eq_ok.mpr ?_⟩
    rw [same]
    exact Std.TreeMap.getElem?_insert_self

namespace Settled

variable {name : String} {machine : Machine β D}

/-- The ledger of a living machine tells which numbers it has given. -/
theorem count_eq
    (settled : Settled annals world)
    (named : world.machines[name]? = some machine)
    (serial : Serial) :
    (numbersIn (annals.ledger machine.id)).count serial = machine.given serial := by
  have counted := (settled.kept name machine named).recorded.count_eq serial
  rwa [Machine.alone, Run.ledger, ledgerOf, List.filterMap_nil, List.append_nil] at counted

/-- A living machine is in order together with what callers hold in their hands. -/
theorem ready
    (settled : Settled annals world)
    (named : world.machines[name]? = some machine)
    (now : Instant) :
    Stage.Kept (annals.ledger machine.id)
      (⟨.idle, [], ⟨machine, world.hands, #[], now⟩⟩ : Stage β D N) := by
  refine (settled.kept name machine named).settle rfl rfl fun serial => ?_
  have once := settled.once_of_named name machine named machine.id serial
  rw [settled.count_eq named] at once
  rw [Stage.copies_idle]
  dsimp only [Machine.alone]
  omega

section Replace

variable {run : Run β D N}

/-- A call of a living machine adds no states except for those that it makes. -/
theorem tally_replace_le
    (settled : Settled annals world)
    (named : world.machines[name]? = some machine)
    (number : run.machine.id = machine.id)
    (kept : Stage.Kept (annals.ledger machine.id) ⟨.idle, [], run⟩)
    (fewer : ∀ id serial,
      run.machine.tally id serial + run.hands.copies id serial + machine.givenBy id serial ≤
        machine.tally id serial + world.hands.copies id serial + run.machine.givenBy id serial)
    (id : MachineId)
    (serial : Serial) :
    tally { world with machines := world.machines.insert name run.machine, hands := run.hands }
        id serial ≤
      world.tally id serial +
        (numbersIn (if machine.id = id then run.ledger else [])).count serial := by
  have added := fewer id serial
  rw [tally, tallyIn_insert, tally, tallyIn_of_named _ name machine id serial named]
  dsimp only
  by_cases same : machine.id = id
  · subst same
    have counted := kept.recorded.count_eq serial
    rw [numbersIn_append, List.count_append, settled.count_eq named] at counted
    rw [Machine.givenBy, if_pos rfl, Machine.givenBy, if_pos number] at added
    rw [if_pos rfl]
    dsimp only at counted
    omega
  · rw [Machine.givenBy, if_neg same, Machine.givenBy, if_neg (number ▸ same)] at added
    omega

/-- A call of a living machine keeps it in order and gives a number to each state that it adds. -/
theorem replace
    (settled : Settled annals world)
    (named : world.machines[name]? = some machine)
    (number : run.machine.id = machine.id)
    (kept : Stage.Kept (annals.ledger machine.id) ⟨.idle, [], run⟩)
    (fewer : ∀ id serial,
      run.machine.tally id serial + run.hands.copies id serial + machine.givenBy id serial ≤
        machine.tally id serial + world.hands.copies id serial + run.machine.givenBy id serial) :
    Settled (annals ++ .ofCall machine.id run.journal)
      { world with machines := world.machines.insert name run.machine, hands := run.hands } := by
  have earlier (other : String) (found : Machine β D)
      (here : (world.machines.insert name run.machine)[other]? = some found) :
      ∃ old, world.machines[other]? = some old ∧ old.id = found.id := by
    obtain ⟨rfl, rfl⟩ | ⟨_, here⟩ := named_of_insert here
    · exact ⟨machine, named, number.symm⟩
    · exact ⟨found, here, rfl⟩
  refine ⟨fun other found here => ?_, fun first second one two here there same => ?_,
    fun line member => ?_, fun id => ?_, fun other found here => ?_, fun id serial => ?_⟩
  · obtain ⟨old, there, same⟩ := earlier other found here
    exact same ▸ settled.counted other old there
  · obtain ⟨oldOne, wasOne, sameOne⟩ := earlier first one here
    obtain ⟨oldTwo, wasTwo, sameTwo⟩ := earlier second two there
    exact settled.apart first second oldOne oldTwo wasOne wasTwo
      (sameOne.trans (same.trans sameTwo.symm))
  · rcases List.mem_append.mp member with old | new
    · exact settled.past line old
    · obtain ⟨entry, _, rfl⟩ := List.mem_map.mp new
      exact settled.counted name machine named
  · rw [Annals.ledger_ofCall]
    split
    next same =>
      subst same
      obtain ⟨parked, followed, _⟩ := kept.recorded.parking
      exact ⟨⟨_, kept.recorded.numbered⟩, parked, followed⟩
    next =>
      rw [List.append_nil]
      exact settled.told id
  · rw [Annals.ledger_ofCall]
    obtain ⟨rfl, rfl⟩ | ⟨apart, here⟩ := named_of_insert here
    · rw [number, if_pos rfl]
      exact kept.settle rfl (List.append_nil _)
        (kept.orderly.rearrange ∅ List.nil_subperm).once
    · rw [if_neg fun same => apart (settled.apart name other machine found named here same),
        List.append_nil]
      exact settled.kept other found here
  · have added := settled.tally_replace_le named number kept fewer id serial
    have once := settled.once id serial
    rw [Annals.ledger_ofCall, numbersIn_append, List.count_append]
    omega

end Replace

/-- An operation records the states that it makes, and puts none into a second place. -/
theorem operate
    (settled : Settled annals world)
    (named : world.machines[name]? = some machine)
    (conduct : Conduct β D N)
    (now : Instant)
    (operation : Operation β D) :
    Settled (annals ++ .ofCall machine.id (world.operate conduct now name operation).2.1)
        (world.operate conduct now name operation).2.2 ∧
      ∀ id serial, (world.operate conduct now name operation).2.2.tally id serial ≤
        world.tally id serial + (numbersIn (
          if machine.id = id then
            ledgerOf (world.operate conduct now name operation).2.1.toList
          else [])).count serial := by
  have ready := settled.ready named now
  have kept := (Stage.Kept.persistent conduct _).perform _ now operation trivial ready
  have fewer := Run.perform_tally_le conduct _ now operation ready.orderly
  obtain ⟨_, _, steps⟩ :=
    Run.perform_anyhow conduct ⟨machine, world.hands, #[], now⟩ now operation
  have number := steps.fixed.1
  rw [operate_eq conduct named now operation]
  exact ⟨settled.replace named number kept fewer,
    settled.tally_replace_le named number kept fewer⟩

/-- A state that is posted to a machine that is gone is lost. -/
theorem forfeit
    (settled : Settled annals world)
    (target : Destination)
    (done : world.forfeit target = some after) :
    Settled annals after := by
  cases target with
  | fresh kind =>
      cases done
      exact settled
  | held slot =>
      unfold World.forfeit at done
      dsimp only at done
      split at done
      · cases done
        exact settled.withHands world.handles _ (world.hands.copies_erase_le slot)
      · nomatch done

/-- A request that is posted moves from the hands into an inbox. -/
theorem send
    {conduct : Conduct β D N}
    (settled : Settled annals world)
    {id : MachineId}
    (now : Instant)
    (handle : String)
    (target : Destination)
    (found : world.handle? handle = .ok id) :
    Settled (annals ++ .ofCall id (world.send conduct now handle target).2.1)
      (world.send conduct now handle target).2.2 := by
  unfold World.send
  rw [found]
  dsimp only
  split
  next name alive =>
    obtain ⟨⟨other, machine⟩, listed, rfl⟩ := Option.map_eq_some_iff.mp alive
    have named := Std.TreeMap.mem_toList_iff_getElem?_eq_some.mp (List.mem_of_find?_eq_some listed)
    obtain rfl : machine.id = id := of_decide_eq_true (List.find?_some listed :)
    exact (settled.operate named conduct now (.post target)).1
  next =>
    split
    · exact (List.append_nil annals).symm ▸ settled
    next lost done => exact (List.append_nil annals).symm ▸ settled.forfeit target done

/-- To look at a state in hand, or to pause it, moves nothing. -/
theorem inspect
    (settled : Settled annals world)
    {subject : Instance β}
    (slot : Slot)
    (paused : Option Bool)
    (handle : Option String)
    (done : world.inspect slot paused handle = .ok (subject, after)) :
    Settled annals after := by
  obtain ⟨held, found, same⟩ := of_map_eq_ok done
  cases same
  unfold held? at found
  split at found
  · nomatch found
  next present =>
    cases found
    exact settled.withHands _ _ fun id serial =>
      Nat.le_of_eq (world.hands.copies_insert_of_held slot held present _ id serial)

end Settled

/-- Every world that comes about is settled. -/
theorem Reachable.settled
    {conduct : Conduct β D N}
    (reached : Reachable conduct annals world) :
    Settled annals world := by
  induction reached with
  | empty =>
      have nobody (name : String) (machine : Machine β D) :
          (World.empty : World β D).machines[name]? ≠ some machine := by
        rw [World.empty, Std.TreeMap.getElem?_emptyc]
        exact nofun
      refine ⟨fun name machine named => ?_, fun first second machine other named => ?_, nofun,
        fun id => ⟨⟨0, rfl⟩, [], rfl⟩, fun name machine named => ?_, fun id serial => ?_⟩
      · exact absurd named (nobody name machine)
      · exact absurd named (nobody first machine)
      · exact absurd named (nobody name machine)
      · exact Nat.zero_le _
  | build name make reached fresh done settled => exact settled.build name make fresh done
  | drop name reached done settled => exact settled.drop name done
  | operate now name operation reached found settled =>
      exact (settled.operate (machine?_eq_ok.mp found) conduct now operation).1
  | takeHandle name handle reached done settled =>
      obtain ⟨machine, -, rfl⟩ := of_map_eq_ok done
      exact settled.withHands _ _ fun _ _ => Nat.le_refl _
  | send now handle target reached found settled => exact settled.send now handle target found
  | inspect slot paused handle reached done settled =>
      exact settled.inspect slot paused handle done
  | rearrange hands reached kept settled =>
      exact settled.withHands _ hands fun id serial => (kept id).countP_le _

/-- All states of a world are counted. -/
theorem Settled.count_states
    (settled : Settled annals world)
    (id : MachineId)
    (serial : Serial) :
    (world.states.map Instance.address).count (id, serial) = world.tally id serial := by
  rw [states, List.map_append, List.count_append, Hands.count_address, List.map_flatMap,
    List.count_flatMap, tally, tallyIn]
  refine congrArg (fun counts => List.sum counts + _) (List.map_congr_left fun entry listed => ?_)
  have named := Std.TreeMap.mem_toList_iff_getElem?_eq_some.mp listed
  have kept := settled.kept entry.1 entry.2 named
  exact Machine.count_states id serial kept.orderly.keyed kept.owned

/-- No number occurs twice in a ledger. -/
theorem Settled.count_le_one
    (settled : Settled annals world)
    (id : MachineId)
    (serial : Serial) :
    (numbersIn (annals.ledger id)).count serial ≤ 1 := by
  obtain ⟨count, numbered⟩ := (settled.told id).1
  rw [numbered, count_serialsUpTo]
  split <;> decide

/-- Every state of a world is counted. -/
theorem Settled.tally_pos_iff
    (settled : Settled annals world)
    (id : MachineId)
    (serial : Serial) :
    0 < world.tally id serial ↔ (id, serial) ∈ world.states.map Instance.address := by
  rw [← settled.count_states]
  exact List.count_pos_iff

end World

/-- Whatever callers and hooks do, the states that a machine makes get the numbers from one upwards
in order, and a caller who asks for a state and is refused does not use one up.  Every state that
there is has one of these numbers and is in one place, and an operation brings about no other states
than those that it makes.  A parked state is found under its number, and no state was ever parked
while it was parked already. -/
theorem one_number_one_place
    {conduct : Conduct β D N}
    {annals : Annals β N}
    {world : World β D}
    (reached : World.Reachable conduct annals world) :
    (∀ id, ∃ count, numbersIn (annals.ledger id) = serialsUpTo count) ∧
    (∀ id, ∃ parked, parkedAfter (annals.ledger id) = some parked) ∧
    (∀ name machine, world.machine? name = .ok machine →
      numbersIn (annals.ledger machine.id) = serialsUpTo machine.made ∧
      machine.Keyed ∧
      ∃ parked, parkedAfter (annals.ledger machine.id) = some parked ∧
        ∀ serial, serial ∈ parked ↔ serial ∈ machine.parked) ∧
    (world.states.map Instance.address).Nodup ∧
    (∀ subject ∈ world.states, subject.serial ∈ numbersIn (annals.ledger subject.owner)) ∧
    ∀ name machine now operation, world.machine? name = .ok machine →
      let (answer, journal, after) := world.operate conduct now name operation
      (∀ subject ∈ after.states,
        subject.address ∈ world.states.map Instance.address ∨
          subject.owner = machine.id ∧ subject.serial ∈ numbersIn (ledgerOf journal.toList)) ∧
      ∀ slot, operation.creates? = some slot →
        answer = .ok (.holding slot) ∧
            after.hands[slot]?.map Instance.address = some (machine.id, ⟨machine.made + 1⟩) ∨
          (∃ failure, answer = .error failure) ∧ after.machine? name = .ok machine := by
  have settled := reached.settled
  refine ⟨fun id => (settled.told id).1, fun id => (settled.told id).2,
    fun name machine named => ?_, ?_, fun subject here => ?_,
    fun name machine now operation named => ⟨fun subject here => ?_, fun slot creates => ?_⟩⟩
  · have kept := settled.kept name machine (World.machine?_eq_ok.mp named)
    have numbered := kept.recorded.numbered
    have parking := kept.recorded.parking
    rw [Machine.alone, Run.ledger, ledgerOf, List.filterMap_nil, List.append_nil]
      at numbered parking
    exact ⟨numbered, kept.orderly.keyed, parking⟩
  · refine List.nodup_iff_count_le_one.mpr ?_
    rintro ⟨id, serial⟩
    rw [settled.count_states]
    exact Nat.le_trans (settled.once id serial) (settled.count_le_one id serial)
  · have present := (settled.tally_pos_iff _ _).mpr (List.mem_map_of_mem here)
    exact List.count_pos_iff.mp (Nat.lt_of_lt_of_le present (settled.once _ _))
  · obtain ⟨after, fewer⟩ := settled.operate (World.machine?_eq_ok.mp named) conduct now operation
    have present := (after.tally_pos_iff _ _).mpr (List.mem_map_of_mem here)
    have added := fewer subject.owner subject.serial
    rcases Nat.eq_zero_or_pos (world.tally subject.owner subject.serial) with absent | before
    · rw [absent, Nat.zero_add] at added
      have new := List.count_pos_iff.mp (Nat.lt_of_lt_of_le present added)
      split at new
      next own => exact .inr ⟨own.symm, new⟩
      next => cases new
    · exact .inl ((settled.tally_pos_iff _ _).mp before)
  · exact World.operate_creates conduct (World.machine?_eq_ok.mp named) now creates

/-! ## Two machines -/

/-- An operation on a machine, or on nothing if no machine has the name, leads to a reachable
world. -/
theorem World.Reachable.operated
    {conduct : Conduct β D N}
    {annals : Annals β N}
    {world : World β D}
    (reached : Reachable conduct annals world)
    (now : Instant)
    (name : String)
    (operation : Operation β D) :
    ∃ annals, Reachable conduct annals (world.operate conduct now name operation).2.2 := by
  cases found : world.machine? name with
  | ok machine => exact ⟨_, .operate now name operation reached found⟩
  | error failure =>
      unfold World.operate
      rw [found]
      exact ⟨annals, reached⟩

/-- A brittle machine and one with states of one plain kind, side by side. -/
def neighbours : World Actor Meter where
  machines := (∅ : Std.TreeMap String (Machine Actor Meter))
    |>.insert "brittle" (brittle true)
    |>.insert "plain"
      (.idle ⟨2⟩ {}
        ⟨(∅ : Std.TreeMap Kind (Registration Actor)).insert ⟨1⟩ ⟨"Plain", some .idle⟩⟩ .zero)
  handles := ∅
  hands := ∅
  built := 2

theorem neighbours_reachable :
    World.Reachable Actor.conduct ([] : Annals Actor Note) neighbours := by
  have first : World.Reachable Actor.conduct ([] : Annals Actor Note)
      ⟨(∅ : Std.TreeMap String (Machine Actor Meter)).insert "brittle" (brittle true), ∅, ∅, 1⟩ :=
    .build "brittle" (fun id => Machine.make id (brittle true).config (brittle true).registry .zero)
      .empty (fun _ _ made => ⟨_, _, _, made⟩) rfl
  exact .build "plain"
    (fun id => Machine.ofSteps id .zero [.register ⟨1⟩ ⟨"Plain", some .idle⟩])
    first (fun _ _ => Machine.isNew_ofSteps) rfl

/-- The two machines after operations on them. -/
def neighboursAfter (operations : List (String × Operation Actor Meter)) : World Actor Meter :=
  operations.foldl
    (fun world step => (world.operate Actor.conduct .epoch step.1 step.2).2.2) neighbours

theorem neighboursAfter_reachable (operations : List (String × Operation Actor Meter)) :
    ∃ annals : Annals Actor Note,
      World.Reachable Actor.conduct annals (neighboursAfter operations) := by
  have goesOn (world : World Actor Meter) (annals : Annals Actor Note)
      (reached : World.Reachable Actor.conduct annals world) :
      ∃ annals : Annals Actor Note, World.Reachable Actor.conduct annals
        (operations.foldl
          (fun world step => (world.operate Actor.conduct .epoch step.1 step.2).2.2) world) := by
    induction operations generalizing world annals with
    | nil => exact ⟨annals, reached⟩
    | cons step more inductionHypothesis =>
        obtain ⟨later, there⟩ := reached.operated .epoch step.1 step.2
        exact inductionHypothesis _ later there
  exact goesOn neighbours [] neighbours_reachable

/-- A state of the brittle machine comes into the inbox of the other one.  Then another state breaks
off when it exits, and is lost with the one that should be entered. -/
def exchange : List (String × Operation Actor Meter) :=
  [("brittle", .create ⟨2⟩ "spare"), ("plain", .post (.held "spare")),
    ("brittle", .switchTo (.fresh ⟨1⟩)), ("brittle", .switchTo (.fresh ⟨2⟩)),
    ("brittle", .switchTo (.fresh ⟨2⟩))]

/-- The state that the brittle machine makes after all this has a number of its own. -/
theorem one_number_one_place_neighbours :
    ∃ annals : Annals Actor Note,
      (⟨4⟩ : Serial) ∈ numbersIn (annals.ledger ⟨1⟩) ∧
        ((neighboursAfter exchange).states.map Instance.address).Nodup := by
  obtain ⟨annals, reached⟩ := neighboursAfter_reachable exchange
  obtain ⟨-, -, -, once, numbered, -⟩ := one_number_one_place reached
  have listed : (⟨1⟩, ⟨4⟩) ∈ (neighboursAfter exchange).states.map Instance.address := by
    decide +kernel
  obtain ⟨subject, here, address⟩ := List.mem_map.mp listed
  have known := numbered subject here
  have owner : subject.owner = ⟨1⟩ := congrArg Prod.fst address
  have serial : subject.serial = ⟨4⟩ := congrArg Prod.snd address
  rw [owner, serial] at known
  exact ⟨annals, known, once⟩

end TickMachine
