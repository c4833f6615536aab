import TickMachine.Builder
import TickMachine.Operation

/-!
# Worlds

Several machines side by side, with the handles that were taken of them and the states that
callers hold.  Machines and handles go by names; a handle refers to its machine by number, so it
does not keep the machine and is not mistaken for a handle of another machine that has the name
later.  A machine is alive as long as it has a name.
-/

namespace TickMachine

/-- Several machines, handles and states in hand. -/
structure World (β D : Type) where
  machines : Std.TreeMap String (Machine β D)
  handles : Std.TreeMap String MachineId
  hands : Hands β
  /-- How many machines were ever built. -/
  built : Nat

/-- Why something cannot be done in a world. -/
inductive Failure where
  /-- No machine has the name. -/
  | noMachine
  /-- No handle has the name. -/
  | noHandle
  /-- The slot is empty. -/
  | noSlot
  /-- The call of the machine was interrupted. -/
  | interrupted (cause : Interruption)

namespace World

variable {β D N : Type}

/-- A world without anything in it. -/
def empty : World β D :=
  ⟨∅, ∅, ∅, 0⟩

/-- The machine of a name. -/
def machine? (world : World β D) (name : String) : Except Failure (Machine β D) :=
  match world.machines[name]? with
  | none => .error .noMachine
  | some machine => .ok machine

/-- The name of the machine with a number, if it is alive. -/
def nameOf? (world : World β D) (id : MachineId) : Option String :=
  (world.machines.toList.find? fun (_, machine) => machine.id = id).map Prod.fst

/-- Whether the machine with a number is alive. -/
def isAlive (world : World β D) (id : MachineId) : Bool :=
  (world.nameOf? id).isSome

/-- Gives a name to a new machine, which has the next number.  A machine that had the name before
is gone then. -/
def build (world : World β D) (name : String)
    (make : MachineId → Except Rejection (Machine β D)) :
    Except Rejection (World β D) :=
  match make ⟨world.built + 1⟩ with
  | .error rejection => .error rejection
  | .ok machine =>
      .ok { world with
        machines := world.machines.insert name machine
        built := world.built + 1 }

/-- Lets a machine go. -/
def drop (world : World β D) (name : String) : Except Failure (World β D) :=
  (world.machine? name).map fun _ =>
    { world with machines := world.machines.erase name }

/-- Does an operation on a machine: what it answers, what happens in it, and the world after
it. -/
def operate (conduct : Conduct β D N) (world : World β D) (now : Instant) (name : String)
    (operation : Operation β D) :
    Except Failure Reply × Array (Entry β N) × World β D :=
  match world.machine? name with
  | .error failure => (.error failure, #[], world)
  | .ok machine =>
      let (reply, run) :=
        Run.perform conduct ⟨machine, world.hands, #[], now⟩ now operation
      let after := { world with
        machines := world.machines.insert name run.machine
        hands := run.hands }
      match reply with
      | .ok .emptySlot => (.error .noSlot, run.journal, after)
      | .ok reply => (.ok reply, run.journal, after)
      | .error cause => (.error (.interrupted cause), run.journal, after)

/-! ## Handles -/

/-- Takes a handle of a machine. -/
def takeHandle (world : World β D) (name handle : String) : Except Failure (World β D) :=
  (world.machine? name).map fun machine =>
    { world with handles := world.handles.insert handle machine.id }

/-- The machine number that a handle refers to. -/
def handle? (world : World β D) (handle : String) : Except Failure MachineId :=
  match world.handles[handle]? with
  | none => .error .noHandle
  | some id => .ok id

/-- Whether two handles refer to the same machine. -/
def sameMachine (world : World β D) (first second : String) : Except Failure Bool := do
  let firstId ← world.handle? first
  let secondId ← world.handle? second
  return firstId = secondId

/-- Takes the state for a destination out of the caller's hands, where it is lost. -/
def forfeit (world : World β D) : Destination → Option (World β D)
  | .fresh _ => some world
  | .held slot =>
      if world.hands.contains slot then some { world with hands := world.hands.erase slot }
      else none

/-- Posts a request through a handle.  If its machine is gone, the request is refused, and a state
that was to be posted is lost. -/
def send (conduct : Conduct β D N) (world : World β D) (now : Instant) (handle : String)
    (target : Destination) : Except Failure Reply × Array (Entry β N) × World β D :=
  match world.handle? handle with
  | .error failure => (.error failure, #[], world)
  | .ok id =>
      match world.nameOf? id with
      | some name => operate conduct world now name (.post target)
      | none =>
          match world.forfeit target with
          | none => (.error .noSlot, #[], world)
          | some after => (.error (.interrupted (.refused .ownerGone)), #[], after)

/-! ## States in hand -/

/-- The state in a slot. -/
def held? (world : World β D) (slot : Slot) : Except Failure (Instance β) :=
  match world.hands[slot]? with
  | none => .error .noSlot
  | some subject => .ok subject

/-- Looks at the state in a slot.  Its paused flag is set first if one is given, and a handle of the
machine that owns it is taken if a name for it is given. -/
def inspect (world : World β D) (slot : Slot) (paused : Option Bool) (handle : Option String) :
    Except Failure (Instance β × World β D) :=
  (world.held? slot).map fun subject =>
    let seen := { subject with paused := paused.getD subject.paused }
    (seen, { world with
      hands := world.hands.insert slot seen
      handles := match handle with
        | none => world.handles
        | some name => world.handles.insert name subject.owner })

/-- The shape of a destination shown for diagnosis. -/
def outline (world : World β D) : Destination → Except Failure Outline
  | .fresh kind => .ok (Request.fresh (β := β) kind).outline
  | .held slot => (world.held? slot).map fun subject => (Request.existing subject).outline

end World

/-- The shape of a handle shown for diagnosis. -/
def handleOutline (alive : Bool) : Outline :=
  .record "MachineHandle" [("alive", .ofBool alive)] false

end TickMachine
