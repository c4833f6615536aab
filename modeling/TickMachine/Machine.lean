import TickMachine.History
import TickMachine.Hook
import TickMachine.Registry

/-!
# Machines

A machine has at most one current state.  Next to it there may be a pending transition, a stack of
states to come back to, the parked states that the stack refers to and that are neither current
nor pending, and an inbox of requests that have not been taken up.
-/

namespace TickMachine

/-- A state, made by a machine and bound to it for good. -/
structure Instance (β : Type) where
  kind : Kind
  serial : Serial
  /-- The machine that made the state. -/
  owner : MachineId
  /-- Whether ticks pass the state over. -/
  paused : Bool
  behavior : β

/-- The states that callers hold, by slot. -/
abbrev Hands (β : Type) := Std.TreeMap Slot (Instance β)

/-- A request that waits in an inbox or is about to be taken up. -/
inductive Request (β : Type) where
  /-- To a new state of a kind. -/
  | fresh (kind : Kind)
  /-- To a state that exists. -/
  | existing (subject : Instance β)

/-- A transition that can be made. -/
inductive Transition (β : Type) where
  /-- The current state exits and another one enters. -/
  | replace (next : Instance β)
  /-- The current state, which has this kind and number, exits and enters again. -/
  | reenter (kind : Kind) (serial : Serial)

/-- What a request for a transition did. -/
inductive Outcome where
  /-- The transition was made. -/
  | applied (kind : Kind) (serial : Serial)
  /-- The transition is pending; another state that was pending before has been let go. -/
  | deferred (kind : Kind) (serial : Serial) (discarded : Option Serial)
deriving DecidableEq

/-- How far the life of a machine has come. -/
inductive Status where
  /-- No state was ever entered. -/
  | uninitialized
  /-- A state is current. -/
  | active
  /-- A state was current once, and none is now. -/
  | inactive
deriving DecidableEq

/-- A machine. -/
structure Machine (β D : Type) where
  id : MachineId
  config : Config
  registry : Registry β
  /-- The data that all states share. -/
  data : D
  current : Option (Instance β)
  /-- The transition that the next tick makes. -/
  pending : Option (Transition β)
  /-- The states to come back to, the last pushed first. -/
  stack : List Serial
  /-- The states kept alive because the stack refers to them. -/
  parked : Std.TreeMap Serial (Instance β)
  /-- The requests that have not been taken up, oldest first. -/
  inbox : List (Request β)
  history : History
  /-- How many states were made.  The count is unbounded, as for machines that make fewer than
  `2 ^ 64` states, whose counter of 64 bits does not overflow. -/
  made : Nat
  /-- Whether any state was ever entered. -/
  everEntered : Bool

namespace Transition

variable {β : Type}

/-- The kind that a transition leads to. -/
def kind : Transition β → Kind
  | .replace next => next.kind
  | .reenter kind _ => kind

/-- The state that a transition leads to. -/
def serial : Transition β → Serial
  | .replace next => next.serial
  | .reenter _ serial => serial

end Transition

namespace Machine

variable {β D : Type}

/-- A machine without states. -/
def idle (id : MachineId) (config : Config) (registry : Registry β) (data : D) :
    Machine β D where
  id := id
  config := config
  registry := registry
  data := data
  current := none
  pending := none
  stack := []
  parked := ∅
  inbox := []
  history := .empty config.historyLimit
  made := 0
  everEntered := false

/-- A machine without states, if its configuration can be used with its registry. -/
def make (id : MachineId) (config : Config) (registry : Registry β) (data : D) :
    Except Rejection (Machine β D) :=
  match config.accept with
  | .error rejection => .error rejection
  | .ok config =>
      match config.shutdown.filter fun kind => !registry.isConcrete kind with
      | some kind => .error (.shutdownNotConcrete kind)
      | none => .ok (idle id config registry data)

/-- Whether a state is current. -/
def isActive (machine : Machine β D) : Bool :=
  machine.current.isSome

/-- How far the life of the machine has come. -/
def status (machine : Machine β D) : Status :=
  if machine.isActive then .active
  else if machine.everEntered then .inactive
  else .uninitialized

/-- The number of the current state. -/
def currentSerial (machine : Machine β D) : Option Serial :=
  machine.current.map Instance.serial

/-- The kind of the current state. -/
def currentKind (machine : Machine β D) : Option Kind :=
  machine.current.map Instance.kind

/-- The kind that the pending transition leads to. -/
def pendingKind (machine : Machine β D) : Option Kind :=
  machine.pending.map Transition.kind

/-- The state that the pending transition leads to. -/
def pendingSerial (machine : Machine β D) : Option Serial :=
  machine.pending.map Transition.serial

/-- The states to come back to, the first pushed first. -/
def stackFromBottom (machine : Machine β D) : List Serial :=
  machine.stack.reverse

/-- The number of parked states. -/
def parkedCount (machine : Machine β D) : Nat :=
  machine.parked.size

/-- The name of a kind in log events. -/
def shownName (machine : Machine β D) (kind : Kind) : String :=
  machine.registry.shownName kind

/-- The transition back to a state that was pushed, and the machine without that state if it was
parked or pending.  A current state stays where it is and shall be entered again. -/
def retrieve (machine : Machine β D) (serial : Serial) :
    Option (Transition β × Machine β D) :=
  match machine.parked[serial]? with
  | some found => some (.replace found, { machine with parked := machine.parked.erase serial })
  | none =>
      match machine.current.filter fun current => current.serial = serial with
      | some current => some (.reenter current.kind serial, machine)
      | none =>
          match machine.pending.filter fun pending => pending.serial = serial with
          | some pending => some (pending, { machine with pending := none })
          | none => none

end Machine

/-! ## Shapes for diagnosis -/

/-- The shape of a state shown for diagnosis. -/
def Instance.outline {β : Type} (subject : Instance β) : Outline :=
  .record "StateInstance"
    [("kind", subject.kind.outline), ("id", subject.serial.outline),
      ("paused", .ofBool subject.paused)]
    true

/-- The shape of a request shown for diagnosis. -/
def Request.outline {β : Type} : Request β → Outline
  | .fresh kind => .wrap "Kind" kind.outline
  | .existing subject => .wrap "Instance" subject.outline

/-- The shape of a machine shown for diagnosis. -/
def Machine.outline {β D : Type} (machine : Machine β D) : Outline :=
  .record "StateMachine"
    [("config", machine.config.outline),
      ("current", .ofOption (machine.current.map Instance.outline)),
      ("pending", .ofOption (machine.pendingSerial.map Serial.outline)),
      ("stack", .list (machine.stackFromBottom.map Serial.outline))]
    true

end TickMachine
