import TickMachine.Machine

/-!
# Journal

What happens while a machine works, in order: the hooks that are called and what they report, the
prototypes that are used, the requests that are posted and taken up, and the log events.  A log
event has a level, a message and named fields.
-/

namespace TickMachine

/-! ## Log events -/

/-- How much a log event matters. -/
inductive Level where
  | trace
  | debug
  | warn
deriving DecidableEq

/-- The value of a field of a log event. -/
inductive FieldValue where
  | text (value : String)
  | number (value : Nat)
deriving DecidableEq

/-- Something that a machine logs. -/
inductive LogEvent where
  /-- A state was made. -/
  | made (kind : Kind) (name : String) (serial : Serial)
  /-- A tick passed over the current state because it is paused. -/
  | tickSkipped (serial : Serial)
  /-- The current state was pushed, and the stack has this depth. -/
  | pushed (serial : Serial) (depth : Nat)
  /-- Nothing could be pushed. -/
  | pushIgnored (refusal : Refusal)
  /-- There was nothing to come back to. -/
  | popIgnored
  /-- A state was taken off the stack, which has this depth. -/
  | popped (serial : Serial) (depth : Nat)
  /-- There was no current state to restart. -/
  | restartIgnored
  /-- A shutdown asks for the shutdown state. -/
  | shuttingDown (kind : Kind) (name : String)
  /-- A shutdown let the pending transition go. -/
  | pendingDropped (serial : Serial)
  /-- A shutdown made the current state exit. -/
  | shutDown (kind : Kind) (serial : Serial)
  /-- A pending transition gave way to another one. -/
  | superseded (previous next : Serial)
  /-- A transition became the pending one. -/
  | deferred (kind : Kind) (name : String) (serial : Serial)
  /-- A state that should enter again was not current. -/
  | reenterSkipped (serial : Serial)
  /-- The current state exited and entered again. -/
  | reentered (kind : Kind) (serial : Serial)
  /-- A state became current. -/
  | entered (kind : Kind) (name : String) (serial : Serial)
  /-- A state was parked. -/
  | parked (serial : Serial)
  /-- A state was dropped. -/
  | dropped (serial : Serial)
  /-- A chain of requests was too long. -/
  | chainAborted (limit : UInt64)
deriving DecidableEq

namespace LogEvent

/-- The level of a log event. -/
def level : LogEvent → Level
  | made .. | tickSkipped _ | parked _ | dropped _ => .trace
  | reenterSkipped _ | chainAborted _ => .warn
  | _ => .debug

/-- The message of a log event. -/
def message : LogEvent → String
  | made .. => "state constructed"
  | tickSkipped _ => "paused state skipped"
  | pushed .. => "state pushed"
  | pushIgnored _ => "push ignored"
  | popIgnored => "pop on empty stack ignored"
  | popped .. => "state popped"
  | restartIgnored => "restart without current state ignored"
  | shuttingDown .. => "shutting down into terminal state"
  | pendingDropped _ => "pending transition dropped by shutdown"
  | shutDown .. => "machine shut down"
  | superseded .. => "pending transition discarded"
  | deferred .. => "transition deferred"
  | reenterSkipped _ => "re-enter skipped, instance is no longer current"
  | reentered .. => "state re-entered"
  | entered .. => "transition applied"
  | parked _ => "instance parked for resume"
  | dropped _ => "instance dropped"
  | chainAborted _ => "transition chain aborted"

/-- The named fields of a log event. -/
def fields : LogEvent → List (String × FieldValue)
  | made kind name serial | deferred kind name serial | entered kind name serial =>
      [("kind", .text kind.text), ("name", .text name), ("instance", .text serial.text)]
  | tickSkipped serial | pendingDropped serial | reenterSkipped serial | parked serial
  | dropped serial =>
      [("instance", .text serial.text)]
  | pushed serial depth | popped serial depth =>
      [("instance", .text serial.text), ("depth", .number depth)]
  | pushIgnored refusal => [("err", .text refusal.message)]
  | popIgnored | restartIgnored => []
  | shuttingDown kind name => [("kind", .text kind.text), ("name", .text name)]
  | shutDown kind serial | reentered kind serial =>
      [("kind", .text kind.text), ("instance", .text serial.text)]
  | superseded previous next =>
      [("superseded", .text previous.text), ("instance", .text next.text)]
  | chainAborted limit => [("limit", .number limit.toNat)]

end LogEvent

/-! ## Entries -/

/-- A request as the journal names it. -/
inductive RequestLabel where
  | fresh (kind : Kind)
  | existing (owner : MachineId) (serial : Serial)
deriving DecidableEq

/-- The name of a request in the journal. -/
def Request.label {β : Type} : Request β → RequestLabel
  | .fresh kind => .fresh kind
  | .existing subject => .existing subject.owner subject.serial

/-- Who made a request that a machine takes up. -/
inductive Origin where
  /-- The caller of the machine. -/
  | caller
  /-- The holder of a handle, before the call. -/
  | handle
  /-- A hook that ran within the call. -/
  | hook
deriving DecidableEq

/-- Something that happens while a machine works. -/
inductive Entry (β N : Type) where
  /-- A hook of a state is called. -/
  | called (hook : Hook) (kind : Kind) (serial : Serial)
  /-- A hook reports something. -/
  | noted (note : N)
  /-- The prototype of a kind is used for a new state. -/
  | copied (kind : Kind) (prototype : β)
  /-- A request is posted through a handle. -/
  | posted (label : RequestLabel)
  /-- A request is taken up. -/
  | taken (origin : Origin) (label : RequestLabel)
  /-- The machine logs an event. -/
  | logged (event : LogEvent)

end TickMachine
