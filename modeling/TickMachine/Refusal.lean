import TickMachine.Config
import TickMachine.Number.Single

/-!
# Refusals

The causes for which a machine refuses a call, and those for which it cannot be built, each with
the message that reports it.
-/

namespace TickMachine

/-- Why no state of a kind can be made. -/
inductive Unavailable where
  /-- The kind was never registered. -/
  | unregistered
  /-- The kind was registered by name only. -/
  | abstract
deriving DecidableEq

/-- The wording of the reason. -/
def Unavailable.message : Unavailable → String
  | .unregistered => "kind is not registered"
  | .abstract => "kind is abstract"

/-- Why a machine refuses a call. -/
inductive Refusal where
  /-- No state of the kind can be made. -/
  | unavailable (kind : Kind) (reason : Unavailable)
  /-- The call needs a current state and there is none. -/
  | nothingCurrent
  /-- The state was made by another machine. -/
  | foreign (serial : Serial)
  /-- The state that the stack refers to is gone. -/
  | lost (serial : Serial)
  /-- Hooks asked for more transitions in a row than the configuration allows. -/
  | chainTooLong (limit : UInt64)
  /-- The time step of a tick is negative or no number. -/
  | badDelta (delta : Single)
  /-- The machine of a handle no longer exists. -/
  | ownerGone
deriving DecidableEq

/-- The message that reports a refusal. -/
def Refusal.message : Refusal → String
  | .unavailable kind reason =>
      "State kind " ++ kind.text ++ " cannot be instantiated: " ++ reason.message
  | .nothingCurrent => "Operation requires a current state"
  | .foreign serial => "State instance " ++ serial.text ++ " is bound to another machine"
  | .lost serial => "Stack entry " ++ serial.text ++ " no longer refers to a live instance"
  | .chainTooLong limit =>
      "More than " ++ toString limit.toNat ++ " chained transitions in a single call"
  | .badDelta delta => "Delta time must be a non-negative number, got " ++ delta.text
  | .ownerGone => "Owning state machine has been dropped"

/-- Why a machine cannot be built. -/
inductive Rejection where
  /-- A kind was registered twice. -/
  | duplicateKind (kind : Kind)
  /-- The kind that a shutdown should enter is not registered as concrete. -/
  | shutdownNotConcrete (kind : Kind)
  /-- The limit on chained transitions is zero. -/
  | zeroChainLimit
  /-- The text of the configuration cannot be read. -/
  | unreadable (fault : Json.Fault)
deriving DecidableEq

/-- The message that reports why a machine cannot be built. -/
def Rejection.message : Rejection → String
  | .duplicateKind kind => "State kind " ++ kind.text ++ " registered more than once"
  | .shutdownNotConcrete kind =>
      "Shutdown state " ++ kind.text ++ " is not a registered concrete kind"
  | .zeroChainLimit => "max_chained_transitions must be at least 1"
  | .unreadable _ => "Invalid machine configuration: <json>"

namespace Config

/-- Accepts a configuration whose limits can be used. -/
def accept (config : Config) : Except Rejection Config :=
  if config.chainLimit = 0 then .error .zeroChainLimit else .ok config

/-- Reads a configuration from a text that holds nothing else, and judges its limits. -/
def ofText (text : String) : Except Rejection Config :=
  match Json.document read text.toList with
  | .error fault => .error (.unreadable fault)
  | .ok config => config.accept

end Config
end TickMachine
