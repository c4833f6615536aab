import TickMachine.Identity
import TickMachine.Outline
import TickMachine.Json.Record
import TickMachine.Json.Write

/-!
# Configuration

How a machine takes transitions and how much it remembers.  A configuration is fixed when its
machine is built.  It has a JSON text, in which every field may be left out and then has its
default value.
-/

namespace TickMachine

/-- The configuration of a machine. -/
structure Config where
  /-- Whether a transition is taken within the call that asks for it instead of at the next
  tick. -/
  immediate : Bool := false
  /-- The kind that a shutdown enters, if it enters any. -/
  shutdown : Option Kind := none
  /-- How many requests of hooks are served back to back before a call fails. -/
  chainLimit : UInt64 := 32
  /-- How many transitions the history keeps; zero keeps none. -/
  historyLimit : UInt64 := 64
deriving DecidableEq, Inhabited

namespace Kind

/-- Reads a kind from JSON text. -/
def read (text : List Char) : Json.Reading Kind :=
  (Json.naturalBelow 256 text).map fun (value, rest) => (⟨UInt8.ofNat value⟩, rest)

/-- The JSON text of a kind. -/
def write (kind : Kind) : List Char :=
  Json.writeNatural kind.tag.toNat

/-- The shape of a kind shown for diagnosis. -/
def outline (kind : Kind) : Outline :=
  .wrap "StateKind" (.ofNat kind.tag.toNat)

end Kind

namespace Serial

/-- Reads a serial number from JSON text. -/
def read (text : List Char) : Json.Reading Serial :=
  (Json.naturalBelow Json.wordSize text).map fun (value, rest) => (⟨value⟩, rest)

/-- The JSON text of a serial number. -/
def write (serial : Serial) : List Char :=
  Json.writeNatural serial.number

/-- The shape of a serial number shown for diagnosis. -/
def outline (serial : Serial) : Outline :=
  .wrap "InstanceId" (.ofNat serial.number)

end Serial

namespace Json

/-- Reads a 64-bit word. -/
def readWord (text : List Char) : Reading UInt64 :=
  (naturalBelow wordSize text).map fun (value, rest) => (UInt64.ofNat value, rest)

end Json

namespace Config

/-- A configuration that has been read in part. -/
structure Draft where
  immediate : Option Bool := none
  shutdown : Option (Option Kind) := none
  chainLimit : Option UInt64 := none
  historyLimit : Option UInt64 := none

/-- The configuration of a draft: what was not read has its default value. -/
def Draft.complete (draft : Draft) : Config where
  immediate := draft.immediate.getD false
  shutdown := draft.shutdown.getD none
  chainLimit := draft.chainLimit.getD 32
  historyLimit := draft.historyLimit.getD 64

/-- The fields of a configuration in JSON text, in the order in which they are written. -/
def fields : List (Json.Field Draft) :=
  [.of "immediate_transitions" Draft.immediate
      (fun draft value => { draft with immediate := some value }) Json.boolean,
    .of "shutdown_state" Draft.shutdown
      (fun draft value => { draft with shutdown := some value }) (Json.optional Kind.read),
    .of "max_chained_transitions" Draft.chainLimit
      (fun draft value => { draft with chainLimit := some value }) Json.readWord,
    .of "history_limit" Draft.historyLimit
      (fun draft value => { draft with historyLimit := some value }) Json.readWord]

/-- Reads a configuration from JSON text, without judging its values. -/
def read (text : List Char) : Json.Reading Config :=
  (Json.record fields true {} text).map fun (draft, rest) => (draft.complete, rest)

/-- The JSON text of a configuration. -/
def write (config : Config) : List Char :=
  Json.writeObject
    [("immediate_transitions", Json.writeBoolean config.immediate),
      ("shutdown_state", Json.writeOptional Kind.write config.shutdown),
      ("max_chained_transitions", Json.writeNatural config.chainLimit.toNat),
      ("history_limit", Json.writeNatural config.historyLimit.toNat)]

/-- The shape of a configuration shown for diagnosis. -/
def outline (config : Config) : Outline :=
  .record "MachineConfig"
    [("immediate_transitions", .ofBool config.immediate),
      ("shutdown_state", .ofOption (config.shutdown.map Kind.outline)),
      ("max_chained_transitions", .ofNat config.chainLimit.toNat),
      ("history_limit", .ofNat config.historyLimit.toNat)]
    false

end Config
end TickMachine
