import TickMachine.Machine

/-!
# Builders

A machine is built from changes of a configuration and registrations of kinds, in any order.  A
builder takes them one by one and remembers the first registration that was refused, so that its
user need not stop; only a text that is no configuration ends the work at once.  The direct way is
to register in a registry, to stop at the first refusal, and to make the machine.
-/

namespace TickMachine

/-- A change of a configuration. -/
inductive ConfigChange where
  | all (config : Config)
  | text (source : String)
  | immediate (value : Bool)
  | shutdown (kind : Kind)
  | chainLimit (limit : UInt64)
  | historyLimit (limit : UInt64)

/-- Applies a change to a configuration. -/
def Config.change (config : Config) : ConfigChange → Except Rejection Config
  | .all next => .ok next
  | .text source => Config.ofText source
  | .immediate value => .ok { config with immediate := value }
  | .shutdown kind => .ok { config with shutdown := some kind }
  | .chainLimit limit => .ok { config with chainLimit := limit }
  | .historyLimit limit => .ok { config with historyLimit := limit }

/-- One call in the making of a machine. -/
inductive BuildStep (β : Type) where
  /-- Change the configuration. -/
  | configure (change : ConfigChange)
  /-- Register a kind. -/
  | register (kind : Kind) (registration : Registration β)

/-- A machine in the making. -/
structure Builder (β D : Type) where
  config : Config
  registry : Registry β
  data : D
  /-- The first registration that was refused. -/
  fault : Option Rejection

namespace Builder

variable {β D : Type}

/-- A builder around data, with the default configuration and no kinds. -/
def start (data : D) : Builder β D :=
  ⟨{}, .empty, data, none⟩

/-- Changes the configuration. -/
def configure (builder : Builder β D) (change : ConfigChange) :
    Except Rejection (Builder β D) :=
  (builder.config.change change).map fun config => { builder with config := config }

/-- Registers a kind, and remembers the refusal if it is the first. -/
def register (builder : Builder β D) (kind : Kind) (registration : Registration β) :
    Builder β D :=
  match builder.registry.insert kind registration with
  | .ok registry => { builder with registry := registry }
  | .error rejection => { builder with fault := some (builder.fault.getD rejection) }

/-- Takes one step. -/
def take (builder : Builder β D) : BuildStep β → Except Rejection (Builder β D)
  | .configure change => builder.configure change
  | .register kind registration => .ok (builder.register kind registration)

/-- Takes steps in order. -/
def takeAll (builder : Builder β D) : List (BuildStep β) → Except Rejection (Builder β D)
  | [] => .ok builder
  | step :: more =>
      match builder.take step with
      | .error rejection => .error rejection
      | .ok next => next.takeAll more

/-- The machine, unless a registration was refused or the configuration cannot be used. -/
def build (builder : Builder β D) (id : MachineId) : Except Rejection (Machine β D) :=
  match builder.fault with
  | some rejection => .error rejection
  | none => Machine.make id builder.config builder.registry builder.data

end Builder

namespace Machine

variable {β D : Type}

/-- Makes a machine with a builder. -/
def ofSteps (id : MachineId) (data : D) (steps : List (BuildStep β)) :
    Except Rejection (Machine β D) :=
  match (Builder.start data).takeAll steps with
  | .error rejection => .error rejection
  | .ok builder => builder.build id

/-- Takes one step on a configuration and a registry. -/
def stepDirectly (config : Config) (registry : Registry β) :
    BuildStep β → Except Rejection (Config × Registry β)
  | .configure change => (config.change change).map fun next => (next, registry)
  | .register kind registration =>
      (registry.insert kind registration).map fun next => (config, next)

/-- Makes a machine from a configuration and a registry, and stops at the first refusal. -/
def ofStepsDirectly (id : MachineId) (data : D) (config : Config) (registry : Registry β) :
    List (BuildStep β) → Except Rejection (Machine β D)
  | [] => make id config registry data
  | step :: more =>
      match stepDirectly config registry step with
      | .error rejection => .error rejection
      | .ok (config, registry) => ofStepsDirectly id data config registry more

end Machine
end TickMachine
