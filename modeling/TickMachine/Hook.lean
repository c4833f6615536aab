import TickMachine.Identity
import TickMachine.Number.Single

/-!
# Hooks

A state behaves by reacting to four hooks: it is entered, ticked, exited, or asked to restart.  A
reaction is a function of the behaviour so far and of what the hook sees of its machine.  It says
how the behaviour goes on, what becomes of the shared data and of the state's paused flag, which
transitions the hook asks for, and whether it breaks off.

A hook never holds a state.  It names one by the slot in which a caller keeps it, so no hook can
make up a state or copy one.

A hook asks only its own machine for transitions.  A hook that keeps handles of other machines and
posts requests through them is not covered: requests reach other machines only between operations.
-/

namespace TickMachine

/-- A call of a state by its machine. -/
inductive Hook where
  /-- The state becomes current. -/
  | enter
  /-- Time passes while the state is current and not paused. -/
  | tick (delta : Single)
  /-- The state stops being current. -/
  | exit
  /-- The state shall have itself replaced. -/
  | restart
deriving DecidableEq

/-- Where a requested transition leads. -/
inductive Destination where
  /-- To a new state of a kind. -/
  | fresh (kind : Kind)
  /-- To the state that is held in a slot. -/
  | held (slot : Slot)
deriving DecidableEq

/-- What a hook sees while it runs. -/
structure View (D : Type) where
  /-- The kind of the state that reacts. -/
  kind : Kind
  /-- The number of the state that reacts. -/
  serial : Serial
  /-- Whether the state is paused. -/
  paused : Bool
  /-- The data that all states of the machine share. -/
  data : D
  /-- Whether a slot holds a state. -/
  holds : Slot → Bool

/-- What a hook does. -/
structure Reaction (β D N : Type) where
  /-- The behaviour with which the state goes on. -/
  behavior : β
  /-- The shared data after the hook. -/
  data : D
  /-- Whether the state is paused after the hook. -/
  paused : Bool
  /-- The transitions that the hook asks for, in order.  All of them go into the inbox of the
  machine whose hook it is, whether the hook asks by itself or through a handle of this machine. -/
  requests : List Destination
  /-- What the hook reports, in order. -/
  notes : List N
  /-- The message with which the hook broke off, after all that it did, if it broke off. -/
  breakdown : Option String

/-- How the states of a machine and its data behave. -/
structure Conduct (β D N : Type) where
  /-- The reaction of a state to a hook. -/
  react : Hook → β → View D → Reaction β D N
  /-- What resetting a machine does to its data. -/
  reset : D → D

namespace Reaction

variable {β D N : Type}

/-- The reaction of a hook that does nothing. -/
def idle (behavior : β) (view : View D) : Reaction β D N where
  behavior := behavior
  data := view.data
  paused := view.paused
  requests := []
  notes := []
  breakdown := none

/-- The reaction of a hook that only asks for a new state of its own kind. -/
def replace (behavior : β) (view : View D) : Reaction β D N :=
  { idle behavior view with requests := [.fresh view.kind] }

end Reaction
end TickMachine
