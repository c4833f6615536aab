import TickMachine.Journal

/-!
# Scripted states

A behaviour that is given as data: for each hook a list of actions, each with conditions under
which it is carried out.  A scripted state counts the calls of each hook and notes every one.  An
idle state does nothing and notes nothing.  At a restart both ask for a new state of their kind,
unless a script has actions for it.

The data of a machine of scripted states is a counter and the number of its resets.
-/

namespace TickMachine

/-- The data that scripted states share. -/
structure Meter where
  counter : Int64
  resets : UInt32
deriving DecidableEq

namespace Meter

/-- The data of a machine that has just been built. -/
def zero : Meter := ⟨0, 0⟩

/-- Sets the counter to zero and counts the reset. -/
def reset (meter : Meter) : Meter :=
  ⟨0, meter.resets + 1⟩

end Meter

/-- What an action does. -/
inductive Effect where
  /-- Ask for a transition. -/
  | switchTo (target : Destination)
  /-- Ask for a new state of the own kind. -/
  | restart
  /-- Set the own paused flag. -/
  | pause (paused : Bool)
  /-- Add to the counter. -/
  | add (amount : Int64)
  /-- Note a text. -/
  | say (text : String)
  /-- Note what the hook sees. -/
  | probe
  /-- Break off. -/
  | breakOff (message : String)

/-- An action with its conditions; one that is missing always holds. -/
structure Action where
  effect : Effect
  /-- The hook has been called exactly so many times. -/
  onCall : Option Nat := none
  /-- The hook has been called at least so many times. -/
  fromCall : Option Nat := none
  /-- The counter is less than this. -/
  counterBelow : Option Int64 := none
  /-- The counter is at least this. -/
  counterFrom : Option Int64 := none

/-- The actions of a state for each hook. -/
structure Script where
  enter : List Action := []
  tick : List Action := []
  exit : List Action := []
  /-- Without these, a restart asks for a new state of the own kind. -/
  restart : Option (List Action) := none

/-- How often each hook of a state was called. -/
structure Calls where
  enter : Nat := 0
  tick : Nat := 0
  exit : Nat := 0
  restart : Nat := 0

/-- The behaviour of a scripted or idle state. -/
inductive Actor where
  | idle
  | scripted (script : Script) (calls : Calls)

/-- What scripted states note. -/
inductive Note where
  /-- A hook was called for the given time. -/
  | called (hook : Hook) (kind : Kind) (serial : Serial) (count : Nat)
  /-- The prototype of a kind was used. -/
  | copied (kind : Kind)
  /-- An action named a slot that was empty. -/
  | emptySlot (slot : Slot)
  /-- An action said something. -/
  | said (text : String)
  /-- An action looked around. -/
  | probed (kind : Kind) (serial : Serial) (paused ownerAlive : Bool) (meter : Meter)
deriving DecidableEq

/-- A hook under way: what it has done so far. -/
structure Progress where
  meter : Meter
  paused : Bool
  requests : List Destination
  notes : List Note
  breakdown : Option String

namespace Progress

/-- Adds a note. -/
def note (progress : Progress) (entry : Note) : Progress :=
  { progress with notes := progress.notes ++ [entry] }

/-- Adds a request. -/
def ask (progress : Progress) (target : Destination) : Progress :=
  { progress with requests := progress.requests ++ [target] }

/-- Whether a destination can still be asked for: a state in a slot only if the slot holds one that
this hook has not asked for. -/
def offers (progress : Progress) (view : View Meter) : Destination → Bool
  | .fresh _ => true
  | .held slot => view.holds slot && !progress.requests.contains (.held slot)

/-- Carries out an effect. -/
def carryOut (view : View Meter) (progress : Progress) : Effect → Progress
  | .switchTo target =>
      if progress.offers view target then progress.ask target
      else match target with
        | .held slot => progress.note (.emptySlot slot)
        | .fresh _ => progress
  | .restart => progress.ask (.fresh view.kind)
  | .pause paused => { progress with paused := paused }
  | .add amount =>
      { progress with meter := { progress.meter with counter := progress.meter.counter + amount } }
  | .say text => progress.note (.said text)
  | .probe =>
      progress.note (.probed view.kind view.serial progress.paused true progress.meter)
  | .breakOff message => { progress with breakdown := some message }

end Progress

namespace Action

/-- Whether an action is to be carried out, given how often its hook was called. -/
def applies (action : Action) (count : Nat) (meter : Meter) : Bool :=
  action.onCall.all (count = ·) && action.fromCall.all (· ≤ count) &&
    action.counterBelow.all (meter.counter < ·) && action.counterFrom.all (· ≤ meter.counter)

/-- Carries out actions in order, until one breaks off. -/
def carryOutAll (view : View Meter) (count : Nat) : List Action → Progress → Progress
  | [], progress => progress
  | action :: more, progress =>
      if action.applies count progress.meter then
        let next := progress.carryOut view action.effect
        if next.breakdown.isSome then next else carryOutAll view count more next
      else carryOutAll view count more progress

end Action

namespace Calls

/-- How often a hook was called. -/
def of (calls : Calls) : Hook → Nat
  | .enter => calls.enter
  | .tick _ => calls.tick
  | .exit => calls.exit
  | .restart => calls.restart

/-- Counts one more call of a hook. -/
def add (calls : Calls) : Hook → Calls
  | .enter => { calls with enter := calls.enter + 1 }
  | .tick _ => { calls with tick := calls.tick + 1 }
  | .exit => { calls with exit := calls.exit + 1 }
  | .restart => { calls with restart := calls.restart + 1 }

end Calls

/-- The actions for a hook, unless the script leaves the hook to its default. -/
def Script.actions (script : Script) : Hook → Option (List Action)
  | .enter => some script.enter
  | .tick _ => some script.tick
  | .exit => some script.exit
  | .restart => script.restart

namespace Actor

/-- What a state does at a hook that its script leaves alone: it asks for a new state of its own
kind at a restart, and does nothing otherwise. -/
def byDefault (actor : Actor) (hook : Hook) (view : View Meter) : Reaction Actor Meter Note :=
  match hook with
  | .restart => .replace actor view
  | _ => .idle actor view

/-- The reaction of a scripted or idle state to a hook. -/
def react (hook : Hook) (actor : Actor) (view : View Meter) : Reaction Actor Meter Note :=
  match actor with
  | .idle => byDefault .idle hook view
  | .scripted script calls =>
      match script.actions hook with
      | none => byDefault actor hook view
      | some actions =>
          let counted := calls.add hook
          let count := counted.of hook
          let progress := Action.carryOutAll view count actions
            { meter := view.data
              paused := view.paused
              requests := []
              notes := [.called hook view.kind view.serial count]
              breakdown := none }
          { behavior := .scripted script counted
            data := progress.meter
            paused := progress.paused
            requests := progress.requests
            notes := progress.notes
            breakdown := progress.breakdown }

/-- How scripted and idle states behave. -/
def conduct : Conduct Actor Meter Note where
  react := react
  reset := Meter.reset

/-- What a journal entry shows of scripted states.  The use of an idle prototype does not show. -/
def noteOf? : Entry Actor Note → Option Note
  | .noted note => some note
  | .copied kind (.scripted _ _) => some (.copied kind)
  | _ => none

/-- The log event of a journal entry. -/
def logOf? : Entry Actor Note → Option LogEvent
  | .logged event => some event
  | _ => none

end Actor
end TickMachine
