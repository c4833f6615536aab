import TickMachine.Kernel.Transition

/-!
# Calls

The calls of a machine by its owner.  Most of them first serve what was posted through handles,
then do their own work, and then serve what the hooks asked for.
-/

namespace TickMachine
namespace Kernel

variable {β D N : Type}

/-- Requests a transition. -/
def switchTo (conduct : Conduct β D N) (wanted : Request β) : Kernel β D N Outcome := do
  serveHandles conduct
  let transition ← takeUp .caller wanted
  let outcome ← submit conduct transition
  serveHooks conduct
  pure outcome

/-- Takes the pending transition out of the machine. -/
def takePending : Kernel β D N (Option (Transition β)) :=
  modifyGet fun run =>
    (run.machine.pending, run.mapMachine fun machine => { machine with pending := none })

/-- Makes the pending transition, if there is one, and serves what its hooks ask for. -/
def carryOutPending (conduct : Conduct β D N) : Kernel β D N Unit := do
  match ← takePending with
  | none => pure ()
  | some transition =>
      carryOut conduct transition
      serveHooks conduct

/-- Ticks the current state, if there is one that is not paused. -/
def tickCurrent (conduct : Conduct β D N) (delta : Single) : Kernel β D N Unit := do
  match (← machine).current with
  | none => pure ()
  | some subject =>
      if subject.paused then log (.tickSkipped subject.serial)
      else callCurrent conduct (.tick delta)

/-- Makes the pending transition and then ticks the current state.  The time step must be a number
that is not negative. -/
def tick (conduct : Conduct β D N) (delta : Single) : Kernel β D N Unit := do
  if delta.isNaN || delta.isNegative then
    refuse (.badDelta delta)
  else
    serveHandles conduct
    carryOutPending conduct
    tickCurrent conduct delta
    serveHooks conduct

/-- Remembers the current state as one to come back to.  It does not exit. -/
def pushCurrent : Kernel β D N Serial := do
  match (← machine).current with
  | none => refuse .nothingCurrent
  | some subject =>
      changeMachine fun machine => { machine with stack := subject.serial :: machine.stack }
      log (.pushed subject.serial (← machine).stack.length)
      pure subject.serial

/-- Remembers the current state as one to come back to, and says whether there is one. -/
def push : Kernel β D N Bool := do
  match (← machine).current with
  | none =>
      log (.pushIgnored .nothingCurrent)
      pure false
  | some _ =>
      let _ ← pushCurrent
      pure true

/-- Comes back to the state that was pushed last. -/
def pop (conduct : Conduct β D N) : Kernel β D N (Option Outcome) := do
  serveHandles conduct
  match (← machine).stack with
  | [] =>
      log .popIgnored
      pure none
  | serial :: below =>
      changeMachine fun machine => { machine with stack := below }
      match (← machine).retrieve serial with
      | none => refuse (.lost serial)
      | some (transition, rest) =>
          changeMachine fun _ => rest
          log (.popped serial below.length)
          let outcome ← submit conduct transition
          serveHooks conduct
          pure (some outcome)

/-- Asks the current state to have itself replaced. -/
def restart (conduct : Conduct β D N) : Kernel β D N Unit := do
  serveHandles conduct
  match (← machine).current with
  | none => log .restartIgnored
  | some _ =>
      callCurrent conduct .restart
      serveHooks conduct

/-- Lets the pending transition go because of a shutdown. -/
def dropPending : Kernel β D N Unit := do
  match ← takePending with
  | none => pure ()
  | some transition =>
      log (.pendingDropped transition.serial)
      letGo transition

/-- Lets the current state exit without another one to enter. -/
def exitForGood (conduct : Conduct β D N) : Kernel β D N Unit := do
  match ← exitCurrent conduct with
  | none => pure ()
  | some previous =>
      addToHistory (some previous.kind) none none
      log (.shutDown previous.kind previous.serial)
      parkOrDrop previous

/-- Enters the shutdown state, or exits the current state if there is no shutdown state. -/
def shutdown (conduct : Conduct β D N) : Kernel β D N (Option Outcome) := do
  serveHandles conduct
  let before ← machine
  match before.config.shutdown with
  | some kind =>
      log (.shuttingDown kind (before.shownName kind))
      let outcome ← switchTo conduct (.fresh kind)
      pure (some outcome)
  | none =>
      dropPending
      exitForGood conduct
      serveHooks conduct
      pure none

/-- Resets the data of the machine and nothing else. -/
def reset (conduct : Conduct β D N) : Kernel β D N Unit :=
  changeMachine fun machine => { machine with data := conduct.reset machine.data }

/-- Sets the data of the machine. -/
def setData (data : D) : Kernel β D N Unit :=
  changeMachine fun machine => { machine with data := data }

/-- Sets the paused flag of the current state, and says whether there is one. -/
def pauseCurrent (paused : Bool) : Kernel β D N Bool := do
  let current := (← machine).current
  changeMachine fun machine =>
    { machine with current := current.map fun subject => { subject with paused := paused } }
  pure current.isSome

end Kernel
end TickMachine
