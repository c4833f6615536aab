import TickMachine.Kernel.Run

/-!
# Transitions

How requests become transitions.  In immediate mode a transition is made at once: the current
state exits and the next one enters.  In deferred mode it becomes the pending transition and lets
go the one that was pending before.  A state that is let go is parked if the stack refers to it
and is dropped otherwise.

What hooks ask for waits in the inbox and is served when the transition or tick that ran them is
over, until the inbox is empty; in immediate mode there is a limit on how many requests are served
in a row.  What was posted through handles is served at the start of the next call, each request
with a fresh limit.
-/

namespace TickMachine
namespace Kernel

variable {β D N : Type}

/-! ## Making transitions -/

/-- Parks a state that the stack refers to, and drops any other. -/
def parkOrDrop (subject : Instance β) : Kernel β D N Unit := do
  if subject.serial ∈ (← machine).stack then
    log (.parked subject.serial)
    changeMachine fun machine =>
      { machine with parked := machine.parked.insert subject.serial subject }
  else
    log (.dropped subject.serial)

/-- Lets a transition go that is not going to be made. -/
def letGo : Transition β → Kernel β D N Unit
  | .replace next => parkOrDrop next
  | .reenter _ _ => pure ()

/-- Adds a transition to the history. -/
def addToHistory (source target : Option Kind) (subject : Option Serial) : Kernel β D N Unit :=
  modify fun run => run.mapMachine fun machine =>
    { machine with history := machine.history.record ⟨source, target, subject, run.now⟩ }

/-- Takes the current state out of the machine and calls its exit hook.  The result is the state
after its exit, if there was one. -/
def exitCurrent (conduct : Conduct β D N) : Kernel β D N (Option (Instance β)) := do
  match (← machine).current with
  | none => pure none
  | some subject =>
      changeMachine fun machine => { machine with current := none }
      let after ← callExit conduct subject
      pure (some after)

/-- Makes a state current and calls its enter hook. -/
def enterNext (conduct : Conduct β D N) (next : Instance β) : Kernel β D N Unit := do
  changeMachine fun machine => { machine with current := some next, everEntered := true }
  callCurrent conduct .enter

/-- Replaces the current state by another one. -/
def replaceCurrent (conduct : Conduct β D N) (next : Instance β) : Kernel β D N Unit := do
  let before ← machine
  match ← exitCurrent conduct with
  | none => pure ()
  | some previous => parkOrDrop previous
  addToHistory before.currentKind (some next.kind) (some next.serial)
  enterNext conduct next
  log (.entered next.kind (before.shownName next.kind) next.serial)

/-- Lets the current state exit and enter again, if it has the given number. -/
def reenterCurrent (conduct : Conduct β D N) (kind : Kind) (serial : Serial) :
    Kernel β D N Unit := do
  let before ← machine
  if before.currentSerial = some serial then
    callCurrent conduct .exit
    callCurrent conduct .enter
    addToHistory before.currentKind (some kind) (some serial)
    log (.reentered kind serial)
  else
    log (.reenterSkipped serial)

/-- Makes a transition. -/
def carryOut (conduct : Conduct β D N) : Transition β → Kernel β D N Unit
  | .replace next => replaceCurrent conduct next
  | .reenter kind serial => reenterCurrent conduct kind serial

/-- Lets go the transition that was pending before another one, and names its state if it is not
that of the other one. -/
def supersede (previous : Option (Transition β)) (next : Serial) :
    Kernel β D N (Option Serial) := do
  match previous with
  | none => pure none
  | some transition =>
      letGo transition
      if transition.serial = next then
        pure none
      else
        log (.superseded transition.serial next)
        pure (some transition.serial)

/-- Makes a transition the pending one. -/
def defer (transition : Transition β) : Kernel β D N Outcome := do
  let before ← machine
  changeMachine fun machine => { machine with pending := some transition }
  let discarded ← supersede before.pending transition.serial
  log (.deferred transition.kind (before.shownName transition.kind) transition.serial)
  pure (.deferred transition.kind transition.serial discarded)

/-- Makes a transition now, or the pending one, as the configuration says. -/
def submit (conduct : Conduct β D N) (transition : Transition β) : Kernel β D N Outcome := do
  if (← machine).config.immediate then
    carryOut conduct transition
    pure (.applied transition.kind transition.serial)
  else
    defer transition

/-! ## Serving the inbox -/

/-- Takes the oldest request out of the inbox. -/
def nextRequest : Kernel β D N (Option (Request β)) :=
  modifyGet fun run =>
    match run.machine.inbox with
    | [] => (none, run)
    | first :: more =>
        (some first, run.mapMachine fun machine => { machine with inbox := more })

/-- The machine with an empty inbox. -/
def emptied (machine : Machine β D) : Machine β D :=
  { machine with inbox := [] }

/-- Serves one request of a hook.  If it cannot be taken up, the inbox is emptied. -/
def serveAsked (conduct : Conduct β D N) (asked : Request β) : Kernel β D N Unit := do
  let transition ← orMend (takeUp .hook asked) emptied
  let _ ← submit conduct transition

/-- Gives up on a chain of requests that is too long, and empties the inbox. -/
def abortChain : Kernel β D N Unit := do
  let limit := (← machine).config.chainLimit
  changeMachine emptied
  log (.chainAborted limit)
  refuse (.chainTooLong limit)

/-- Serves the requests of hooks until the inbox is empty, at most as many as the budget says. -/
def serveWithin (conduct : Conduct β D N) : Nat → Kernel β D N Unit
  | 0 => do
      if (← machine).inbox.isEmpty then pure () else abortChain
  | budget + 1 => do
      match ← nextRequest with
      | none => pure ()
      | some asked =>
          serveAsked conduct asked
          serveWithin conduct budget

/-- How many requests may be served in a row.  In deferred mode no request runs a hook, so there
are only those that wait already. -/
def chainBudget (machine : Machine β D) : Nat :=
  if machine.config.immediate then machine.config.chainLimit.toNat
  else machine.inbox.length

/-- Serves the requests of hooks until the inbox is empty. -/
def serveHooks (conduct : Conduct β D N) : Kernel β D N Unit := do
  serveWithin conduct (chainBudget (← machine))

/-- Serves one request that was posted through a handle, and what its hooks ask for. -/
def servePosted (conduct : Conduct β D N) (posted : Request β) : Kernel β D N Unit := do
  let transition ← takeUp .handle posted
  let _ ← submit conduct transition
  serveHooks conduct

/-- Serves requests that were posted through handles, in order.  If one is refused, those after
it go back to the front of the inbox. -/
def serveInOrder (conduct : Conduct β D N) : List (Request β) → Kernel β D N Unit
  | [] => pure ()
  | posted :: more => do
      orMend (servePosted conduct posted) fun machine =>
        { machine with inbox := more ++ machine.inbox }
      serveInOrder conduct more

/-- Serves all requests that were posted through handles since the last call. -/
def serveHandles (conduct : Conduct β D N) : Kernel β D N Unit := do
  let queued := (← machine).inbox
  changeMachine emptied
  serveInOrder conduct queued

end Kernel
end TickMachine
