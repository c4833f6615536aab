import TickMachine.Kernel.Call

/-!
# Operations

What the owner of one machine does to it, as values: the calls, the posting of requests through a
handle, and the making of states that the owner keeps in slots.  A sequence of operations is then a
list, and what happens in it is a function of the list.

An owner who can write to the current state in place is taken to set its paused flag and to do
nothing else: no operation exchanges the current state for another one without a transition.
-/

namespace TickMachine

/-- What can be done to a machine. -/
inductive Operation (β D : Type) where
  /-- Request a transition. -/
  | switchTo (target : Destination)
  /-- Let time pass. -/
  | tick (delta : Single)
  /-- Remember the current state, if there is one. -/
  | push
  /-- Remember the current state, which there must be. -/
  | pushCurrent
  /-- Come back to the state that was pushed last. -/
  | pop
  /-- Ask the current state to have itself replaced. -/
  | restart
  /-- Enter the shutdown state, or leave the current state for good. -/
  | shutdown
  /-- Reset the data. -/
  | reset
  /-- Set the paused flag of the current state.  This is all that writing to the current state in
  place is used for; to exchange it for another state is no operation. -/
  | pause (paused : Bool)
  /-- Set the data. -/
  | setData (data : D)
  /-- Post a request through a handle. -/
  | post (target : Destination)
  /-- Use the prototype of a kind, without making a state. -/
  | tryKind (kind : Kind)
  /-- Make a state of a registered kind and keep it in a slot. -/
  | create (kind : Kind) (slot : Slot)
  /-- Make a state with a given behaviour and keep it in a slot. -/
  | adopt (kind : Kind) (behavior : β) (slot : Slot)
  /-- Set the paused flag of a state in a slot. -/
  | pauseHeld (slot : Slot) (paused : Bool)

/-- What an operation answers. -/
inductive Reply where
  /-- It was done, and there is nothing to say about it. -/
  | done
  /-- It was done, or there was nothing to do it to. -/
  | flag (value : Bool)
  /-- The current state was pushed. -/
  | pushed (serial : Serial)
  /-- A transition was requested. -/
  | outcome (found : Outcome)
  /-- There was no transition to request. -/
  | nothing
  /-- A slot holds the state that the operation is about. -/
  | holding (slot : Slot)
  /-- The slot was empty, and nothing was done. -/
  | emptySlot
deriving DecidableEq

/-- The reply to a call that may have requested a transition. -/
def Reply.ofOutcome : Option Outcome → Reply
  | none => .nothing
  | some found => .outcome found

/-- Sets the paused flag of a state in a slot. -/
def Hands.pause {β : Type} (hands : Hands β) (slot : Slot) (paused : Bool) : Hands β :=
  match hands[slot]? with
  | none => hands
  | some subject => hands.insert slot { subject with paused := paused }

namespace Kernel

variable {β D N : Type}

/-- Keeps a state in a slot. -/
def hold (slot : Slot) (subject : Instance β) : Kernel β D N Unit :=
  modify fun run => { run with hands := run.hands.insert slot subject }

/-- Takes the request for a destination out of the caller's hands. -/
def takeTarget (target : Destination) : Kernel β D N (Option (Request β)) :=
  modifyGet fun run => run.take target

/-- Posts a request through a handle. -/
def post (posted : Request β) : Kernel β D N Unit :=
  modify fun run => (run.write (.posted posted.label)).enqueue posted

/-- Does an operation. -/
def perform (conduct : Conduct β D N) : Operation β D → Kernel β D N Reply
  | .switchTo target => do
      match ← takeTarget target with
      | none => pure .emptySlot
      | some wanted => do
          let outcome ← switchTo conduct wanted
          pure (.outcome outcome)
  | .tick delta => do
      tick conduct delta
      pure .done
  | .push => do
      let pushed ← push
      pure (.flag pushed)
  | .pushCurrent => do
      let serial ← pushCurrent
      pure (.pushed serial)
  | .pop => do
      let outcome ← pop conduct
      pure (.ofOutcome outcome)
  | .restart => do
      restart conduct
      pure .done
  | .shutdown => do
      let outcome ← shutdown conduct
      pure (.ofOutcome outcome)
  | .reset => do
      reset conduct
      pure .done
  | .pause paused => do
      let found ← pauseCurrent paused
      pure (.flag found)
  | .setData data => do
      setData data
      pure .done
  | .post target => do
      match ← takeTarget target with
      | none => pure .emptySlot
      | some posted => do
          post posted
          pure .done
  | .tryKind kind => do
      let _ ← copyPrototype kind
      pure .done
  | .create kind slot => do
      let subject ← makeOfKind kind
      hold slot subject
      pure (.holding slot)
  | .adopt kind behavior slot => do
      let subject ← makeState kind behavior
      hold slot subject
      pure (.holding slot)
  | .pauseHeld slot paused => do
      if (← get).hands.contains slot then
        modify fun run => { run with hands := run.hands.pause slot paused }
        pure (.holding slot)
      else
        pure .emptySlot

end Kernel

namespace Run

variable {β D N : Type}

/-- Does an operation on a run at a given time: what it answers, and the run after it. -/
def perform (conduct : Conduct β D N) (run : Run β D N) (now : Instant)
    (operation : Operation β D) : Except Interruption Reply × Run β D N :=
  match Kernel.perform conduct operation { run with now := now } with
  | .ok reply after => (.ok reply, after)
  | .error interruption after => (.error interruption, after)

/-- Does operations in order, whatever each of them answers. -/
def performAll (conduct : Conduct β D N) (run : Run β D N) :
    List (Instant × Operation β D) → List (Except Interruption Reply) × Run β D N
  | [] => ([], run)
  | (now, operation) :: more =>
      let (reply, after) := run.perform conduct now operation
      let (replies, final) := after.performAll conduct more
      (reply :: replies, final)

end Run
end TickMachine
