import TickMachine.Journal

/-!
# Runs

A call of a machine works on a run: the machine, the states that callers hold, the journal and the
clock.  It ends with a value, or it is interrupted, by a refusal or by a hook that breaks off.
Whatever the call had done before an interruption stays done.
-/

namespace TickMachine

/-- What a call of a machine works on. -/
structure Run (β D N : Type) where
  machine : Machine β D
  hands : Hands β
  journal : Array (Entry β N)
  now : Instant

/-- Why a call of a machine ends before its time. -/
inductive Interruption where
  /-- The machine refuses the call or what is left of it. -/
  | refused (refusal : Refusal)
  /-- A hook breaks off with a message. -/
  | brokenOff (message : String)
deriving DecidableEq

/-- A program that works on a run and may be interrupted.  An interruption keeps the run as it
is. -/
abbrev Kernel (β D N : Type) := EStateM Interruption (Run β D N)

namespace Run

variable {β D N : Type}

/-- Adds an entry to the journal. -/
def write (run : Run β D N) (entry : Entry β N) : Run β D N :=
  { run with journal := run.journal.push entry }

/-- Changes the machine. -/
def mapMachine (run : Run β D N) (change : Machine β D → Machine β D) : Run β D N :=
  { run with machine := change run.machine }

/-- Puts a request at the end of the inbox. -/
def enqueue (run : Run β D N) (request : Request β) : Run β D N :=
  run.mapMachine fun machine => { machine with inbox := machine.inbox ++ [request] }

/-- The request for a destination.  A state that is held leaves its slot; an empty slot makes no
request. -/
def take (run : Run β D N) : Destination → Option (Request β) × Run β D N
  | .fresh kind => (some (.fresh kind), run)
  | .held slot =>
      match run.hands[slot]? with
      | none => (none, run)
      | some subject => (some (.existing subject), { run with hands := run.hands.erase slot })

/-- Makes a hook's request. -/
def ask (run : Run β D N) (destination : Destination) : Run β D N :=
  match run.take destination with
  | (none, after) => after
  | (some request, after) => after.enqueue request

/-- What a hook of a state sees. -/
def view (run : Run β D N) (subject : Instance β) : View D :=
  let hands := run.hands
  { kind := subject.kind
    serial := subject.serial
    paused := subject.paused
    data := run.machine.data
    holds := fun slot => hands.contains slot }

/-- Calls a hook of a state: the state after it, the message with which the hook broke off if it
did, and the run after all that the hook did. -/
def react (conduct : Conduct β D N) (hook : Hook) (subject : Instance β) (run : Run β D N) :
    (Instance β × Option String) × Run β D N :=
  let reaction := conduct.react hook subject.behavior (run.view subject)
  let after := { subject with behavior := reaction.behavior, paused := reaction.paused }
  let called := run.write (.called hook subject.kind subject.serial)
  let reported := reaction.notes.foldl (fun run note => run.write (.noted note)) called
  let changed := reported.mapMachine fun machine => { machine with data := reaction.data }
  ((after, reaction.breakdown), reaction.requests.foldl ask changed)

end Run

namespace Kernel

variable {β D N : Type}

/-- The machine at this point of the program. -/
def machine : Kernel β D N (Machine β D) := do
  let run ← get
  pure run.machine

/-- Changes the machine. -/
def changeMachine (change : Machine β D → Machine β D) : Kernel β D N Unit :=
  modify fun run => run.mapMachine change

/-- Adds an entry to the journal. -/
def write (entry : Entry β N) : Kernel β D N Unit :=
  modify fun run => run.write entry

/-- Logs an event. -/
def log (event : LogEvent) : Kernel β D N Unit :=
  write (.logged event)

/-- Refuses to go on. -/
def refuse {α : Type} (refusal : Refusal) : Kernel β D N α :=
  throw (.refused refusal)

/-- Interrupts the program if a hook broke off. -/
def breakOff : Option String → Kernel β D N Unit
  | none => pure ()
  | some message => throw (.brokenOff message)

/-- Runs a program and mends the machine if the program refuses.  If a hook breaks off, the machine
is left as it is. -/
def orMend {α : Type} (program : Kernel β D N α) (mend : Machine β D → Machine β D) :
    Kernel β D N α := fun run =>
  match program run with
  | .error (.refused refusal) after => .error (.refused refusal) (after.mapMachine mend)
  | result => result

/-- Calls a hook of the current state, if there is one.  The state stays where it is, with what
the hook did to it, even if the hook breaks off. -/
def callCurrent (conduct : Conduct β D N) (hook : Hook) : Kernel β D N Unit := do
  match (← machine).current with
  | none => pure ()
  | some subject =>
      let (after, breakdown) ← modifyGet fun run => run.react conduct hook subject
      changeMachine fun machine => { machine with current := some after }
      breakOff breakdown

/-- Calls the exit hook of a state that has been taken out of the machine.  If the hook breaks
off, the state is lost. -/
def callExit (conduct : Conduct β D N) (subject : Instance β) : Kernel β D N (Instance β) := do
  let (after, breakdown) ← modifyGet fun run => run.react conduct .exit subject
  breakOff breakdown
  pure after

/-- Makes a state and gives it the next number. -/
def makeState (kind : Kind) (behavior : β) : Kernel β D N (Instance β) := do
  let before ← machine
  let serial : Serial := ⟨before.made + 1⟩
  changeMachine fun machine => { machine with made := machine.made + 1 }
  log (.made kind (before.shownName kind) serial)
  pure { kind, serial, owner := before.id, paused := false, behavior }

/-- The prototype of a registered kind.  To copy it stands for the call of a factory, which is taken
to be a constant: the call shows in the journal and has no other effect, and it cannot break off. -/
def copyPrototype (kind : Kind) : Kernel β D N β := do
  match (← machine).registry.prototype kind with
  | .error refusal => refuse refusal
  | .ok behavior =>
      write (.copied kind behavior)
      pure behavior

/-- Makes a state of a registered kind from its prototype. -/
def makeOfKind (kind : Kind) : Kernel β D N (Instance β) := do
  let behavior ← copyPrototype kind
  makeState kind behavior

/-- Takes up a request.  A state that another machine made is refused. -/
def takeUp (origin : Origin) (request : Request β) : Kernel β D N (Transition β) := do
  write (.taken origin request.label)
  match request with
  | .fresh kind =>
      let subject ← makeOfKind kind
      pure (.replace subject)
  | .existing subject =>
      if subject.owner = (← machine).id then pure (.replace subject)
      else refuse (.foreign subject.serial)

end Kernel
end TickMachine
