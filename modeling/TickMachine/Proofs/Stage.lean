import Mathlib.Logic.Relation
import TickMachine.Proofs.Effect

/-!
# Stages of a call

Between two of its steps a call of a machine holds things that are not in the run: requests that it
has taken out of the inbox or of the caller's hands, and states that are on their way from one
place to another.  A stage is a run together with what the call holds.  The step relation says
everything that can happen between two stages.  A hook is called within one step, together with
the move of the state that it belongs to, so that an invariant has to hold between calls of hooks
only.

The relation allows more orders of steps than the programs of the kernel have.  It is used to prove
what holds at every stage.
-/

namespace TickMachine

variable {β D N : Type}

/-- What a call is doing. -/
inductive Phase (β : Type) where
  /-- Nothing is on its way. -/
  | idle
  /-- A transition has been found, and is to be made or deferred. -/
  | found (transition : Transition β)
  /-- A transition is to be made. -/
  | due (transition : Transition β)
  /-- A transition is not going to be made, and is to be let go. -/
  | spare (transition : Transition β)
  /-- No state is current any more, and the next one is to be entered.  A state that has exited has
  yet to be parked or dropped. -/
  | swapping (source : Option Kind) (previous : Option (Instance β)) (next : Instance β)
  /-- A state is to be entered, and this is part of the history already. -/
  | entering (next : Instance β)
  /-- The current state has exited, and perhaps entered again. -/
  | reentering (kind : Kind) (serial : Serial) (entered : Bool)
  /-- The current state has exited for good. -/
  | leaving (previous : Instance β)
  /-- The state to come back to was nowhere to be found, and the call is refused for this. -/
  | lost (serial : Serial)

/-- Whether a hook may just have run in a phase. -/
def Phase.IsHooked : Phase β → Prop
  | .idle | .swapping _ (some _) _ | .reentering _ _ _ | .leaving _ => True
  | _ => False

/-- A run together with what a call holds. -/
structure Stage (β D N : Type) where
  phase : Phase β
  /-- Requests that the call has taken, the one that it takes up next in front. -/
  batch : List (Request β)
  run : Run β D N

/-- The phase in which a call is left that is refused. -/
def Refusal.phase : Refusal → Phase β
  | .lost serial => .lost serial
  | _ => .idle

/-- Whether a journal entry is a call of a hook. -/
def Entry.IsCall : Entry β N → Prop
  | .called _ _ _ => True
  | _ => False

/-- The log event of an entry that is written only together with what it tells of: that a state was
made, parked, found again, or not found to be current. -/
def Entry.bound? : Entry β N → Option LogEvent
  | .logged (.made kind name serial) => some (.made kind name serial)
  | .logged (.parked serial) => some (.parked serial)
  | .logged (.popped serial depth) => some (.popped serial depth)
  | .logged (.reenterSkipped serial) => some (.reenterSkipped serial)
  | _ => none

/-- What happens only in certain operations.  Everything else can happen whenever requests are
served. -/
inductive Deed where
  /-- The owner of the machine sets the data. -/
  | setData
  /-- The owner of the machine sets the paused flag of the current state. -/
  | pause
  /-- A caller sets the paused flag of a state in hand. -/
  | pauseHeld
  /-- A state is made for a caller. -/
  | create
  /-- A request is posted through a handle. -/
  | post
  /-- A request that was posted through a handle is taken up. -/
  | serve
  /-- The current state is pushed. -/
  | push
  /-- A state is taken off the stack. -/
  | pop
  /-- The time has come to make the pending transition. -/
  | resume
  /-- The pending transition is given up. -/
  | abandon
  /-- The current state is ticked. -/
  | tick
  /-- The current state is asked to have itself replaced. -/
  | restart
  /-- The current state exits for good. -/
  | leave
deriving DecidableEq

/-- The deed that a journal entry tells of. -/
def Entry.deed? : Entry β N → Option Deed
  | .posted _ => some .post
  | .taken .handle _ => some .serve
  | _ => none

/-- What can happen between two stages if only the given deeds are done. -/
inductive Step (conduct : Conduct β D N) (deeds : List Deed) :
    Stage β D N → Stage β D N → Prop where
  /-- Something is written into the journal that does not belong to another step. -/
  | write {phase batch run} (entry : Entry β N) (quiet : ¬ entry.IsCall)
      (fits : ∀ deed ∈ entry.deed?, deed ∈ deeds) (loose : entry.bound? = none) :
      Step conduct deeds ⟨phase, batch, run⟩ ⟨phase, batch, run.write entry⟩
  /-- The owner of the machine sets the data. -/
  | setData {phase batch run} (data : D) (done : .setData ∈ deeds) :
      Step conduct deeds ⟨phase, batch, run⟩
        ⟨phase, batch, run.mapMachine fun machine => { machine with data := data }⟩
  /-- The owner of the machine sets the paused flag of the current state. -/
  | pause {phase batch run} (paused : Bool) (done : .pause ∈ deeds) :
      Step conduct deeds ⟨phase, batch, run⟩
        ⟨phase, batch, run.withCurrent
          (run.machine.current.map fun subject => { subject with paused := paused })⟩
  /-- A caller sets the paused flag of a state in hand. -/
  | pauseHeld {phase batch run} (slot : Slot) (paused : Bool)
      (done : .pauseHeld ∈ deeds) :
      Step conduct deeds ⟨phase, batch, run⟩
        ⟨phase, batch, { run with hands := run.hands.pause slot paused }⟩
  /-- A request is taken out of a caller's hands. -/
  | take {phase batch run} (destination : Destination) (request : Request β)
      (taken : (run.take destination).1 = some request) :
      Step conduct deeds ⟨phase, batch, run⟩
        ⟨phase, request :: batch, (run.take destination).2⟩
  /-- A request is put into the inbox. -/
  | enqueue {phase batch run} (request : Request β) :
      Step conduct deeds ⟨phase, request :: batch, run⟩ ⟨phase, batch, run.enqueue request⟩
  /-- A request is lost. -/
  | lose {phase batch run} (request : Request β) :
      Step conduct deeds ⟨phase, request :: batch, run⟩ ⟨phase, batch, run⟩
  /-- All requests are taken out of the inbox. -/
  | draw {phase batch run} :
      Step conduct deeds ⟨phase, batch, run⟩
        ⟨phase, run.machine.inbox ++ batch, run.mapMachine Kernel.emptied⟩
  /-- The oldest request is taken out of the inbox. -/
  | next {phase batch run} (request : Request β) (more : List (Request β))
      (waiting : run.machine.inbox = request :: more) :
      Step conduct deeds ⟨phase, batch, run⟩
        ⟨phase, request :: batch, run.mapMachine fun machine => { machine with inbox := more }⟩
  /-- All requests in the inbox are lost. -/
  | clear {phase batch run} :
      Step conduct deeds ⟨phase, batch, run⟩ ⟨phase, batch, run.mapMachine Kernel.emptied⟩
  /-- Requests are put back in front of the inbox. -/
  | giveBack {phase batch run} (requests : List (Request β)) :
      Step conduct deeds ⟨phase, requests ++ batch, run⟩
        ⟨phase, batch, run.mapMachine fun machine =>
          { machine with inbox := requests ++ machine.inbox }⟩
  /-- A state is made for a request. -/
  | make {batch run} (kind : Kind) (behavior : β)
      (concrete : run.machine.registry.prototype kind = .ok behavior) :
      Step conduct deeds ⟨.idle, .fresh kind :: batch, run⟩
        ⟨.found (.replace (run.newborn kind behavior)), batch, run.counted kind⟩
  /-- The state of a request belongs to the machine. -/
  | accept {batch run} (subject : Instance β) (own : subject.owner = run.machine.id) :
      Step conduct deeds ⟨.idle, .existing subject :: batch, run⟩
        ⟨.found (.replace subject), batch, run⟩
  /-- A state is made for a caller. -/
  | create {batch run} (kind : Kind) (behavior : β) (slot : Slot)
      (done : .create ∈ deeds) :
      Step conduct deeds ⟨.idle, batch, run⟩
        ⟨.idle, batch, { run.counted kind with
          hands := run.hands.insert slot (run.newborn kind behavior) }⟩
  /-- A transition is to be made at once. -/
  | urge {batch run} (transition : Transition β)
      (immediate : run.machine.config.immediate = true) :
      Step conduct deeds ⟨.found transition, batch, run⟩ ⟨.due transition, batch, run⟩
  /-- A transition becomes the pending one. -/
  | defer {batch run} (transition : Transition β)
      (patient : run.machine.config.immediate = false)
      (free : run.machine.pending = none) :
      Step conduct deeds ⟨.found transition, batch, run⟩
        ⟨.idle, batch, run.mapMachine fun machine =>
          { machine with pending := some transition }⟩
  /-- A transition becomes the pending one in place of another. -/
  | supersede {batch run} (transition previous : Transition β)
      (patient : run.machine.config.immediate = false)
      (occupied : run.machine.pending = some previous) :
      Step conduct deeds ⟨.found transition, batch, run⟩
        ⟨.spare previous, batch, run.mapMachine fun machine =>
          { machine with pending := some transition }⟩
  /-- A state that is not going to be entered is parked or dropped. -/
  | letGo {batch run} (subject : Instance β) :
      Step conduct deeds ⟨.spare (.replace subject), batch, run⟩
        ⟨.idle, batch, run.released subject⟩
  /-- The current state is not going to enter again. -/
  | forget {batch run} (kind : Kind) (serial : Serial) :
      Step conduct deeds ⟨.spare (.reenter kind serial), batch, run⟩ ⟨.idle, batch, run⟩
  /-- The time has come to make the pending transition. -/
  | resume {batch run} (transition : Transition β)
      (occupied : run.machine.pending = some transition)
      (done : .resume ∈ deeds) :
      Step conduct deeds ⟨.idle, batch, run⟩
        ⟨.due transition, batch, run.mapMachine fun machine => { machine with pending := none }⟩
  /-- The pending transition is given up. -/
  | abandon {batch run} (transition : Transition β)
      (occupied : run.machine.pending = some transition)
      (done : .abandon ∈ deeds) :
      Step conduct deeds ⟨.idle, batch, run⟩
        ⟨.spare transition, batch, run.mapMachine fun machine => { machine with pending := none }⟩
  /-- The current state is pushed. -/
  | push {batch run} (subject : Instance β) (present : run.machine.current = some subject)
      (done : .push ∈ deeds) :
      Step conduct deeds ⟨.idle, batch, run⟩
        ⟨.idle, batch, run.mapMachine fun machine =>
          { machine with stack := subject.serial :: machine.stack }⟩
  /-- The state that was pushed last is found where it is. -/
  | pop {batch run} (serial : Serial) (below : List Serial) (transition : Transition β)
      (rest : Machine β D)
      (top : run.machine.stack = serial :: below)
      (retrieved : { run.machine with stack := below }.retrieve serial = some (transition, rest))
      (done : .pop ∈ deeds) :
      Step conduct deeds ⟨.idle, batch, run⟩
        ⟨.found transition, batch,
          Run.write { run with machine := rest } (.logged (.popped serial below.length))⟩
  /-- The state that was pushed last is nowhere to be found. -/
  | popLost {batch run} (serial : Serial) (below : List Serial)
      (top : run.machine.stack = serial :: below)
      (lost : { run.machine with stack := below }.retrieve serial = none)
      (done : .pop ∈ deeds) :
      Step conduct deeds ⟨.idle, batch, run⟩
        ⟨.lost serial, batch, run.mapMachine fun machine => { machine with stack := below }⟩
  /-- The current state is ticked. -/
  | tick {batch run} (subject : Instance β) (delta : Single)
      (present : run.machine.current = some subject)
      (awake : subject.paused = false)
      (done : .tick ∈ deeds) :
      Step conduct deeds ⟨.idle, batch, run⟩
        ⟨.idle, batch, run.hooked conduct (.tick delta) subject⟩
  /-- The current state is asked to have itself replaced. -/
  | restart {batch run} (subject : Instance β) (present : run.machine.current = some subject)
      (done : .restart ∈ deeds) :
      Step conduct deeds ⟨.idle, batch, run⟩
        ⟨.idle, batch, run.hooked conduct .restart subject⟩
  /-- The current state exits, and another one is to be entered. -/
  | exit {batch run} (subject next : Instance β)
      (present : run.machine.current = some subject) :
      Step conduct deeds ⟨.due (.replace next), batch, run⟩
        ⟨.swapping (some subject.kind)
            (some ((run.withCurrent none).settled conduct .exit subject)) next,
          batch, (run.withCurrent none).reacted conduct .exit subject⟩
  /-- No state is current, and one is to be entered. -/
  | vacant {batch run} (next : Instance β) (absent : run.machine.current = none) :
      Step conduct deeds ⟨.due (.replace next), batch, run⟩
        ⟨.swapping none none next, batch, run⟩
  /-- A state that has exited is parked or dropped. -/
  | release {batch run} (source : Option Kind) (previous next : Instance β) :
      Step conduct deeds ⟨.swapping source (some previous) next, batch, run⟩
        ⟨.swapping source none next, batch, run.released previous⟩
  /-- That another state is entered becomes part of the history. -/
  | record {batch run} (source : Option Kind) (next : Instance β) :
      Step conduct deeds ⟨.swapping source none next, batch, run⟩
        ⟨.entering next, batch, run.recorded source (some next.kind) (some next.serial)⟩
  /-- A state becomes current and is entered. -/
  | enter {batch run} (next : Instance β) (absent : run.machine.current = none) :
      Step conduct deeds ⟨.entering next, batch, run⟩
        ⟨.idle, batch, (run.entering next).hooked conduct .enter next⟩
  /-- The current state exits, in order to enter again. -/
  | exitInPlace {batch run} (kind : Kind) (subject : Instance β)
      (present : run.machine.current = some subject) :
      Step conduct deeds ⟨.due (.reenter kind subject.serial), batch, run⟩
        ⟨.reentering kind subject.serial false, batch, run.hooked conduct .exit subject⟩
  /-- The current state enters again. -/
  | enterAgain {batch run} (kind : Kind) (subject : Instance β)
      (present : run.machine.current = some subject) :
      Step conduct deeds ⟨.reentering kind subject.serial false, batch, run⟩
        ⟨.reentering kind subject.serial true, batch, run.hooked conduct .enter subject⟩
  /-- That the current state entered again becomes part of the history. -/
  | recordAgain {batch run} (kind : Kind) (subject : Instance β)
      (present : run.machine.current = some subject) :
      Step conduct deeds ⟨.reentering kind subject.serial true, batch, run⟩
        ⟨.idle, batch, run.recorded (some subject.kind) (some kind) (some subject.serial)⟩
  /-- A state that should enter again is not current. -/
  | skip {batch run} (kind : Kind) (serial : Serial)
      (elsewhere : run.machine.currentSerial ≠ some serial) :
      Step conduct deeds ⟨.due (.reenter kind serial), batch, run⟩
        ⟨.idle, batch, run.write (.logged (.reenterSkipped serial))⟩
  /-- The current state exits for good. -/
  | leave {batch run} (subject : Instance β)
      (present : run.machine.current = some subject)
      (free : run.machine.pending = none)
      (done : .leave ∈ deeds) :
      Step conduct deeds ⟨.idle, batch, run⟩
        ⟨.leaving ((run.withCurrent none).settled conduct .exit subject), batch,
          (run.withCurrent none).reacted conduct .exit subject⟩
  /-- That the current state exited for good becomes part of the history. -/
  | recordLeaving {batch run} (previous : Instance β) :
      Step conduct deeds ⟨.leaving previous, batch, run⟩
        ⟨.spare (.replace previous), batch, run.recorded (some previous.kind) none none⟩

/-- Any number of steps. -/
abbrev Steps (conduct : Conduct β D N) (deeds : List Deed) :
    Stage β D N → Stage β D N → Prop :=
  Relation.ReflTransGen (Step conduct deeds)

namespace Steps

variable {conduct : Conduct β D N} {deeds : List Deed} {phase : Phase β}
  {batch : List (Request β)} {run : Run β D N}

/-- Requests in front of the batch can be lost. -/
theorem lose_front (lost : List (Request β)) :
    Steps conduct deeds ⟨phase, lost ++ batch, run⟩ ⟨phase, batch, run⟩ := by
  induction lost with
  | nil => exact .refl
  | cons request more inductionHypothesis =>
      exact .head (.lose request) inductionHypothesis

/-- What every step preserves holds at the end of any number of steps. -/
theorem invariant
    {holds : Stage β D N → Prop}
    (preserved : ∀ before after, Step conduct deeds before after → holds before → holds after)
    {start final : Stage β D N}
    (steps : Steps conduct deeds start final)
    (initially : holds start) :
    holds final := by
  induction steps with
  | refl => exact initially
  | tail _ step inductionHypothesis => exact preserved _ _ step inductionHypothesis

end Steps
end TickMachine
