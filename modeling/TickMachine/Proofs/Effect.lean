import TickMachine.Operation

/-!
# Effects of programs

A program of the kernel is a function of the run on which it starts.  This module gives the
primitive programs, the calls of hooks and the parking of a state as equations between runs, so
that a longer program can be followed from run to run.  A call of a hook adds to the journal,
replaces the shared data, and moves the states that the hook asks for from the caller's hands to
the end of the inbox.  It does nothing else.
-/

namespace TickMachine

variable {β D N α γ : Type}

/-! ## Requests for what callers hold -/

/-- The requests for destinations in order, and what is left in the hands.  A slot that is empty,
or was emptied by an earlier destination, makes no request. -/
def Hands.claim : List Destination → Hands β → List (Request β) × Hands β
  | [], hands => ([], hands)
  | .fresh kind :: more, hands =>
      (.fresh kind :: (claim more hands).1, (claim more hands).2)
  | .held slot :: more, hands =>
      match hands[slot]? with
      | none => claim more hands
      | some subject =>
          (.existing subject :: (claim more (hands.erase slot)).1,
            (claim more (hands.erase slot)).2)

/-! ## Identities -/

/-- What tells a state of a machine from all others. -/
def Instance.identity (subject : Instance β) : Kind × Serial :=
  (subject.kind, subject.serial)

/-- Whether a state is paused does not matter to its identity. -/
theorem Instance.map_identity_paused (current : Option (Instance β)) (paused : Bool) :
    (current.map fun subject => { subject with paused := paused }).map Instance.identity =
      current.map Instance.identity := by
  cases current <;> rfl

/-! ## Finding a state again -/

namespace Machine

private theorem map_ne_of_filter_eq_none
    {found : Option α}
    {number : α → Serial}
    {serial : Serial}
    (none_left : (found.filter fun value => number value = serial) = none) :
    found.map number ≠ some serial := by
  intro same
  obtain ⟨value, present, rfl⟩ := Option.map_eq_some_iff.mp same
  exact Option.filter_eq_none_iff.mp none_left value present (decide_eq_true rfl)

/-- A state is found among the parked ones, or else it is current, or else it is pending. -/
theorem retrieve_cases
    {machine rest : Machine β D}
    {serial : Serial}
    {transition : Transition β}
    (retrieved : machine.retrieve serial = some (transition, rest)) :
    (∃ found, machine.parked[serial]? = some found ∧
      transition = .replace found ∧
      rest = { machine with parked := machine.parked.erase serial }) ∨
    (serial ∉ machine.parked ∧
      ∃ subject, machine.current = some subject ∧ subject.serial = serial ∧
        transition = .reenter subject.kind serial ∧ rest = machine) ∨
    (serial ∉ machine.parked ∧ machine.currentSerial ≠ some serial ∧
      machine.pending = some transition ∧ transition.serial = serial ∧
      rest = { machine with pending := none }) := by
  unfold retrieve at retrieved
  split at retrieved
  next found parked =>
    cases retrieved
    exact .inl ⟨found, parked, rfl, rfl⟩
  next missing =>
    have unparked : serial ∉ machine.parked := by
      rw [Std.TreeMap.mem_iff_isSome_getElem?, missing]
      exact Bool.false_ne_true
    split at retrieved
    next subject here =>
      cases retrieved
      obtain ⟨present, same⟩ := Option.filter_eq_some_iff.mp here
      exact .inr (.inl ⟨unparked, subject, present, of_decide_eq_true same, rfl, rfl⟩)
    next elsewhere =>
      split at retrieved
      next pending due =>
        cases retrieved
        obtain ⟨waiting, same⟩ := Option.filter_eq_some_iff.mp due
        exact .inr (.inr ⟨unparked, map_ne_of_filter_eq_none elsewhere, waiting,
          of_decide_eq_true same, rfl⟩)
      next => nomatch retrieved

/-- To find a state again changes only what is parked and what is pending. -/
theorem retrieve_frame
    {machine rest : Machine β D}
    {serial : Serial}
    {transition : Transition β}
    (retrieved : machine.retrieve serial = some (transition, rest)) :
    ∃ parked pending, rest = { machine with parked := parked, pending := pending } := by
  obtain ⟨_, _, _, rfl⟩ | ⟨_, _, _, _, _, rfl⟩ | ⟨_, _, _, _, rfl⟩ := retrieve_cases retrieved
  · exact ⟨_, machine.pending, rfl⟩
  · exact ⟨rest.parked, rest.pending, rfl⟩
  · exact ⟨machine.parked, none, rfl⟩

/-- To find a state again has nothing to do with the configuration and the history. -/
theorem retrieve_alike
    (machine : Machine β D)
    (config : Config)
    (history : History)
    (serial : Serial) :
    retrieve { machine with config := config, history := history } serial =
      (machine.retrieve serial).map fun found =>
        (found.1, { found.2 with config := config, history := history }) := by
  unfold retrieve
  dsimp only
  cases machine.parked[serial]? with
  | some found => rfl
  | none =>
      cases machine.current.filter fun current => current.serial = serial with
      | some current => rfl
      | none => cases machine.pending.filter fun pending => pending.serial = serial <;> rfl

/-- A state that is not found is neither parked nor current nor pending. -/
theorem retrieve_eq_none
    {machine : Machine β D}
    {serial : Serial}
    (lost : machine.retrieve serial = none) :
    serial ∉ machine.parked ∧ machine.currentSerial ≠ some serial ∧
      machine.pendingSerial ≠ some serial := by
  unfold retrieve at lost
  split at lost
  next => nomatch lost
  next unparked =>
    split at lost
    next => nomatch lost
    next elsewhere =>
      split at lost
      next => nomatch lost
      next idle =>
        refine ⟨?_, map_ne_of_filter_eq_none elsewhere, map_ne_of_filter_eq_none idle⟩
        rw [Std.TreeMap.mem_iff_isSome_getElem?, unparked]
        exact Bool.false_ne_true

end Machine

namespace Run

@[simp] theorem mapMachine_machine
    (run : Run β D N)
    (change : Machine β D → Machine β D) :
    (run.mapMachine change).machine = change run.machine := rfl

@[simp] theorem mapMachine_hands
    (run : Run β D N)
    (change : Machine β D → Machine β D) :
    (run.mapMachine change).hands = run.hands := rfl

@[simp] theorem mapMachine_journal
    (run : Run β D N)
    (change : Machine β D → Machine β D) :
    (run.mapMachine change).journal = run.journal := rfl

@[simp] theorem write_machine (run : Run β D N) (entry : Entry β N) :
    (run.write entry).machine = run.machine := rfl

@[simp] theorem write_hands (run : Run β D N) (entry : Entry β N) :
    (run.write entry).hands = run.hands := rfl

@[simp] theorem write_journal (run : Run β D N) (entry : Entry β N) :
    (run.write entry).journal = run.journal.push entry := rfl

/-- To take a request out of the caller's hands changes only the hands. -/
theorem take_frame (run : Run β D N) (destination : Destination) :
    (run.take destination).2 = { run with hands := (run.take destination).2.hands } := by
  unfold take
  split
  · rfl
  · split <;> rfl

@[simp] theorem take_machine (run : Run β D N) (destination : Destination) :
    (run.take destination).2.machine = run.machine := by
  rw [take_frame]

@[simp] theorem take_journal (run : Run β D N) (destination : Destination) :
    (run.take destination).2.journal = run.journal := by
  rw [take_frame]

/-- Asking for destinations one by one claims them all. -/
theorem foldl_ask (destinations : List Destination) (run : Run β D N) :
    destinations.foldl ask run =
      { run with
        machine := { run.machine with
          inbox := run.machine.inbox ++ (run.hands.claim destinations).1 }
        hands := (run.hands.claim destinations).2 } := by
  induction destinations generalizing run with
  | nil => simp [Hands.claim]
  | cons destination more inductionHypothesis =>
      rw [List.foldl_cons, inductionHypothesis]
      cases destination with
      | fresh kind =>
          simp [ask, take, enqueue, mapMachine, Hands.claim, List.append_assoc]
      | held slot =>
          cases found : run.hands[slot]? with
          | none => simp [ask, take, Hands.claim, found]
          | some subject =>
              simp [ask, take, enqueue, mapMachine, Hands.claim, found, List.append_assoc]

private theorem foldl_noted (notes : List N) (run : Run β D N) :
    notes.foldl (fun run note => run.write (.noted note)) run =
      { run with journal := run.journal ++ (notes.map Entry.noted : List (Entry β N)) } := by
  induction notes generalizing run with
  | nil => simp
  | cons note more inductionHypothesis =>
      rw [List.foldl_cons, inductionHypothesis]
      simp [write]

/-! ## Calls of hooks -/

/-- The reaction of a state to a hook. -/
def reaction
    (run : Run β D N)
    (conduct : Conduct β D N)
    (hook : Hook)
    (subject : Instance β) : Reaction β D N :=
  conduct.react hook subject.behavior (run.view subject)

/-- A state after it has reacted to a hook. -/
def settled
    (run : Run β D N)
    (conduct : Conduct β D N)
    (hook : Hook)
    (subject : Instance β) : Instance β :=
  { subject with
    behavior := (run.reaction conduct hook subject).behavior
    paused := (run.reaction conduct hook subject).paused }

/-- The requests that a state makes when it reacts to a hook. -/
def asked
    (run : Run β D N)
    (conduct : Conduct β D N)
    (hook : Hook)
    (subject : Instance β) : List (Request β) :=
  (run.hands.claim (run.reaction conduct hook subject).requests).1

/-- The run after a state has reacted to a hook. -/
def reacted
    (run : Run β D N)
    (conduct : Conduct β D N)
    (hook : Hook)
    (subject : Instance β) : Run β D N where
  machine := { run.machine with
    data := (run.reaction conduct hook subject).data
    inbox := run.machine.inbox ++ run.asked conduct hook subject }
  hands := (run.hands.claim (run.reaction conduct hook subject).requests).2
  journal := run.journal.push (.called hook subject.kind subject.serial) ++
    ((run.reaction conduct hook subject).notes.map Entry.noted : List (Entry β N))
  now := run.now

theorem react_eq
    (run : Run β D N)
    (conduct : Conduct β D N)
    (hook : Hook)
    (subject : Instance β) :
    run.react conduct hook subject =
      ((run.settled conduct hook subject, (run.reaction conduct hook subject).breakdown),
        run.reacted conduct hook subject) := by
  unfold react
  simp only [foldl_noted, foldl_ask]
  rfl

/-- A state is asked in the same way whatever is current, pending or parked. -/
theorem asked_eq
    {run other : Run β D N}
    (conduct : Conduct β D N)
    (hook : Hook)
    (subject : Instance β)
    (hands : other.hands = run.hands)
    (data : other.machine.data = run.machine.data) :
    other.asked conduct hook subject = run.asked conduct hook subject := by
  simp only [asked, reaction, view, hands, data]

/-! ## Places -/

/-- Makes a state current, or none. -/
def withCurrent (run : Run β D N) (current : Option (Instance β)) : Run β D N :=
  run.mapMachine fun machine => { machine with current := current }

@[simp] theorem withCurrent_current (run : Run β D N) (current : Option (Instance β)) :
    (run.withCurrent current).machine.current = current := rfl

@[simp] theorem withCurrent_journal (run : Run β D N) (current : Option (Instance β)) :
    (run.withCurrent current).journal = run.journal := rfl

/-- Makes a state current that is going to be entered. -/
def entering (run : Run β D N) (next : Instance β) : Run β D N :=
  run.mapMachine fun machine => { machine with current := some next, everEntered := true }

@[simp] theorem entering_journal (run : Run β D N) (next : Instance β) :
    (run.entering next).journal = run.journal := rfl

/-- Adds a transition to the history. -/
def recorded
    (run : Run β D N)
    (source target : Option Kind)
    (subject : Option Serial) : Run β D N :=
  run.mapMachine fun machine =>
    { machine with history := machine.history.record ⟨source, target, subject, run.now⟩ }

/-- Parks a state that the stack refers to, and drops any other. -/
def released (run : Run β D N) (subject : Instance β) : Run β D N :=
  if subject.serial ∈ run.machine.stack then
    (run.write (.logged (.parked subject.serial))).mapMachine fun machine =>
      { machine with parked := machine.parked.insert subject.serial subject }
  else run.write (.logged (.dropped subject.serial))

@[simp] theorem released_machine (run : Run β D N) (subject : Instance β) :
    (run.released subject).machine =
      { run.machine with
        parked :=
          if subject.serial ∈ run.machine.stack then
            run.machine.parked.insert subject.serial subject
          else run.machine.parked } := by
  unfold released
  split <;> rfl

@[simp] theorem released_hands (run : Run β D N) (subject : Instance β) :
    (run.released subject).hands = run.hands := by
  unfold released
  split <;> rfl

/-- Lets a transition go that is not going to be made. -/
def letGone (run : Run β D N) : Transition β → Run β D N
  | .replace next => run.released next
  | .reenter _ _ => run

/-- Gives up the pending transition, if there is one. -/
def pendingDropped (run : Run β D N) : Run β D N :=
  match run.machine.pending with
  | none => run
  | some transition =>
      ((run.mapMachine fun machine => { machine with pending := none }).write
        (.logged (.pendingDropped transition.serial))).letGone transition

@[simp] theorem letGone_pending (run : Run β D N) (transition : Transition β) :
    (run.letGone transition).machine.pending = run.machine.pending := by
  cases transition with
  | replace next => simp [letGone]
  | reenter kind serial => rfl

@[simp] theorem pendingDropped_pending (run : Run β D N) :
    run.pendingDropped.machine.pending = none := by
  unfold pendingDropped
  split
  next free => exact free
  next => simp

/-- Gives the next number to a new state. -/
def counted (run : Run β D N) (kind : Kind) : Run β D N :=
  (run.mapMachine fun machine => { machine with made := machine.made + 1 }).write
    (.logged (.made kind (run.machine.shownName kind) ⟨run.machine.made + 1⟩))

/-- A new state with the next number. -/
def newborn (run : Run β D N) (kind : Kind) (behavior : β) : Instance β :=
  ⟨kind, ⟨run.machine.made + 1⟩, run.machine.id, false, behavior⟩

/-- Calls a hook of the current state, which this subject is. -/
def hooked
    (run : Run β D N)
    (conduct : Conduct β D N)
    (hook : Hook)
    (subject : Instance β) : Run β D N :=
  (run.reacted conduct hook subject).withCurrent (some (run.settled conduct hook subject))

/-- A state that has reacted to a hook is the same state. -/
theorem identity_hooked
    (run : Run β D N)
    (conduct : Conduct β D N)
    (hook : Hook)
    (subject : Instance β)
    (present : run.machine.current = some subject) :
    (run.hooked conduct hook subject).machine.current.map Instance.identity =
      run.machine.current.map Instance.identity := by
  rw [present]
  rfl

end Run

namespace Kernel

/-! ## Programs as functions of the run -/

theorem bind_apply
    (program : Kernel β D N α)
    (next : α → Kernel β D N γ)
    (run : Run β D N) :
    (program >>= next) run =
      match program run with
      | .ok value after => next value after
      | .error cause after => .error cause after := by
  cases ended : program run <;> simp [bind, EStateM.bind, ended]

/-- A sequence ends with a value if both of its parts do. -/
theorem bind_ok
    {program : Kernel β D N α}
    {next : α → Kernel β D N γ}
    {run after : Run β D N}
    {value : γ}
    (done : (program >>= next) run = .ok value after) :
    ∃ between middle, program run = .ok between middle ∧ next between middle = .ok value after := by
  rw [bind_apply] at done
  split at done
  next between middle first => exact ⟨between, middle, first, done⟩
  next => nomatch done

/-- To change the value of a program changes neither its end nor its run. -/
theorem map_ok
    {program : Kernel β D N α}
    {change : α → γ}
    {run after : Run β D N}
    {value : γ}
    (done : (change <$> program) run = .ok value after) :
    ∃ found, program run = .ok found after ∧ change found = value := by
  rw [← bind_pure_comp] at done
  obtain ⟨found, middle, ends, done⟩ := bind_ok done
  cases done
  exact ⟨found, ends, rfl⟩

/-- A sequence is interrupted if one of its parts is. -/
theorem bind_error
    {program : Kernel β D N α}
    {next : α → Kernel β D N γ}
    {run after : Run β D N}
    {cause : Interruption}
    (stopped : (program >>= next) run = .error cause after) :
    program run = .error cause after ∨
      ∃ between middle, program run = .ok between middle ∧
        next between middle = .error cause after := by
  rw [bind_apply] at stopped
  split at stopped
  next between middle first => exact .inr ⟨between, middle, first, stopped⟩
  next other left first =>
    cases stopped
    exact .inl first

@[simp] theorem pure_apply (value : α) (run : Run β D N) :
    (pure value : Kernel β D N α) run = .ok value run := rfl

@[simp] theorem get_apply (run : Run β D N) :
    (get : Kernel β D N (Run β D N)) run = .ok run run := rfl

@[simp] theorem modifyGet_apply (change : Run β D N → α × Run β D N) (run : Run β D N) :
    (modifyGet change : Kernel β D N α) run = .ok (change run).1 (change run).2 := rfl

@[simp] theorem machine_apply (run : Run β D N) :
    machine run = .ok run.machine run := rfl

@[simp] theorem changeMachine_apply
    (change : Machine β D → Machine β D)
    (run : Run β D N) :
    changeMachine change run = .ok () (run.mapMachine change) := rfl

@[simp] theorem write_apply (entry : Entry β N) (run : Run β D N) :
    write entry run = .ok () (run.write entry) := rfl

@[simp] theorem log_apply (event : LogEvent) (run : Run β D N) :
    log event run = .ok () (run.write (.logged event)) := rfl

@[simp] theorem refuse_apply (refusal : Refusal) (run : Run β D N) :
    (refuse refusal : Kernel β D N α) run = .error (.refused refusal) run := rfl

@[simp] theorem addToHistory_apply
    (source target : Option Kind)
    (subject : Option Serial)
    (run : Run β D N) :
    addToHistory source target subject run = .ok () (run.recorded source target subject) := rfl

@[simp] theorem parkOrDrop_apply (subject : Instance β) (run : Run β D N) :
    parkOrDrop subject run = .ok () (run.released subject) := by
  simp only [parkOrDrop, bind_apply, machine_apply, Run.released]
  split <;> simp [bind_apply]

@[simp] theorem letGo_apply (transition : Transition β) (run : Run β D N) :
    letGo transition run = .ok () (run.letGone transition) := by
  cases transition with
  | replace next => exact parkOrDrop_apply next run
  | reenter kind serial => rfl

@[simp] theorem takePending_apply (run : Run β D N) :
    takePending run =
      .ok run.machine.pending
        (run.mapMachine fun machine => { machine with pending := none }) := rfl

theorem nextRequest_apply (run : Run β D N) :
    nextRequest run =
      match run.machine.inbox with
      | [] => .ok none run
      | first :: more =>
          .ok (some first) (run.mapMachine fun machine => { machine with inbox := more }) := by
  change (match (match run.machine.inbox with
    | [] => (none, run)
    | first :: more =>
        (some first, run.mapMachine fun machine => { machine with inbox := more }) :
      Option (Request β) × Run β D N) with
    | (value, after) => EStateM.Result.ok value after) = _
  cases run.machine.inbox <;> rfl

@[simp] theorem takeTarget_apply (target : Destination) (run : Run β D N) :
    takeTarget target run = .ok (run.take target).1 (run.take target).2 := rfl

/-- An empty slot makes no request, and nothing changes. -/
theorem take_none
    {run : Run β D N}
    (target : Destination)
    (missing : (run.take target).1 = none) :
    (run.take target).2 = run := by
  cases target with
  | fresh kind => rfl
  | held slot =>
      unfold Run.take at missing ⊢
      dsimp only at missing ⊢
      split
      · rfl
      · next found =>
          rw [found] at missing
          contradiction

/-- Taking the pending transition out changes nothing if there is none. -/
theorem mapMachine_free
    (run : Run β D N)
    (free : run.machine.pending = none) :
    (run.mapMachine fun machine => { machine with pending := none }) = run := by
  unfold Run.mapMachine
  rw [← free]

@[simp] theorem dropPending_apply (run : Run β D N) :
    dropPending run = .ok () run.pendingDropped := by
  unfold dropPending Run.pendingDropped
  rw [bind_apply, takePending_apply]
  cases occupied : run.machine.pending with
  | none => simp [mapMachine_free run occupied]
  | some transition => simp [bind_apply]

/-- A kind without a prototype is refused as unavailable, whatever the reason. -/
theorem prototype_refused
    (registry : Registry β)
    (kind : Kind)
    (refusal : Refusal)
    (unknown : registry.prototype kind = .error refusal) :
    ∃ reason, refusal = .unavailable kind reason := by
  unfold Registry.prototype at unknown
  split at unknown
  · exact ⟨_, (Except.error.inj unknown).symm⟩
  · exact ⟨_, (Except.error.inj unknown).symm⟩
  · nomatch unknown

theorem copyPrototype_apply (kind : Kind) (run : Run β D N) :
    copyPrototype kind run =
      match run.machine.registry.prototype kind with
      | .error refusal => .error (.refused refusal) run
      | .ok behavior => .ok behavior (run.write (.copied kind behavior)) := by
  rw [copyPrototype, bind_apply, machine_apply]
  dsimp only
  cases run.machine.registry.prototype kind <;> rfl

theorem takeUp_fresh
    (origin : Origin)
    (kind : Kind)
    (run : Run β D N) :
    takeUp origin (.fresh kind) run =
      match run.machine.registry.prototype kind with
      | .error refusal =>
          .error (.refused refusal)
            (run.write (.taken origin (Request.fresh kind : Request β).label))
      | .ok behavior =>
          .ok (.replace (run.newborn kind behavior))
            (((run.write (.taken origin (Request.fresh kind : Request β).label)).write
              (.copied kind behavior)).counted kind) := by
  simp only [takeUp, makeOfKind, bind_apply, write_apply, copyPrototype_apply, Run.write_machine]
  cases run.machine.registry.prototype kind <;> rfl

theorem takeUp_existing
    (origin : Origin)
    (subject : Instance β)
    (run : Run β D N) :
    takeUp origin (.existing subject) run =
      if subject.owner = run.machine.id then
        .ok (.replace subject) (run.write (.taken origin (Request.existing subject).label))
      else
        .error (.refused (.foreign subject.serial))
          (run.write (.taken origin (Request.existing subject).label)) := by
  simp only [takeUp, bind_apply, write_apply, machine_apply, Run.write_machine]
  split <;> rfl

/-- A request that is refused leaves the machine as it is. -/
theorem takeUp_refused
    {origin : Origin}
    {request : Request β}
    {run after : Run β D N}
    {cause : Interruption}
    (stopped : takeUp origin request run = .error cause after) :
    after.machine = run.machine := by
  cases request with
  | fresh kind =>
      rw [takeUp_fresh] at stopped
      cases known : run.machine.registry.prototype kind with
      | error refusal =>
          rw [known] at stopped
          cases stopped
          rfl
      | ok behavior =>
          rw [known] at stopped
          nomatch stopped
  | existing subject =>
      rw [takeUp_existing] at stopped
      split at stopped
      · nomatch stopped
      · cases stopped
        rfl

/-- A request that is taken up leads to a new state of its kind, or to the state that it names if
this belongs to the machine. -/
theorem takeUp_cases
    {origin : Origin}
    {request : Request β}
    {run after : Run β D N}
    {transition : Transition β}
    (taken : takeUp origin request run = .ok transition after) :
    (∃ kind behavior,
      request = .fresh kind ∧
      run.machine.registry.prototype kind = .ok behavior ∧
      transition = .replace (run.newborn kind behavior) ∧
      after =
        ((run.write (.taken origin request.label)).write (.copied kind behavior)).counted kind) ∨
    (∃ subject,
      request = .existing subject ∧
      subject.owner = run.machine.id ∧
      transition = .replace subject ∧
      after = run.write (.taken origin request.label)) := by
  cases request with
  | fresh kind =>
      rw [takeUp_fresh] at taken
      cases known : run.machine.registry.prototype kind with
      | error refusal =>
          rw [known] at taken
          nomatch taken
      | ok behavior =>
          rw [known] at taken
          cases taken
          exact .inl ⟨kind, behavior, rfl, known, rfl, rfl⟩
  | existing subject =>
      rw [takeUp_existing] at taken
      split at taken
      next own =>
        cases taken
        exact .inr ⟨subject, rfl, own, rfl, rfl⟩
      next => nomatch taken

/-- To take up a request changes nothing in a machine but the number of states that it has made. -/
theorem takeUp_machine
    {origin : Origin}
    {request : Request β}
    {run after : Run β D N}
    {transition : Transition β}
    (taken : takeUp origin request run = .ok transition after) :
    ∃ made, run.machine.made ≤ made ∧ after.machine = { run.machine with made := made } := by
  obtain ⟨kind, behavior, -, -, -, rfl⟩ | ⟨subject, -, -, -, rfl⟩ := takeUp_cases taken
  · exact ⟨run.machine.made + 1, Nat.le_succ _, rfl⟩
  · exact ⟨run.machine.made, Nat.le_refl _, rfl⟩

/-- A program that is not refused needs no mending. -/
theorem orMend_ok
    {program : Kernel β D N α}
    {mend : Machine β D → Machine β D}
    {run after : Run β D N}
    {value : α}
    (done : orMend program mend run = .ok value after) :
    program run = .ok value after := by
  unfold orMend at done
  split at done
  · nomatch done
  · exact done

/-- The rest of taking up a request, when it is in the journal. -/
def resolve : Request β → Kernel β D N (Transition β)
  | .fresh kind => do
      let subject ← makeOfKind kind
      pure (.replace subject)
  | .existing subject => do
      if subject.owner = (← machine).id then pure (.replace subject)
      else refuse (.foreign subject.serial)

theorem takeUp_eq (origin : Origin) (request : Request β) :
    (takeUp origin request : Kernel β D N (Transition β)) = (do
      write (.taken origin request.label)
      resolve request) := by
  cases request <;> rfl

/-- Interrupts a program that has come to a run, if a hook broke off. -/
def ended (breakdown : Option String) (value : α) (run : Run β D N) :
    EStateM.Result Interruption (Run β D N) α :=
  match breakdown with
  | none => .ok value run
  | some message => .error (.brokenOff message) run

theorem callCurrent_apply_none
    (conduct : Conduct β D N)
    (hook : Hook)
    (run : Run β D N)
    (absent : run.machine.current = none) :
    callCurrent conduct hook run = .ok () run := by
  simp [callCurrent, bind_apply, absent]

theorem callCurrent_apply_some
    (conduct : Conduct β D N)
    (hook : Hook)
    (run : Run β D N)
    (subject : Instance β)
    (present : run.machine.current = some subject) :
    callCurrent conduct hook run =
      ended (run.reaction conduct hook subject).breakdown () (run.hooked conduct hook subject) := by
  simp only [callCurrent, bind_apply, machine_apply, present, modifyGet_apply, Run.react_eq,
    changeMachine_apply]
  cases breaks : (run.reaction conduct hook subject).breakdown <;> rfl

theorem exitCurrent_apply_none
    (conduct : Conduct β D N)
    (run : Run β D N)
    (absent : run.machine.current = none) :
    exitCurrent conduct run = .ok none run := by
  simp [exitCurrent, bind_apply, absent]

/-- The current state leaves its place before its exit hook runs. -/
theorem exitCurrent_apply_some
    (conduct : Conduct β D N)
    (run : Run β D N)
    (subject : Instance β)
    (present : run.machine.current = some subject) :
    exitCurrent conduct run =
      ended ((run.withCurrent none).reaction conduct .exit subject).breakdown
        (some ((run.withCurrent none).settled conduct .exit subject))
        ((run.withCurrent none).reacted conduct .exit subject) := by
  simp only [exitCurrent, bind_apply, machine_apply, present, changeMachine_apply, callExit,
    modifyGet_apply, Run.react_eq]
  rw [← Run.withCurrent]
  cases breaks : ((run.withCurrent none).reaction conduct .exit subject).breakdown <;> rfl

theorem of_ended_eq_ok
    {breakdown : Option String}
    {value result : α}
    {before after : Run β D N}
    (ends : ended breakdown value before = .ok result after) :
    value = result ∧ before = after := by
  cases breakdown with
  | none => exact EStateM.Result.ok.inj ends
  | some message => nomatch ends

theorem enterNext_apply
    (conduct : Conduct β D N)
    (next : Instance β)
    (run : Run β D N) :
    enterNext conduct next run =
      ended ((run.entering next).reaction conduct .enter next).breakdown ()
        ((run.entering next).hooked conduct .enter next) := by
  rw [enterNext, bind_apply, changeMachine_apply]
  exact callCurrent_apply_some conduct .enter (run.entering next) next rfl

/-! ## The parts of a replacement -/

/-- Parks or drops the state that was current before, if there was one. -/
def release : Option (Instance β) → Kernel β D N Unit
  | none => pure ()
  | some previous => parkOrDrop previous

/-- The rest of a replacement, when no state is current any more. -/
def arrive
    (conduct : Conduct β D N)
    (source : Option Kind)
    (name : String)
    (next : Instance β) : Kernel β D N Unit := do
  addToHistory source (some next.kind) (some next.serial)
  enterNext conduct next
  log (.entered next.kind name next.serial)

theorem replaceCurrent_eq (conduct : Conduct β D N) (next : Instance β) :
    replaceCurrent conduct next = (do
      let before ← machine
      let previous ← exitCurrent conduct
      release previous
      arrive conduct before.currentKind (before.shownName next.kind) next) := by
  refine bind_congr fun before => bind_congr fun previous => ?_
  cases previous <;> rfl

end Kernel
end TickMachine
