import TickMachine.Proofs.Breakdown
import TickMachine.Proofs.Chain
import TickMachine.Proofs.Discarded
import TickMachine.Proofs.Resting

/-!
# Transitions in turn

In immediate mode a request for a transition, or a pop, comes in three parts.  First everything
that was posted is served, with whatever the hooks ask for.  Then the call makes its own transition.
What the hooks of this transition ask for is served last, one request after the other, and what
these ask for in turn goes to the end of the queue.  The state that the call names in its answer is
entered by its own transition, and by no other transition of the same call.
-/

namespace TickMachine

variable {β D N α : Type}

/-! ## Requests in their turns -/

/-- A request that was served when its turn came. -/
structure Turn (β : Type) where
  request : Request β
  /-- The state that was current before. -/
  previous : Option (Instance β)
  /-- The state that entered. -/
  subject : Instance β
  /-- What the hooks of the transition asked for, in order. -/
  asked : List (Request β)

/-- The hooks that were called in a turn. -/
def Turn.calls (turn : Turn β) : List (Hook × Kind × Serial) :=
  turn.previous.toList.map (fun previous => (.exit, previous.kind, previous.serial)) ++
    [(.enter, turn.subject.kind, turn.subject.serial)]

/-- The oldest request leads to a state, and this state enters.  What its hooks ask for goes to the
end of the inbox. -/
def Turn.Serves (conduct : Conduct β D N) (turn : Turn β) (run served : Run β D N) : Prop :=
  ∃ more taken,
    run.machine.inbox = turn.request :: more ∧
    run.machine.current = turn.previous ∧
    Kernel.takeUp .hook turn.request (run.withInbox more) = .ok (.replace turn.subject) taken ∧
    Run.Enters conduct taken turn.subject [.enter] served ∧
    served.machine.inbox = more ++ turn.asked

/-- From one run to another the requests in the inbox were served, the oldest one first, until none
was left. -/
inductive Run.InTurn (conduct : Conduct β D N) : Run β D N → List (Turn β) → Run β D N → Prop where
  /-- No request waits. -/
  | done {run} (empty : run.machine.inbox = []) : InTurn conduct run [] run
  /-- It is the turn of the oldest request. -/
  | next {run served after turn turns}
      (serves : turn.Serves conduct run served)
      (rest : InTurn conduct served turns after) :
      InTurn conduct run (turn :: turns) after

/-- A turn calls the hooks of its transition and no others. -/
theorem Turn.Serves.calls_eq
    {conduct : Conduct β D N}
    {turn : Turn β}
    {run served : Run β D N}
    (serves : turn.Serves conduct run served) :
    served.calls = run.calls ++ turn.calls := by
  obtain ⟨more, taken, -, here, leads, enters, -⟩ := serves
  obtain ⟨made, -, machine⟩ := Kernel.takeUp_machine leads
  have early : taken.calls = (run.withInbox more).calls := Kernel.takeUp_calls leads
  have left : taken.machine.current = turn.previous := by
    rw [machine]
    exact here
  rw [enters.calls, early, Run.exits, left, List.append_assoc]
  rfl

namespace Run.InTurn

variable {conduct : Conduct β D N} {run after : Run β D N} {turns : List (Turn β)}

/-- Requests are served in the order in which they came in. -/
theorem requests (inTurn : InTurn conduct run turns after) :
    turns.map Turn.request = run.machine.inbox ++ turns.flatMap Turn.asked := by
  induction inTurn with
  | done empty => rw [empty]; rfl
  | next serves rest inductionHypothesis =>
      obtain ⟨more, _, waiting, -, -, -, adds⟩ := serves
      rw [List.map_cons, inductionHypothesis, adds, waiting, List.flatMap_cons, List.cons_append,
        List.append_assoc]

/-- No hooks are called but those of the transitions, and these are called turn by turn. -/
theorem calls (inTurn : InTurn conduct run turns after) :
    after.calls = run.calls ++ turns.flatMap Turn.calls := by
  induction inTurn with
  | done empty => exact (List.append_nil _).symm
  | next serves rest inductionHypothesis =>
      rw [inductionHypothesis, serves.calls_eq, List.flatMap_cons, List.append_assoc]

end Run.InTurn

section Serving

variable {conduct : Conduct β D N} {run after : Run β D N}

/-- In immediate mode the state to which a request leads enters when the request is served. -/
theorem Kernel.submit_enters
    {next : Instance β}
    {outcome : Outcome}
    (immediate : run.machine.config.immediate = true)
    (submitted : submit conduct (.replace next) run = .ok outcome after) :
    Run.Enters conduct run next [.enter] after ∧ outcome = .applied next.kind next.serial := by
  rw [submit_apply_immediate conduct _ run immediate] at submitted
  cases made : carryOut conduct (.replace next) run with
  | ok value entered =>
      rw [made] at submitted
      cases submitted
      exact ⟨replaceCurrent_enters made, rfl⟩
  | error cause left =>
      rw [made] at submitted
      cases submitted

/-- The oldest request has been served in its turn. -/
theorem Run.serveOldest_turn
    {outcome : Outcome}
    (immediate : run.machine.config.immediate = true)
    (served : run.serveOldest conduct = some (.ok outcome after)) :
    ∃ turn : Turn β, turn.Serves conduct run after := by
  obtain ⟨asked, more, added, waiting, left, -, -⟩ := serveOldest_ok served
  rw [serveOldest_waiting waiting] at served
  obtain ⟨transition, taken, takes, submitted⟩ := Kernel.bind_ok (Option.some.inj served)
  obtain ⟨made, -, machine⟩ := Kernel.takeUp_machine takes
  have immediateThen : taken.machine.config.immediate = true := by
    rw [machine]
    exact immediate
  obtain ⟨subject, rfl⟩ : ∃ subject, transition = .replace subject := by
    obtain ⟨_, _, -, -, leads, -⟩ | ⟨_, -, -, leads, -⟩ := Kernel.takeUp_cases takes
    · exact ⟨_, leads⟩
    · exact ⟨_, leads⟩
  exact ⟨⟨asked, run.machine.current, subject, added⟩, more, taken, waiting, rfl, takes,
    (Kernel.submit_enters immediateThen submitted).1, left⟩

/-- Requests that were served one by one until none was left were served in their turns. -/
theorem Run.serveTimes_inTurn
    {count : Nat}
    (immediate : run.machine.config.immediate = true)
    (served : run.serveTimes conduct count = some after)
    (empty : after.machine.inbox = []) :
    ∃ turns, InTurn conduct run turns after := by
  induction count generalizing run with
  | zero =>
      cases served
      exact ⟨[], .done empty⟩
  | succ count inductionHypothesis =>
      rw [serveTimes] at served
      split at served
      next outcome middle first =>
        obtain ⟨turn, serves⟩ := serveOldest_turn immediate first
        obtain ⟨_, _, _, -, -, -, steps⟩ := serveOldest_ok first
        have immediateThen : middle.machine.config.immediate = true :=
          (congrArg Config.immediate steps.fixed.2.1).trans immediate
        obtain ⟨turns, rest⟩ := inductionHypothesis immediateThen served
        exact ⟨turn :: turns, .next serves rest⟩
      next => cases served

/-- What hooks have asked for has been served in turns. -/
theorem Kernel.serveHooks_inTurn
    (immediate : run.machine.config.immediate = true)
    (served : serveHooks conduct run = .ok () after) :
    ∃ turns, Run.InTurn conduct run turns after := by
  obtain ⟨count, -, times, empty⟩ := (serveHooks_immediate_ok_iff immediate after).mp served
  exact Run.serveTimes_inTurn immediate times empty

end Serving

/-! ## How often a state was entered -/

namespace Run

/-- How often the state with a number was entered. -/
def entries (run : Run β D N) (serial : Serial) : Nat :=
  (run.callsOf serial).count .enter

variable {conduct : Conduct β D N} {before after : Run β D N} {serial : Serial}

theorem entries_append
    {added : List (Hook × Kind × Serial)}
    (grown : after.calls = before.calls ++ added)
    (serial : Serial) :
    after.entries serial =
      before.entries serial +
        ((added.filter fun call => call.2.2 = serial).map Prod.fst).count .enter := by
  rw [entries, callsOf_append grown, List.count_append, entries]

/-- A state is not entered where no such call was made. -/
theorem CallsOnly.entries
    {told : Hook × Kind × Serial → Prop}
    (only : CallsOnly told before after)
    (away : ∀ call, told call → call.1 = .enter → call.2.2 ≠ serial) :
    after.entries serial = before.entries serial := by
  obtain ⟨more, calls, fits⟩ := only
  rw [entries_append calls, List.count_eq_zero.mpr, Nat.add_zero]
  intro entered
  obtain ⟨call, member, enters⟩ := List.mem_map.mp entered
  obtain ⟨inside, same⟩ := List.mem_filter.mp member
  exact away call (fits call inside) enters (of_decide_eq_true same)

/-- A transition enters its state once. -/
theorem Enters.entries
    {subject : Instance β}
    {hooks : List Hook}
    (enters : Enters conduct before subject hooks after) :
    after.entries subject.serial = before.entries subject.serial + 1 := by
  have calls := enters.calls
  rw [List.append_assoc] at calls
  rw [entries_append calls, exits]
  cases before.machine.current with
  | none => simp
  | some previous =>
      by_cases same : previous.serial = subject.serial
      · simp [same]
      · simp [same]

end Run

/-! ## The own transition of a call -/

/-- From the run on which everything that was posted has been served, a call makes its transition to
a state, and what the hooks ask for is served after that. -/
structure Run.Applies
    (conduct : Conduct β D N)
    (deeds : List Deed)
    (batch : List (Request β))
    (drained : Run β D N)
    (subject : Instance β)
    (entered after : Run β D N) : Prop where
  enters : Run.Enters conduct drained subject
    (if drained.machine.currentSerial = some subject.serial then [.exit, .enter] else [.enter])
    entered
  steps : Steps conduct deeds ⟨.idle, batch, drained⟩ ⟨.idle, [], entered⟩
  serves : Kernel.serveHooks conduct entered = .ok () after

/-- The state to which a call leads.  A pop leads to the state that was on top of the stack when the
call began. -/
def Call.Leads (before drained : Run β D N) (subject : Instance β) : Call β → Prop
  | .switchTo (.fresh kind) =>
      subject.kind = kind ∧ subject.serial = ⟨drained.machine.made + 1⟩
  | .switchTo (.existing held) => subject = held
  | .pop => before.machine.stack.head? = some subject.serial
  | _ => False

section Own

variable {conduct : Conduct β D N} {deeds : List Deed} {batch : List (Request β)}
  {run drained found entered after : Run β D N} {subject : Instance β} {transition : Transition β}
  {kind : Kind} {serial : Serial}

/-- A transition that is found and submitted in immediate mode is made, and then the inbox is
served. -/
theorem Run.Applies.of_found
    {answer : Outcome → α}
    {value : α}
    (finds : Steps conduct deeds ⟨.idle, batch, drained⟩ ⟨.found transition, [], found⟩)
    (immediate : found.machine.config.immediate = true)
    (enters : ∀ entered, Kernel.carryOut conduct transition found = .ok () entered →
      Run.Enters conduct drained subject
        (if drained.machine.currentSerial = some subject.serial then [.exit, .enter] else [.enter])
        entered)
    (done : (do
      let outcome ← Kernel.submit conduct transition
      Kernel.serveHooks conduct
      pure (answer outcome)) found = .ok value after) :
    ∃ entered,
      Run.Applies conduct deeds batch drained subject entered after ∧
        value = answer (.applied transition.kind transition.serial) := by
  obtain ⟨outcome, entered, submitted, done⟩ := Kernel.bind_ok done
  obtain ⟨_, _, serves, done⟩ := Kernel.bind_ok done
  cases done
  have submits : Steps conduct deeds ⟨.found transition, [], found⟩ ⟨.idle, [], entered⟩ :=
    (Kernel.submit_follows transition).steps_ok submitted
  have applied := Kernel.submit_apply_immediate conduct transition found immediate
  rw [submitted] at applied
  cases made : Kernel.carryOut conduct transition found with
  | error cause left =>
      rw [made] at applied
      cases applied
  | ok value other =>
      rw [made] at applied
      cases applied
      exact ⟨entered, ⟨enters entered made, finds.trans submits, serves⟩, rfl⟩

/-- A state that is taken up is not the one that is current. -/
theorem Kernel.takeUp_elsewhere
    {request : Request β}
    {taken : Run β D N}
    (orderly : Stage.Orderly ⟨.idle, request :: batch, drained⟩)
    (takes : takeUp .caller request drained = .ok transition taken) :
    drained.machine.currentSerial ≠ some transition.serial := by
  intro here
  obtain ⟨current, present, same⟩ := Option.map_eq_some_iff.mp here
  have captured := orderly.captured (Stage.inside_pos (.inl present))
  obtain ⟨kind, behavior, -, -, rfl, -⟩ | ⟨subject, rfl, own, rfl, -⟩ := takeUp_cases takes
  · exact captured.ne_newborn kind behavior same.symm
  · exact captured.ne_existing own same.symm

/-- A request that its caller has made is taken up, and the state to which it leads enters. -/
theorem Kernel.switchOwn_applies
    {wanted : Request β}
    (immediate : drained.machine.config.immediate = true)
    (orderly : Stage.Orderly ⟨.idle, [wanted], drained⟩)
    (done : switchOwn conduct wanted drained = .ok (.applied kind serial) after) :
    ∃ subject entered taken,
      subject.identity = (kind, serial) ∧
      takeUp .caller wanted drained = .ok (.replace subject) taken ∧
      (Call.switchTo wanted).Leads run drained subject ∧
      Run.Applies conduct [] [wanted] drained subject entered after := by
  obtain ⟨transition, taken, takes, done⟩ := bind_ok done
  obtain ⟨made, -, machine⟩ := takeUp_machine takes
  obtain ⟨subject, rfl, leads⟩ : ∃ subject, transition = .replace subject ∧
      (Call.switchTo wanted).Leads run drained subject := by
    obtain ⟨_, _, rfl, -, leads, -⟩ | ⟨_, rfl, -, leads, -⟩ := takeUp_cases takes
    · exact ⟨_, leads, rfl, rfl⟩
    · exact ⟨_, leads, rfl⟩
  have finds : Steps conduct [] ⟨.idle, [wanted], drained⟩ ⟨.found (.replace subject), [], taken⟩ :=
    (takeUp_follows .caller wanted nofun).steps_ok takes
  have immediateThen : taken.machine.config.immediate = true := by
    rw [machine]
    exact immediate
  have exits : taken.exits = drained.exits := by
    rw [Run.exits, machine]
    rfl
  have elsewhere : drained.machine.currentSerial ≠ some subject.serial :=
    takeUp_elsewhere orderly takes
  obtain ⟨entered, applies, named⟩ := Run.Applies.of_found finds immediateThen
    (fun entered carries => by
      obtain ⟨calls, current⟩ := replaceCurrent_enters carries
      rw [if_neg elsewhere]
      exact ⟨by rw [calls, takeUp_calls takes, exits], current⟩) done
  cases named
  exact ⟨subject, entered, taken, rfl, takes, leads, applies⟩

/-- A pop takes the top entry off the stack, and the state that the entry refers to enters. -/
theorem Kernel.popOwn_applies
    (immediate : drained.machine.config.immediate = true)
    (orderly : Stage.Orderly ⟨.idle, [], drained⟩)
    (done : popOwn conduct drained = .ok (some (.applied kind serial)) after) :
    ∃ subject entered,
      subject.identity = (kind, serial) ∧
      drained.machine.stack.head? = some subject.serial ∧
      Run.Applies conduct [.pop] [] drained subject entered after := by
  rw [popOwn_apply] at done
  split at done
  next => cases done
  next number below top =>
    split at done
    next => cases done
    next transition rest retrieved =>
      obtain ⟨subject, rfl, has⟩ := orderly.has_of_retrieve retrieved
      obtain ⟨_, _, again, leads⟩ := orderly.retrieve_of_holds (Stage.holds_idle.mpr has) below
      cases retrieved.symm.trans again
      obtain ⟨parked, pending, rfl⟩ := Machine.retrieve_frame retrieved
      let found := Run.write
        { drained with machine := { drained.machine with
            stack := below, parked := parked, pending := pending } }
        (.logged (.popped subject.serial below.length))
      have finds : Steps conduct [.pop] ⟨.idle, [], drained⟩ ⟨.found transition, [], found⟩ :=
        .single (.pop subject.serial below transition _ top retrieved (by decide))
      have sameCalls : found.calls = drained.calls := Run.calls_log _ _
      have leadsThen : transition = .replace subject ∧
            found.machine.currentSerial ≠ some subject.serial ∨
          transition = .reenter subject.kind subject.serial ∧
            found.machine.current = some subject :=
        leads
      obtain ⟨entered, applies, named⟩ := Run.Applies.of_found finds immediate
        (fun entered carries => by
          obtain ⟨calls, current⟩ := carryOut_enters leadsThen carries
          exact ⟨by rw [calls, sameCalls]; rfl, current⟩) done
      have identity : transition.kind = subject.kind ∧ transition.serial = subject.serial := by
        rcases leads with ⟨rfl, -⟩ | ⟨rfl, -⟩ <;> exact ⟨rfl, rfl⟩
      cases named
      exact ⟨subject, entered, Prod.ext identity.1.symm identity.2.symm, by rw [top]; rfl, applies⟩

/-- The state of a call's own transition is entered once more, and the hooks of what is served after
that do not enter it. -/
theorem Run.Applies.entries
    (applies : Run.Applies conduct deeds batch drained subject entered after)
    (orderly : Stage.Orderly ⟨.idle, batch, drained⟩) :
    after.entries subject.serial = drained.entries subject.serial + 1 := by
  obtain ⟨enters, steps, serves⟩ := applies
  obtain ⟨changed, changes, present⟩ := enters.current
  have orderlyThen : Stage.Orderly ⟨.idle, [], entered⟩ :=
    steps.invariant (fun _ _ step => step.orderly) orderly
  have resting := orderlyThen.resting present
  rw [changes.serial] at resting
  have late : Steps conduct [] ⟨.idle, [], entered⟩ ⟨.idle, [], after⟩ :=
    Kernel.serveHooks_follows.steps_ok serves
  rw [(late.callsOnly_resting (by simp) resting).entries fun _ told => told.2, enters.entries]

/-- A state that has just been taken up for a caller was never entered. -/
theorem Kernel.takeUp_entries
    {request : Request β}
    {taken : Run β D N}
    (orderly : Stage.Orderly ⟨.idle, request :: batch, drained⟩)
    (noted : Stage.Noted ⟨.idle, request :: batch, drained⟩)
    (takes : takeUp .caller request drained = .ok transition taken) :
    drained.entries transition.serial = 0 := by
  have silent := (takeUp_adrift orderly noted takes).silent
  dsimp only at silent
  rw [Run.callsOf, takeUp_calls takes] at silent
  rw [Run.entries, Run.callsOf, silent]
  rfl

/-- Calls that have been made stay in the journal, so a state that was not entered was not entered
before. -/
theorem Steps.entries_le
    {start final : Stage β D N}
    (steps : Steps conduct deeds start final)
    (serial : Serial) :
    start.run.entries serial ≤ final.run.entries serial := by
  obtain ⟨more, calls⟩ := steps.goesOn.calls
  rw [Run.entries_append calls]
  exact Nat.le_add_right _ _

/-- A requested transition and a pop each make one transition of their own, to a state that was not
entered while what was posted was served. -/
theorem Call.work_applies
    {call : Call β}
    (owns : (∃ wanted, call = .switchTo wanted) ∨ call = .pop)
    (immediate : drained.machine.config.immediate = true)
    (held : Stage.Noted ⟨.idle, [], run⟩)
    (steps : Steps conduct [.serve] ⟨.idle, [], run⟩ ⟨.idle, call.requests, drained⟩)
    (orderly : Stage.Orderly ⟨.idle, call.requests, drained⟩)
    (noted : Stage.Noted ⟨.idle, call.requests, drained⟩)
    (works : call.work conduct drained = .ok (.outcome (.applied kind serial)) after) :
    ∃ subject entered,
      subject.identity = (kind, serial) ∧
      call.Leads run drained subject ∧
      Run.Applies conduct call.deeds call.requests drained subject entered after ∧
      drained.entries subject.serial = run.entries subject.serial := by
  rcases owns with ⟨wanted, rfl⟩ | rfl
  · obtain ⟨outcome, switches, answers⟩ := Kernel.map_ok works
    cases answers
    obtain ⟨subject, entered, taken, named, takes, leads, applies⟩ :=
      Kernel.switchOwn_applies immediate orderly switches
    refine ⟨subject, entered, named, leads, applies, ?_⟩
    -- Whoever can be asked for was never entered.
    have never : drained.entries subject.serial = 0 := Kernel.takeUp_entries orderly noted takes
    have few : run.entries subject.serial ≤ drained.entries subject.serial :=
      steps.entries_le subject.serial
    omega
  · obtain ⟨outcome, pops, answers⟩ := Kernel.map_ok works
    cases outcome with
    | none => cases answers
    | some outcome =>
        cases answers
        obtain ⟨subject, entered, named, top, applies⟩ :=
          Kernel.popOwn_applies immediate orderly pops
        have stack : drained.machine.stack = run.machine.stack :=
          steps.stack_eq (by decide) (by decide)
        rw [stack] at top
        have resting := held.resting (List.mem_of_mem_head? top)
        exact ⟨subject, entered, named, top, applies,
          (steps.callsOnly_resting (by simp) resting).entries fun _ told => told.2⟩

end Own

/-- If a request for a transition or a pop answers in immediate mode that a state was entered, then
this is the state to which it leads, and it has been entered once in the call.  That was after
everything that was posted had been served and no request waited any more.  What the hooks of this
transition asked for, and what the hooks of these requests asked for, was served after that, oldest
request first. -/
theorem applied_in_turn
    {id : MachineId}
    {config : Config}
    {registry : Registry β}
    {data : D}
    {origin : Machine β D}
    {conduct : Conduct β D N}
    {permitted : Except Interruption Reply → Prop}
    {run after : Run β D N}
    {operation : Operation β D}
    {kind : Kind}
    {serial : Serial}
    (made : Machine.make id config registry data = .ok origin)
    (immediate : config.immediate = true)
    (reached : Reachable conduct permitted origin run)
    (now : Instant)
    (asks : (∃ target, operation = .switchTo target) ∨ operation = .pop)
    (performs : run.perform conduct now operation =
      (.ok (.outcome (.applied kind serial)), after)) :
    ∃ call start drained subject entered turns,
      operation.call? { run with now := now } = some (call, start) ∧
      Kernel.serveHandles conduct start = .ok () drained ∧
      drained.machine.inbox = [] ∧
      call.Leads run drained subject ∧
      subject.identity = (kind, serial) ∧
      Run.Applies conduct call.deeds call.requests drained subject entered after ∧
      Run.InTurn conduct entered turns after ∧
      turns.map Turn.request = entered.machine.inbox ++ turns.flatMap Turn.asked ∧
      after.calls = entered.calls ++ turns.flatMap Turn.calls ∧
      after.entries serial = run.entries serial + 1 := by
  have lasting := noted_lasting conduct permitted made
  have held := lasting.clock run now (lasting.reachable reached)
  have fixed := (fixed_lasting conduct permitted made).reachable reached
  obtain ⟨call, start, drained, calls, drains, steps, works⟩ :=
    Run.perform_outcome (congrArg Prod.fst performs)
  rw [performs] at works
  obtain ⟨orderly, noted⟩ := steps.invariant lasting.step held
  have immediateThen : drained.machine.config.immediate = true :=
    (congrArg Config.immediate (steps.fixed.2.1.trans fixed.2.1)).trans immediate
  have owns : (∃ wanted, call = .switchTo wanted) ∨ call = .pop := by
    rcases asks with ⟨target, rfl⟩ | rfl
    · obtain ⟨wanted, -, called⟩ := Option.map_eq_some_iff.mp calls
      exact .inl ⟨wanted, (congrArg Prod.fst called).symm⟩
    · exact .inr (congrArg Prod.fst (Option.some.inj calls)).symm
  obtain ⟨subject, entered, named, leads, applies, before⟩ :=
    Call.work_applies owns immediateThen held.2 steps orderly noted works
  have immediateLast : entered.machine.config.immediate = true :=
    (congrArg Config.immediate applies.steps.fixed.2.1).trans immediateThen
  obtain ⟨turns, inTurn⟩ := Kernel.serveHooks_inTurn immediateLast applies.serves
  have entries := applies.entries orderly
  rw [before] at entries
  cases named
  exact ⟨call, start, drained, subject, entered, turns, calls, drains,
    Kernel.serveHandles_ok conduct drains, leads, rfl, applies, inTurn, inTurn.requests,
    inTurn.calls, entries⟩

/-- A relay whose owner asks for a state of the second kind enters it once, and serves after that
what the exit of the first state asked for. -/
theorem applied_in_turn_relay :
    ∃ entered turns,
      Run.InTurn Actor.conduct entered turns
        ((relayStarted true).perform Actor.conduct .epoch (.switchTo (.fresh ⟨2⟩))).2 ∧
      turns.map Turn.request = entered.machine.inbox ++ turns.flatMap Turn.asked ∧
      ((relayStarted true).perform Actor.conduct .epoch
        (.switchTo (.fresh ⟨2⟩))).2.entries ⟨2⟩ = (relayStarted true).entries ⟨2⟩ + 1 := by
  have answer : ((relayStarted true).perform Actor.conduct .epoch (.switchTo (.fresh ⟨2⟩))).1 =
      .ok (.outcome (.applied ⟨2⟩ ⟨2⟩)) := by
    decide +kernel
  have performs := (Prod.eta ((relayStarted true).perform Actor.conduct .epoch
    (.switchTo (.fresh ⟨2⟩)))).symm
  rw [answer] at performs
  obtain ⟨-, -, -, -, entered, turns, -, -, -, -, -, -, inTurn, requests, -, entries⟩ :=
    applied_in_turn (relay_made true) rfl (relayStarted_reachable true) .epoch
      (.inl ⟨.fresh ⟨2⟩, rfl⟩) performs
  exact ⟨entered, turns, inTurn, requests, entries⟩

end TickMachine
