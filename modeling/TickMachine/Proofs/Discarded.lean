import TickMachine.Proofs.Census
import TickMachine.Proofs.Deferral
import TickMachine.Proofs.Silence

/-!
# States that are reported as discarded

In deferred mode a request for a transition names the state that was pending before, unless both
lead to the same state.  If that state waited to be entered, it is not going to be: it is parked
when the stack refers to it, and otherwise the machine has lost it for good.  If the transition that
gives way was to let the current state exit and enter again, that state is named as well, although
it stays current.
-/

namespace TickMachine

variable {β D N : Type}

/-! ## States that nobody has -/

/-- A state of its own that a machine has is counted. -/
theorem Machine.tally_pos
    {machine : Machine β D}
    (keyed : machine.Keyed)
    {subject : Instance β}
    (member : subject ∈ machine.states)
    (own : subject.owner = machine.id) :
    1 ≤ machine.tally machine.id subject.serial := by
  have one : subject.copies subject.serial = 1 := if_pos rfl
  rw [tally, if_pos rfl]
  simp only [states, List.mem_append] at member
  rcases member with ((current | pending) | parked) | waiting
  · have present := Option.mem_toList.mp current
    have split := machine.copies_of_current subject present subject.serial
    omega
  · obtain ⟨transition, occupied, leads⟩ :=
      Option.bind_eq_some_iff.mp (Option.mem_toList.mp pending)
    have split := machine.copies_of_pending transition occupied subject.serial
    cases transition with
    | replace next =>
        cases leads
        simp only [Transition.copies] at split
        omega
    | reenter kind serial => cases leads
  · obtain ⟨⟨key, found⟩, listed, rfl⟩ := List.mem_map.mp parked
    have present := Std.TreeMap.mem_toList_iff_getElem?_eq_some.mp listed
    have split := machine.copies_of_parked keyed key found present found.serial
    dsimp only at one split ⊢
    omega
  · have listed : (machine.id, subject.serial) ∈
        (machine.inbox.filterMap Request.subject?).map Instance.address :=
      List.mem_map.mpr ⟨subject, waiting, congrArg₂ Prod.mk own rfl⟩
    have counted := List.count_pos_iff.mpr listed
    rw [count_requests] at counted
    omega

namespace Run

/-- Neither the machine nor a caller has the state of the machine with a number. -/
structure Lacks (run : Run β D N) (serial : Serial) : Prop where
  machine : (run.machine.id, serial) ∉ run.machine.states.map Instance.address
  hands : (run.machine.id, serial) ∉ (run.hands.toList.map Prod.snd).map Instance.address

/-- From now on, whatever is done, nobody has the state with a number, and no hook of it is
called. -/
def Forgets (conduct : Conduct β D N) (run : Run β D N) (serial : Serial) : Prop :=
  ∀ future later, Onward conduct run future later →
    later.Lacks serial ∧ later.callsOf serial = run.callsOf serial

end Run

/-- Nobody has a state that is missing. -/
theorem Stage.Missing.lacks
    {run : Run β D N}
    {serial : Serial}
    (missing : Missing ⟨.idle, [], run⟩ serial)
    (orderly : Orderly ⟨.idle, [], run⟩) :
    run.Lacks serial := by
  have given := run.machine.given_le_one serial
  have nowhere : run.machine.tally run.machine.id serial +
      run.hands.copies run.machine.id serial = 0 := by
    rw [Missing, copies_eq] at missing
    rw [← tally_idle, tally, if_pos rfl]
    dsimp only at missing ⊢
    omega
  constructor
  · intro member
    obtain ⟨subject, listed, address⟩ := List.mem_map.mp member
    have counted : 1 ≤ run.machine.tally run.machine.id subject.serial :=
      Machine.tally_pos orderly.keyed listed (congrArg Prod.fst address)
    have number : subject.serial = serial := congrArg Prod.snd address
    rw [number] at counted
    omega
  · intro member
    have counted := List.count_pos_iff.mpr member
    rw [Hands.count_address] at counted
    omega

/-- A state that is missing between two calls is forgotten. -/
theorem Stage.Missing.forgets
    {run : Run β D N}
    {serial : Serial}
    (conduct : Conduct β D N)
    (missing : Missing ⟨.idle, [], run⟩ serial)
    (orderly : Orderly ⟨.idle, [], run⟩) :
    run.Forgets conduct serial := by
  intro future later onward
  have persistent := missing_persistent conduct (fun _ => True) serial (run.callsOf serial)
  obtain ⟨orderlyThen, missingThen, calls⟩ :=
    persistent.onward onward (fun _ _ => trivial) ⟨orderly, missing, rfl⟩
  exact ⟨missingThen.lacks orderlyThen, calls⟩

/-! ## The state that was pending before -/

section Superseding

variable {transition : Transition β} {next : Instance β} {batch : List (Request β)}
  {found : Run β D N}

/-- A state that waits to be entered is not current. -/
theorem Stage.Orderly.waiting_elsewhere
    (orderly : Orderly ⟨.found transition, batch, found⟩)
    (occupied : found.machine.pending = some (.replace next)) :
    found.machine.currentSerial ≠ some next.serial := by
  intro here
  have once := orderly.once next.serial
  have given := found.machine.given_le_one next.serial
  have current := found.machine.copies_current next.serial
  have pending : (Transition.replace next).copies next.serial = 1 := if_pos rfl
  rw [if_pos here] at current
  rw [copies_eq, inside, Machine.copies, current, occupied, Option.elim_some, pending] at once
  dsimp only at once
  omega

/-- A state that waited to be entered and that the stack does not refer to is missing after it has
given way to another one. -/
theorem Stage.Orderly.missing_of_superseded
    (orderly : Orderly ⟨.found transition, [], found⟩)
    (occupied : found.machine.pending = some (.replace next))
    (unpushed : next.serial ∉ found.machine.stack) :
    Missing ⟨.idle, [], found.deferred transition⟩ next.serial := by
  have placed := found.deferred_machine_of_waiting transition occupied
  rw [if_neg unpushed] at placed
  obtain ⟨-, hands, -⟩ := found.deferred_frame transition
  have same : (found.deferred transition).machine.given next.serial =
      found.machine.given next.serial := by
    rw [placed]
    rfl
  have once := orderly.once next.serial
  have waited : (Transition.replace next).copies next.serial = 1 := if_pos rfl
  simp only [copies, inside, Phase.copies, Machine.copies, occupied, Option.elim_some, waited,
    requestCopies_nil, Run.outside] at once
  rw [Missing, same]
  simp only [copies, inside, Phase.copies, placed, Machine.copies, Option.elim_some,
    requestCopies_nil, Run.outside, hands]
  omega

/-- A state that waited to be entered and gives way to another one is parked if the stack refers to
it, and otherwise it is missing. -/
theorem Stage.Orderly.superseded
    (orderly : Orderly ⟨.found transition, [], found⟩)
    (occupied : found.machine.pending = some (.replace next)) :
    next.serial ∈ (found.deferred transition).machine.stack ∧
        next.serial ∈ (found.deferred transition).machine.parked ∨
      Missing ⟨.idle, [], found.deferred transition⟩ next.serial := by
  by_cases pushed : next.serial ∈ found.machine.stack
  · left
    rw [found.deferred_machine_of_waiting transition occupied]
    simp [pushed]
  · exact .inr (orderly.missing_of_superseded occupied pushed)

end Superseding

/-! ## Calls that defer a transition -/

/-- A call has gone on from a stage to find a transition when nothing waited in the inbox, has
deferred it, and has done no more.  Nothing has become pending before. -/
def Stage.Defers
    (conduct : Conduct β D N)
    (start : Stage β D N)
    (outcome : Outcome)
    (after : Run β D N) : Prop :=
  ∃ deeds transition found,
    Steps conduct deeds start ⟨.found transition, [], found⟩ ∧
    (∀ previous, found.machine.pending = some previous →
      start.run.machine.pending = some previous) ∧
    outcome = .deferred transition.kind transition.serial (found.discarded transition) ∧
    after = found.deferred transition

section Calls

variable {conduct : Conduct β D N} {run after : Run β D N} {outcome : Outcome}

/-- In deferred mode, a requested transition becomes the pending one. -/
theorem Kernel.switchOwn_defers
    {wanted : Request β}
    (patient : run.machine.config.immediate = false)
    (empty : run.machine.inbox = [])
    (done : switchOwn conduct wanted run = .ok outcome after) :
    Stage.Defers conduct ⟨.idle, [wanted], run⟩ outcome after := by
  obtain ⟨transition, found, taken, submits⟩ := bind_ok done
  have steps : Steps conduct [] ⟨.idle, [wanted], run⟩ ⟨.found transition, [], found⟩ :=
    (takeUp_follows .caller wanted nofun).steps_ok taken
  obtain ⟨made, -, machine⟩ := takeUp_machine taken
  have patientThen : found.machine.config.immediate = false := by
    rw [machine]
    exact patient
  have emptyThen : found.machine.inbox = [] := by
    rw [machine]
    exact empty
  have defers := submit_serve_apply_deferred conduct transition id found patientThen emptyThen
  obtain ⟨rfl, rfl⟩ := EStateM.Result.ok.inj (defers.symm.trans submits)
  refine ⟨[], transition, found, steps, ?_, rfl, rfl⟩
  rw [machine]
  exact fun _ waiting => waiting

/-- In deferred mode, a pop that finds a state makes it the pending one. -/
theorem Kernel.popOwn_defers
    (patient : run.machine.config.immediate = false)
    (empty : run.machine.inbox = [])
    (done : popOwn conduct run = .ok (some outcome) after) :
    Stage.Defers conduct ⟨.idle, [], run⟩ outcome after := by
  rw [popOwn_apply] at done
  split at done
  next => cases done
  next serial below top =>
    split at done
    next => cases done
    next transition rest retrieved =>
      have step : Step conduct [.pop] ⟨.idle, [], run⟩ ⟨.found transition, [], _⟩ :=
        .pop serial below transition rest top retrieved List.mem_cons_self
      have waited (previous : Transition β) (waiting : rest.pending = some previous) :
          run.machine.pending = some previous := by
        obtain ⟨_, _, _, rfl⟩ | ⟨_, _, _, _, _, rfl⟩ | ⟨_, _, _, _, rfl⟩ :=
          Machine.retrieve_cases retrieved
        · exact waiting
        · exact waiting
        · cases waiting
      obtain ⟨_, _, machine⟩ := Machine.retrieve_frame retrieved
      have patientThen : rest.config.immediate = false := by
        rw [machine]
        exact patient
      have emptyThen : rest.inbox = [] := by
        rw [machine]
        exact empty
      rw [submit_serve_apply_deferred conduct transition some _ patientThen emptyThen] at done
      cases done
      exact ⟨_, transition, _, .single step, waited, rfl, rfl⟩

/-- In deferred mode, a shutdown to a shutdown state becomes the pending transition. -/
theorem Kernel.shutdownOwn_defers
    (patient : run.machine.config.immediate = false)
    (empty : run.machine.inbox = [])
    (done : shutdownOwn conduct run = .ok (some outcome) after) :
    Stage.Defers conduct ⟨.idle, [], run⟩ outcome after := by
  cases terminal : run.machine.config.shutdown with
  | none =>
      obtain ⟨_, _, looked, done⟩ := bind_ok done
      cases looked
      rw [terminal] at done
      obtain ⟨_, _, _, done⟩ := bind_ok done
      obtain ⟨_, _, _, done⟩ := bind_ok done
      obtain ⟨_, _, _, done⟩ := bind_ok done
      cases done
  | some kind =>
      rw [shutdownOwn_apply_some conduct terminal empty, ← bind_pure_comp] at done
      obtain ⟨_, _, switched, done⟩ := bind_ok done
      cases done
      have defers : Stage.Defers conduct ⟨.idle, [.fresh kind], run.announced kind⟩ outcome after :=
        switchOwn_defers patient empty switched
      obtain ⟨deeds, transition, found, steps, waited, answer, final⟩ := defers
      let announcement : Entry β N := .logged (.shuttingDown kind (run.machine.shownName kind))
      have starts : Steps conduct deeds ⟨.idle, [], run⟩
          ⟨.idle, [.fresh kind], run.announced kind⟩ :=
        .head (.write announcement not_false nofun rfl)
          (.single (.take (.fresh kind) (.fresh kind) rfl))
      exact ⟨deeds, transition, found, starts.trans steps, waited, answer, final⟩

/-- A call that answers that a transition is deferred has deferred it. -/
theorem Call.work_defers
    (call : Call β)
    (patient : run.machine.config.immediate = false)
    (empty : run.machine.inbox = [])
    (done : call.work conduct run = .ok (.outcome outcome) after) :
    Stage.Defers conduct ⟨.idle, call.requests, run⟩ outcome after := by
  have ofOutcome (found : Option Outcome) (answers : Reply.ofOutcome found = .outcome outcome) :
      found = some outcome := by
    cases found with
    | none => cases answers
    | some other =>
        cases answers
        rfl
  cases call with
  | switchTo wanted =>
      obtain ⟨_, switched, answers⟩ := Kernel.map_ok done
      cases answers
      exact Kernel.switchOwn_defers patient empty switched
  | tick delta valid =>
      obtain ⟨_, _, _, done⟩ := Kernel.bind_ok done
      cases done
  | pop =>
      obtain ⟨found, popped, answers⟩ := Kernel.map_ok done
      cases ofOutcome found answers
      exact Kernel.popOwn_defers patient empty popped
  | restart =>
      obtain ⟨_, _, _, done⟩ := Kernel.bind_ok done
      cases done
  | shutdown =>
      obtain ⟨found, ended, answers⟩ := Kernel.map_ok done
      cases ofOutcome found answers
      exact Kernel.shutdownOwn_defers patient empty ended

end Calls

/-- What becomes of a state that is named as discarded depends on the transition that was pending
before. -/
theorem Stage.Defers.discarded
    {conduct : Conduct β D N}
    {start : Stage β D N}
    {kind : Kind}
    {serial gone : Serial}
    {after : Run β D N}
    (defers : start.Defers conduct (.deferred kind serial (some gone)) after)
    (orderly : start.Orderly) :
    gone ≠ serial ∧ after.machine.pendingSerial = some serial ∧
      ∃ previous, start.run.machine.pending = some previous ∧ previous.serial = gone ∧
        match previous with
        | .reenter _ _ => after.machine.currentSerial = some gone
        | .replace _ =>
            after.machine.currentSerial ≠ some gone ∧
              (gone ∈ after.machine.stack ∧ gone ∈ after.machine.parked ∨
                Missing ⟨.idle, [], after⟩ gone) := by
  obtain ⟨deeds, transition, found, steps, waited, answer, rfl⟩ := defers
  obtain ⟨-, rfl, names⟩ := Outcome.deferred.inj answer
  obtain ⟨pending, other⟩ := Option.filter_eq_some_iff.mp names.symm
  obtain ⟨previous, occupied, rfl⟩ := Option.map_eq_some_iff.mp pending
  have orderlyThen := Steps.invariant (fun _ _ step => step.orderly) steps orderly
  obtain ⟨-, -, parked, machine⟩ := found.deferred_frame transition
  have current : (found.deferred transition).machine.currentSerial =
      found.machine.currentSerial := by
    rw [machine]
    rfl
  have leads : (found.deferred transition).machine.pendingSerial = some transition.serial := by
    rw [machine]
    rfl
  refine ⟨of_decide_eq_true other, leads, previous, waited previous occupied, rfl, ?_⟩
  cases previous with
  | reenter kind serial =>
      dsimp only
      rw [current]
      refine Machine.currentSerial_of_identity (orderlyThen.again (kind, serial) (.inr ?_))
      rw [occupied]
      rfl
  | replace next =>
      dsimp only
      rw [current]
      exact ⟨orderlyThen.waiting_elsewhere occupied, orderlyThen.superseded occupied⟩

/-! ## Operations -/

/-- Only an operation that makes a call answers what became of a transition. -/
theorem Kernel.call?_of_outcome
    {conduct : Conduct β D N}
    {operation : Operation β D}
    {run after : Run β D N}
    {outcome : Outcome}
    (done : perform conduct operation run = .ok (.outcome outcome) after) :
    ∃ call start, operation.call? run = some (call, start) := by
  cases operation with
  | switchTo target =>
      cases taken : (run.take target).1 with
      | none =>
          rw [perform, bind_apply, takeTarget_apply, taken] at done
          cases done
      | some wanted => exact ⟨_, _, congrArg (Option.map _) taken⟩
  | pop => exact ⟨_, _, rfl⟩
  | restart => exact ⟨_, _, rfl⟩
  | shutdown => exact ⟨_, _, rfl⟩
  | post target =>
      obtain ⟨request, _, _, done⟩ := bind_ok done
      cases request with
      | none => cases done
      | some posted =>
          obtain ⟨_, _, _, done⟩ := bind_ok done
          cases done
  | create kind slot | adopt kind behavior slot =>
      obtain ⟨_, _, _, done⟩ := bind_ok done
      obtain ⟨_, _, _, done⟩ := bind_ok done
      cases done
  | pauseHeld slot paused =>
      obtain ⟨_, _, _, done⟩ := bind_ok done
      split at done
      · obtain ⟨_, _, _, done⟩ := bind_ok done
        cases done
      · cases done
  | _ =>
      obtain ⟨_, _, _, done⟩ := bind_ok done
      cases done

/-- An operation that answers what became of a transition has served what was posted, and then a
call has done its own work. -/
theorem Run.perform_outcome
    {conduct : Conduct β D N}
    {run : Run β D N}
    {now : Instant}
    {operation : Operation β D}
    {outcome : Outcome}
    (answer : (run.perform conduct now operation).1 = .ok (.outcome outcome)) :
    ∃ call start drained,
      operation.call? { run with now := now } = some (call, start) ∧
      Kernel.serveHandles conduct start = .ok () drained ∧
      Steps conduct [.serve] ⟨.idle, [], { run with now := now }⟩
        ⟨.idle, call.requests, drained⟩ ∧
      call.work conduct drained = .ok (.outcome outcome) (run.perform conduct now operation).2 := by
  have ends := run.kernel_perform conduct now operation
  rw [answer] at ends
  obtain ⟨call, start, calls⟩ := Kernel.call?_of_outcome ends
  obtain ⟨same, -⟩ := Kernel.perform_of_call conduct calls
  rw [same, Call.perform_eq] at ends
  obtain ⟨_, drained, drains, works⟩ := Kernel.bind_ok ends
  have begins : Steps conduct [.serve] ⟨.idle, [], { run with now := now }⟩
      ⟨.idle, call.requests, start⟩ :=
    Call.steps_of_call? calls
  have serving : Follows conduct [.serve] (Kernel.serveHandles conduct)
      ⟨.idle, call.requests, start⟩ (fun _ => .idle) call.requests call.requests :=
    Kernel.serveHandles_follows List.mem_cons_self
  exact ⟨call, start, drained, calls, drains, begins.trans (serving.steps_ok drains), works⟩

/-- An operation in deferred mode that names a discarded state has made another one pending.  After
the requests that were posted had been served, a transition to the named state was pending.  If it
was to enter this state, the state is not current now, and it is parked if it is on the stack, and
otherwise nobody has it and no hook of it will ever be called.  But if it was to let the current
state exit and enter again, then the named state is the current one. -/
theorem discarded_departs_unless_current
    {id : MachineId}
    {config : Config}
    {registry : Registry β}
    {data : D}
    {origin : Machine β D}
    {conduct : Conduct β D N}
    {permitted : Except Interruption Reply → Prop}
    {run : Run β D N}
    {kind : Kind}
    {serial gone : Serial}
    (made : Machine.make id config registry data = .ok origin)
    (patient : config.immediate = false)
    (reached : Reachable conduct permitted origin run)
    (now : Instant)
    (operation : Operation β D)
    (answer : (run.perform conduct now operation).1 =
      .ok (.outcome (.deferred kind serial (some gone)))) :
    let after := (run.perform conduct now operation).2
    gone ≠ serial ∧ after.machine.pendingSerial = some serial ∧
      ∃ call start drained previous,
        operation.call? { run with now := now } = some (call, start) ∧
        Kernel.serveHandles conduct start = .ok () drained ∧
        drained.machine.pending = some previous ∧
        previous.serial = gone ∧
        match previous with
        | .reenter _ _ => after.machine.currentSerial = some gone
        | .replace _ =>
            after.machine.currentSerial ≠ some gone ∧
              (gone ∈ after.machine.stack ∧ gone ∈ after.machine.parked ∨
                after.Forgets conduct gone) := by
  intro after
  have orderly := (orderly_lasting conduct permitted made).reachable reached
  have orderlyAfter : Stage.Orderly ⟨.idle, [], after⟩ :=
    (orderly_lasting conduct (fun _ => True) made).perform run now operation trivial orderly
  have fixed := (fixed_lasting conduct permitted made).reachable reached
  obtain ⟨call, start, drained, calls, drains, steps, works⟩ := Run.perform_outcome answer
  have orderlyThen := steps.invariant (fun _ _ step => step.orderly) (orderly.clock now)
  have patientThen : drained.machine.config.immediate = false := by
    have config := steps.fixed.2.1
    dsimp only at config
    rw [config, fixed.2.1]
    exact patient
  have empty : drained.machine.inbox = [] := Kernel.serveHandles_ok conduct drains
  obtain ⟨other, pending, previous, occupied, named, leads⟩ :=
    (call.work_defers patientThen empty works).discarded orderlyThen
  refine ⟨other, pending, call, start, drained, previous, calls, drains, occupied, named, ?_⟩
  cases previous with
  | reenter kind serial => exact leads
  | replace next =>
      obtain ⟨elsewhere, places⟩ := leads
      exact ⟨elsewhere, places.imp_right fun missing => missing.forgets conduct orderlyAfter⟩

/-- A relay on which the second state is pending. -/
def relayDeferred : Run Actor Meter Note :=
  ((relayStarted false).perform Actor.conduct .epoch (.switchTo (.fresh ⟨2⟩))).2

/-- Once a third state is pending on the relay, nobody has the second one any more. -/
theorem discarded_departs_unless_current_relay :
    (relayDeferred.perform Actor.conduct .epoch (.switchTo (.fresh ⟨2⟩))).2.Forgets
      Actor.conduct ⟨2⟩ := by
  have reached : Reachable Actor.conduct Unbroken (relay false) relayDeferred :=
    .perform _ _ (relayStarted_reachable false) (by decide +kernel)
  have answer : (relayDeferred.perform Actor.conduct .epoch (.switchTo (.fresh ⟨2⟩))).1 =
      .ok (.outcome (.deferred ⟨2⟩ ⟨3⟩ (some ⟨2⟩))) := by
    decide +kernel
  obtain ⟨-, -, _, _, _, previous, -, -, -, -, leads⟩ :=
    discarded_departs_unless_current (relay_made false) rfl reached .epoch
      (.switchTo (.fresh ⟨2⟩)) answer
  cases previous with
  | reenter kind serial =>
      have first : (relayDeferred.perform Actor.conduct .epoch
          (.switchTo (.fresh ⟨2⟩))).2.machine.currentSerial = some ⟨1⟩ := by
        decide +kernel
      cases first.symm.trans leads
  | replace next =>
      refine leads.2.resolve_left fun pushed => ?_
      have bare : (relayDeferred.perform Actor.conduct .epoch
          (.switchTo (.fresh ⟨2⟩))).2.machine.stack = [] := by
        decide +kernel
      rw [bare] at pushed
      exact List.not_mem_nil pushed.1

/-- A relay that has pushed its first state and is to come back to it. -/
def relayReturning : Run Actor Meter Note :=
  let pushed := ((relayStarted false).perform Actor.conduct .epoch .push).2
  (pushed.perform Actor.conduct .epoch .pop).2

/-- The relay names its first state as discarded while it is current, and a hook of this state is
called at the next tick. -/
theorem relay_discards_current :
    let after := (relayReturning.perform Actor.conduct .epoch (.switchTo (.fresh ⟨2⟩))).2
    let ticked := (after.perform Actor.conduct .epoch (.tick ⟨0⟩)).2
    Reachable Actor.conduct Unbroken (relay false) relayReturning ∧
      (relayReturning.perform Actor.conduct .epoch (.switchTo (.fresh ⟨2⟩))).1 =
        .ok (.outcome (.deferred ⟨2⟩ ⟨2⟩ (some ⟨1⟩))) ∧
      after.machine.currentSerial = some ⟨1⟩ ∧
      ticked.callsOf ⟨1⟩ ≠ after.callsOf ⟨1⟩ := by
  refine ⟨?_, by decide +kernel, by decide +kernel, by decide +kernel⟩
  have pushed : Reachable Actor.conduct Unbroken (relay false)
      ((relayStarted false).perform Actor.conduct .epoch .push).2 :=
    .perform _ _ (relayStarted_reachable false) (by decide +kernel)
  exact .perform _ _ pushed (by decide +kernel)

end TickMachine
