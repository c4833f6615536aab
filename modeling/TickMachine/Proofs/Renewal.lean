import TickMachine.Proofs.Rejection

/-!
# Restarting a state

A restart only asks the current state what to do.  A state that leaves the answer to the machine
asks for a new state of its own kind, and the request is served at once.  In immediate mode the
state exits and the new one enters in its place; in deferred mode the new one is pending.  A state
of a kind that has no prototype, which only its owner can have brought in, stays as it is.
-/

namespace TickMachine

variable {β D N : Type}

namespace Run

/-- A state has made room for another one: it has exited, and the other one has entered after that.
The state that has exited is parked if the stack refers to it, and otherwise it is gone. -/
structure Renews
    (conduct : Conduct β D N)
    (run : Run β D N)
    (subject next : Instance β)
    (entered : Run β D N) : Prop where
  serves : Kernel.serveAsked conduct (.fresh subject.kind)
    (run.write (.called .restart subject.kind subject.serial)) = .ok () entered
  calls : entered.calls = run.calls ++
    [(.restart, subject.kind, subject.serial), (.exit, subject.kind, subject.serial),
      (.enter, next.kind, next.serial)]
  current : ∃ changed,
    next.Changed conduct [.enter] [] changed ∧ entered.machine.current = some changed
  stack : entered.machine.stack = run.machine.stack
  parks : subject.serial ∈ run.machine.stack →
    ∃ previous, subject.Changed conduct [.exit] [] previous ∧
      entered.machine.parked = run.machine.parked.insert subject.serial previous
  drops : subject.serial ∉ run.machine.stack →
    entered.machine.parked = run.machine.parked ∧ entered.machine.copies subject.serial = 0

/-- The run on which the current state has asked for a new state of its kind. -/
def renewalAsked (run : Run β D N) (subject : Instance β) : Run β D N :=
  (run.write (.called .restart subject.kind subject.serial)).enqueue (.fresh subject.kind)

end Run

section Asking

variable {conduct : Conduct β D N} {run : Run β D N} {subject : Instance β}

theorem Run.calls_called
    (run : Run β D N)
    (hook : Hook)
    (kind : Kind)
    (serial : Serial) :
    (run.write (.called hook kind serial)).calls = run.calls ++ [(hook, kind, serial)] := by
  simp [calls, Entry.call?]

/-- A state that leaves a restart to the machine asks for a new state of its kind. -/
theorem Run.hooked_replace
    (present : run.machine.current = some subject)
    (byDefault : ∀ view : View D, conduct.react .restart subject.behavior view =
      .replace subject.behavior view) :
    (run.reaction conduct .restart subject).breakdown = none ∧
      run.hooked conduct .restart subject = run.renewalAsked subject := by
  have reacts : run.reaction conduct .restart subject =
      .replace subject.behavior (run.view subject) :=
    byDefault _
  refine ⟨by rw [reacts]; rfl, ?_⟩
  have settles : run.settled conduct .restart subject = subject := by
    rw [settled, reacts]
    rfl
  have reacted : run.reacted conduct .restart subject = run.renewalAsked subject := by
    simp only [Run.reacted, asked, reacts, Reaction.replace, Reaction.idle, Hands.claim]
    simp [renewalAsked, enqueue, mapMachine, write, view]
  have here : (run.renewalAsked subject).machine.current = some subject := present
  rw [hooked, reacted, settles, ← here]
  rfl

/-- When nothing was posted, a restart is what becomes of the request of the current state. -/
theorem Run.perform_restart_replace
    (present : run.machine.current = some subject)
    (empty : run.machine.inbox = [])
    (byDefault : ∀ view : View D, conduct.react .restart subject.behavior view =
      .replace subject.behavior view)
    (now : Instant) :
    run.perform conduct now .restart =
      match Kernel.serveHooks conduct ({ run with now := now }.renewalAsked subject) with
      | .ok _ after => (.ok .done, after)
      | .error cause after => (.error cause, after) := by
  let start : Run β D N := { run with now := now }
  obtain ⟨unbroken, asks⟩ : (start.reaction conduct .restart subject).breakdown = none ∧
      start.hooked conduct .restart subject = start.renewalAsked subject :=
    hooked_replace present byDefault
  have called := Kernel.callCurrent_apply_some conduct .restart start subject present
  rw [unbroken, asks] at called
  have works : Kernel.restartOwn conduct start =
      Kernel.serveHooks conduct (start.renewalAsked subject) := by
    rw [Kernel.restartOwn, Kernel.bind_apply, Kernel.machine_apply]
    dsimp only
    rw [present]
    dsimp only
    rw [Kernel.bind_apply, called]
    rfl
  rw [perform, Kernel.perform_of_drained rfl (Kernel.serveHandles_apply_empty conduct start empty),
    Call.work, Kernel.bind_apply, works]
  cases Kernel.serveHooks conduct (start.renewalAsked subject) <;> rfl

/-- Where requests may be chained at all, one that waits is served. -/
theorem Kernel.serveHooks_waiting
    (conduct : Conduct β D N)
    {asked : Request β}
    {more : List (Request β)}
    (waiting : run.machine.inbox = asked :: more)
    (chained : run.machine.config.chainLimit ≠ 0) :
    ∃ rest, serveHooks conduct run =
      (do serveAsked conduct asked; serveWithin conduct rest) (run.withInbox more) := by
  have positive : chainBudget run.machine ≠ 0 := by
    unfold chainBudget
    split
    · exact fun zero => chained (UInt64.toNat_inj.mp zero)
    · simp [waiting]
  obtain ⟨rest, budget⟩ := Nat.exists_eq_add_one_of_ne_zero positive
  have serves : serveHooks conduct run = serveWithin conduct (rest + 1) run := by
    rw [← budget]
    rfl
  exact ⟨rest, serves.trans (serveWithin_succ_waiting conduct rest waiting)⟩

/-- A request of a hook that has been taken up is served by its transition. -/
theorem Kernel.serveAsked_of_taken
    {asked : Request β}
    {taken : Run β D N}
    {transition : Transition β}
    (takes : takeUp .hook asked run = .ok transition taken) :
    serveAsked conduct asked run = (submit conduct transition >>= fun _ => pure ()) taken := by
  rw [serveAsked, bind_apply, orMend, takes]

/-- The request of a state that leaves a restart to the machine is served. -/
theorem Run.serveHooks_renewalAsked
    (conduct : Conduct β D N)
    (subject : Instance β)
    (empty : run.machine.inbox = [])
    (chained : run.machine.config.chainLimit ≠ 0) :
    ∃ rest, Kernel.serveHooks conduct (run.renewalAsked subject) =
      (do
        Kernel.serveAsked conduct (.fresh subject.kind)
        Kernel.serveWithin conduct rest)
      (run.write (.called .restart subject.kind subject.serial)) := by
  have waiting : (run.renewalAsked subject).machine.inbox = [.fresh subject.kind] := by
    change run.machine.inbox ++ [.fresh subject.kind] = _
    rw [empty]
    rfl
  have alone : (run.renewalAsked subject).withInbox [] =
      run.write (.called .restart subject.kind subject.serial) := by
    unfold renewalAsked withInbox enqueue mapMachine write
    rw [← empty]
  rw [← alone]
  exact Kernel.serveHooks_waiting conduct waiting chained

/-- If the kind has no prototype, nothing has changed but that the state was asked. -/
theorem Run.renewal_refused
    (conduct : Conduct β D N)
    {reason : Unavailable}
    (empty : run.machine.inbox = [])
    (chained : run.machine.config.chainLimit ≠ 0)
    (lacks : run.machine.registry.Lacks subject.kind reason) :
    ∃ after,
      Kernel.serveHooks conduct (run.renewalAsked subject) =
        .error (.refused (.unavailable subject.kind reason)) after ∧
      after.machine = run.machine ∧
      after.calls = run.calls ++ [(.restart, subject.kind, subject.serial)] := by
  let told := run.write (.called .restart subject.kind subject.serial)
  let mended :=
    (told.write (.taken .hook (Request.fresh subject.kind : Request β).label)).mapMachine
      Kernel.emptied
  obtain ⟨rest, serves⟩ := serveHooks_renewalAsked conduct subject empty chained
  have unfit : (Request.fresh subject.kind).Unfit told.machine
      (.unavailable subject.kind reason) :=
    .unavailable lacks
  have stuck := Kernel.takeUp_unresolved .hook (Request.refusal?_eq_some_iff.mpr unfit)
  have fails : Kernel.serveAsked conduct (.fresh subject.kind) told =
      .error (.refused (.unavailable subject.kind reason)) mended := by
    rw [Kernel.serveAsked, Kernel.bind_apply, Kernel.orMend, stuck]
  refine ⟨mended, ?_, ?_, ?_⟩
  · rw [serves, Kernel.bind_apply, fails]
  · change Kernel.emptied run.machine = run.machine
    rw [Kernel.emptied, ← empty]
  · rw [← run.calls_called]
    exact told.calls_write _ not_false

/-- If the kind has a prototype, a new state is made from it. -/
theorem Run.renewal_taken
    {behavior : β}
    (concrete : run.machine.registry.prototype subject.kind = .ok behavior) :
    ∃ taken,
      Kernel.takeUp .hook (.fresh subject.kind)
          (run.write (.called .restart subject.kind subject.serial)) =
        .ok (.replace (run.newborn subject.kind behavior)) taken ∧
      taken.machine = { run.machine with made := run.machine.made + 1 } ∧
      taken.calls = run.calls ++ [(.restart, subject.kind, subject.serial)] := by
  have takes := Kernel.takeUp_fresh .hook subject.kind
    (run.write (.called .restart subject.kind subject.serial))
  rw [Run.write_machine, concrete] at takes
  exact ⟨_, takes, rfl, (Kernel.takeUp_calls takes).trans (run.calls_called _ _ _)⟩

/-- In deferred mode the new state is pending. -/
theorem Run.renewal_deferred
    (conduct : Conduct β D N)
    {behavior : β}
    (empty : run.machine.inbox = [])
    (chained : run.machine.config.chainLimit ≠ 0)
    (concrete : run.machine.registry.prototype subject.kind = .ok behavior)
    (patient : run.machine.config.immediate = false) :
    ∃ after,
      Kernel.serveHooks conduct (run.renewalAsked subject) = .ok () after ∧
      after.calls = run.calls ++ [(.restart, subject.kind, subject.serial)] ∧
      after.machine.current = run.machine.current ∧
      after.machine.pending = some (.replace (run.newborn subject.kind behavior)) := by
  obtain ⟨rest, serves⟩ := serveHooks_renewalAsked conduct subject empty chained
  obtain ⟨taken, takes, machine, told⟩ := renewal_taken concrete
  let next := Transition.replace (run.newborn subject.kind behavior)
  obtain ⟨calls, -, parked, deferred⟩ := taken.deferred_frame next
  have patientThen : taken.machine.config.immediate = false := by
    rw [machine]
    exact patient
  have submits := Kernel.submit_apply_deferred conduct next taken patientThen
  have idle : (taken.deferred next).machine.inbox = [] := by
    rw [deferred, machine]
    exact empty
  refine ⟨taken.deferred next, ?_, calls.trans told, ?_, ?_⟩
  · rw [serves, Kernel.bind_apply, Kernel.serveAsked_of_taken takes, Kernel.bind_apply, submits]
    exact Kernel.serveWithin_apply_empty conduct rest _ idle
  · rw [deferred, machine]
  · rw [deferred]

end Asking

/-! ## Replacing a state -/

/-- A state that is replaced is parked if the stack refers to it. -/
theorem Kernel.replaceCurrent_places
    {conduct : Conduct β D N}
    {run after : Run β D N}
    {subject next : Instance β}
    {value : Unit}
    (present : run.machine.current = some subject)
    (done : replaceCurrent conduct next run = .ok value after) :
    after.machine.stack = run.machine.stack ∧
    after.machine.pending = run.machine.pending ∧
    ∃ previous, subject.Changed conduct [.exit] [] previous ∧
      after.machine.parked =
        if subject.serial ∈ run.machine.stack then
          run.machine.parked.insert subject.serial previous
        else run.machine.parked := by
  rw [replaceCurrent_eq] at done
  obtain ⟨before, _, looked, done⟩ := bind_ok done
  cases looked
  obtain ⟨previous, exited, exits, done⟩ := bind_ok done
  rw [exitCurrent_apply_some conduct run subject present] at exits
  obtain ⟨rfl, rfl⟩ := of_ended_eq_ok exits
  obtain ⟨_, vacated, releases, arrives⟩ := bind_ok done
  obtain ⟨_, _, records, arrives⟩ := bind_ok arrives
  cases records
  obtain ⟨_, entered, enters, logs⟩ := bind_ok arrives
  cases logs
  rw [enterNext_apply] at enters
  obtain ⟨-, rfl⟩ := of_ended_eq_ok enters
  -- The entrance of the next state touches neither the stack nor what is pending or parked.
  change vacated.machine.stack = _ ∧ vacated.machine.pending = _ ∧
    ∃ previous, _ ∧ vacated.machine.parked = _
  rw [release, parkOrDrop_apply] at releases
  cases releases
  rw [Run.released_machine]
  exact ⟨rfl, rfl, _, (run.withCurrent none).changed_settled conduct .exit subject, rfl⟩

/-- A state in whose place another one is current, while nothing else has changed, is gone. -/
theorem Stage.Orderly.copies_replaced
    {run : Run β D N}
    {subject next : Instance β}
    {machine : Machine β D}
    (orderly : Stage.Orderly ⟨.idle, [], run⟩)
    (present : run.machine.current = some subject)
    (current : machine.current = some next)
    (other : next.serial ≠ subject.serial)
    (pending : machine.pending = run.machine.pending)
    (parked : machine.parked = run.machine.parked) :
    machine.copies subject.serial = 0 := by
  let vacated (machine : Machine β D) : Machine β D := { machine with current := none }
  have before : run.machine.copies subject.serial =
      subject.copies subject.serial + (vacated run.machine).copies subject.serial :=
    run.machine.copies_of_current subject present subject.serial
  have after : machine.copies subject.serial =
      next.copies subject.serial + (vacated machine).copies subject.serial :=
    machine.copies_of_current next current subject.serial
  have elsewhere :
      (vacated machine).copies subject.serial = (vacated run.machine).copies subject.serial := by
    simp only [vacated, Machine.copies, pending, parked]
  have one : subject.copies subject.serial = 1 := if_pos rfl
  have away : next.copies subject.serial = 0 := if_neg other
  have once := orderly.once subject.serial
  rw [Stage.copies_eq, Stage.inside] at once
  have given := run.machine.given_le_one subject.serial
  dsimp only at once
  omega

section Entering

variable {conduct : Conduct β D N} {run : Run β D N} {subject : Instance β} {behavior : β}

/-- When the new state has entered, the one that was asked has made room for it. -/
theorem Run.Renews.of_made
    {taken entered : Run β D N}
    {value : Unit}
    (orderly : Stage.Orderly ⟨.idle, [], run⟩)
    (present : run.machine.current = some subject)
    (machine : taken.machine = { run.machine with made := run.machine.made + 1 })
    (told : taken.calls = run.calls ++ [(.restart, subject.kind, subject.serial)])
    (made : Kernel.carryOut conduct (.replace (run.newborn subject.kind behavior)) taken =
      .ok value entered)
    (serves : Kernel.serveAsked conduct (.fresh subject.kind)
      (run.write (.called .restart subject.kind subject.serial)) = .ok () entered) :
    Renews conduct run subject (run.newborn subject.kind behavior) entered := by
  have here : taken.machine.current = some subject := by
    rw [machine]
    exact present
  obtain ⟨calls, current⟩ := Kernel.replaceCurrent_enters made
  obtain ⟨stack, pending, previous, changed, parked⟩ := Kernel.replaceCurrent_places here made
  refine ⟨serves, ?_, current, ?_, fun pushed => ?_, fun free => ?_⟩
  · rw [calls, told, taken.exits_of_some subject here, List.append_assoc, List.append_assoc]
    rfl
  · rw [stack, machine]
  · rw [machine, if_pos pushed] at parked
    exact ⟨previous, changed, parked⟩
  · rw [machine] at parked pending
    rw [if_neg free] at parked
    obtain ⟨changed, changes, entering⟩ := current
    have captured := orderly.captured (Stage.inside_pos (.inl present))
    have other : changed.serial ≠ subject.serial := by
      rw [changes.serial]
      exact captured.ne_newborn subject.kind behavior
    exact ⟨parked, orderly.copies_replaced present entering other pending parked⟩

/-- In immediate mode the new state enters in place of the one that was asked. -/
theorem Run.renewal_entered
    (orderly : Stage.Orderly ⟨.idle, [], run⟩)
    (present : run.machine.current = some subject)
    (empty : run.machine.inbox = [])
    (chained : run.machine.config.chainLimit ≠ 0)
    (concrete : run.machine.registry.prototype subject.kind = .ok behavior)
    (immediate : run.machine.config.immediate = true)
    (unbroken : ∀ message after,
      Kernel.serveHooks conduct (run.renewalAsked subject) ≠ .error (.brokenOff message) after) :
    ∃ entered rest,
      Renews conduct run subject (run.newborn subject.kind behavior) entered ∧
      (Kernel.serveWithin conduct rest).final entered =
        (Kernel.serveHooks conduct).final (run.renewalAsked subject) := by
  obtain ⟨rest, serves⟩ := serveHooks_renewalAsked conduct subject empty chained
  obtain ⟨taken, takes, machine, told⟩ := renewal_taken concrete
  let next := run.newborn subject.kind behavior
  have immediateThen : taken.machine.config.immediate = true := by
    rw [machine]
    exact immediate
  have submits := Kernel.submit_apply_immediate conduct (.replace next) taken immediateThen
  cases made : Kernel.carryOut conduct (.replace next) taken with
  | error cause after =>
      cases cause with
      | refused refusal => exact (Kernel.carryOut_willing conduct _ made).elim
      | brokenOff message =>
          refine absurd ?_ (unbroken message after)
          rw [serves, Kernel.bind_apply, Kernel.serveAsked_of_taken takes, Kernel.bind_apply,
            submits, made]
  | ok value entered =>
      have asked : Kernel.serveAsked conduct (.fresh subject.kind)
          (run.write (.called .restart subject.kind subject.serial)) = .ok () entered := by
        rw [Kernel.serveAsked_of_taken takes, Kernel.bind_apply, submits, made]
        rfl
      have ends : (Kernel.serveHooks conduct).final (run.renewalAsked subject) =
          (Kernel.serveWithin conduct rest).final entered := by
        rw [Kernel.final, serves, ← Kernel.final, Kernel.final_bind_ok asked]
      exact ⟨entered, rest, .of_made orderly present machine told made asked, ends.symm⟩

end Entering

/-- A state that leaves a restart to the machine is replaced by a new state of its own kind, if
nothing was posted.  In immediate mode it exits, and the new state enters, before anything else; it
is parked if the stack refers to it, and otherwise it is gone.  In deferred mode it stays current,
and the new state is pending.  If the kind has no prototype, the restart is refused for this reason,
and the machine stays as it is. -/
theorem restart_renews
    {id : MachineId}
    {config : Config}
    {registry : Registry β}
    {data : D}
    {origin : Machine β D}
    {conduct : Conduct β D N}
    {permitted : Except Interruption Reply → Prop}
    {run after : Run β D N}
    {subject : Instance β}
    {answer : Except Interruption Reply}
    (made : Machine.make id config registry data = .ok origin)
    (reached : Reachable conduct permitted origin run)
    (present : run.machine.current = some subject)
    (empty : run.machine.inbox = [])
    (byDefault : ∀ view : View D, conduct.react .restart subject.behavior view =
      .replace subject.behavior view)
    (now : Instant)
    (restarts : run.perform conduct now .restart = (answer, after))
    (safe : Unbroken answer) :
    (∀ behavior, registry.prototype subject.kind = .ok behavior →
      ∃ next : Instance β,
        next.kind = subject.kind ∧
        next.serial = ⟨run.machine.made + 1⟩ ∧
        next.paused = false ∧
        next.behavior = behavior ∧
        (config.immediate = true →
          ∃ entered rest,
            Run.Renews conduct { run with now := now } subject next entered ∧
            after = (Kernel.serveWithin conduct rest).final entered ∧
            Run.CallsOnly (fun call => call.1.IsMove) entered after) ∧
        (config.immediate = false →
          answer = .ok .done ∧
          after.machine.current = some subject ∧
          after.machine.pending = some (.replace next) ∧
          after.calls = run.calls ++ [(.restart, subject.kind, subject.serial)])) ∧
    ∀ reason, registry.Lacks subject.kind reason →
      answer = .error (.refused (.unavailable subject.kind reason)) ∧
      after.machine = run.machine ∧
      after.calls = run.calls ++ [(.restart, subject.kind, subject.serial)] := by
  obtain ⟨-, sameConfig, sameRegistry⟩ := (fixed_lasting conduct permitted made).reachable reached
  have orderly := ((orderly_lasting conduct permitted made).reachable reached).clock now
  let start : Run β D N := { run with now := now }
  have here : start.machine.current = some subject := present
  have idle : start.machine.inbox = [] := empty
  have configured : start.machine.config = config := sameConfig
  have registered : start.machine.registry = registry := sameRegistry
  have chained : start.machine.config.chainLimit ≠ 0 := by
    rw [configured]
    exact Machine.chained_of_make made
  have serves : (match Kernel.serveHooks conduct (start.renewalAsked subject) with
      | .ok _ left => ((.ok .done, left) : Except Interruption Reply × Run β D N)
      | .error cause left => (.error cause, left)) = (answer, after) := by
    rw [← restarts, Run.perform_restart_replace present empty byDefault now]
  rw [← configured, ← registered]
  constructor
  · intro behavior concrete
    refine ⟨start.newborn subject.kind behavior, rfl, rfl, rfl, rfl, fun immediate => ?_,
      fun patient => ?_⟩
    · have unbroken (message : String) (left : Run β D N) :
          Kernel.serveHooks conduct (start.renewalAsked subject) ≠
            .error (.brokenOff message) left := by
        intro broken
        rw [broken] at serves
        cases serves
        exact safe
      have ends : (Kernel.serveHooks conduct).final (start.renewalAsked subject) = after := by
        unfold Kernel.final
        cases served : Kernel.serveHooks conduct (start.renewalAsked subject) with
        | ok value left | error cause left =>
            rw [served] at serves
            cases serves
            rfl
      obtain ⟨entered, rest, renews, more⟩ :=
        Run.renewal_entered orderly here idle chained concrete immediate unbroken
      rw [ends] at more
      have follows : Follows conduct [] (Kernel.serveWithin conduct rest) ⟨.idle, [], entered⟩
          (fun _ => .idle) [] [] :=
        Kernel.serveWithin_follows rest
      obtain ⟨_, _, steps⟩ := follows.steps
      have moves := steps.callsOnly_moves List.not_mem_nil List.not_mem_nil
      rw [more] at moves
      exact ⟨entered, rest, renews, more.symm, moves⟩
    · obtain ⟨left, deferred, calls, current, pending⟩ :=
        Run.renewal_deferred conduct idle chained concrete patient
      rw [deferred] at serves
      cases serves
      exact ⟨rfl, current.trans present, pending, calls⟩
  · intro reason lacks
    obtain ⟨left, refused, machine, calls⟩ := Run.renewal_refused conduct idle chained lacks
    rw [refused] at serves
    cases serves
    exact ⟨rfl, machine, calls⟩

/-- A relay on which a state of the second kind was entered, which has no hooks of its own. -/
def relayPlain : Run Actor Meter Note :=
  (Run.perform Actor.conduct ⟨relay true, ∅, #[], .epoch⟩ .epoch (.switchTo (.fresh ⟨2⟩))).2

/-- When the second kind of state of a relay is restarted, a second state of this kind enters. -/
theorem restart_renews_relay :
    ∃ (subject next : Instance Actor) (entered : Run Actor Meter Note),
      relayPlain.machine.current = some subject ∧
      next.kind = subject.kind ∧
      next.serial = ⟨2⟩ ∧
      Run.Renews Actor.conduct { relayPlain with now := .epoch } subject next entered := by
  have reached : Reachable Actor.conduct Unbroken (relay true) relayPlain :=
    .perform _ _ (.start .epoch) (by decide +kernel)
  have plain : (relayPlain.machine.current.map fun subject =>
      (subject.kind, Actor.casesOn (motive := fun _ => Bool) subject.behavior true
        fun _ _ => false)) = some (⟨2⟩, true) := by
    decide +kernel
  obtain ⟨subject, present, features⟩ := Option.map_eq_some_iff.mp plain
  obtain ⟨kind, idle⟩ := Prod.mk.inj features
  have byDefault (view : View Meter) : Actor.conduct.react .restart subject.behavior view =
      .replace subject.behavior view := by
    cases acts : subject.behavior with
    | idle => rfl
    | scripted script counts =>
        rw [acts] at idle
        cases idle
  have concrete : ∃ behavior, (relay true).registry.prototype subject.kind = .ok behavior := by
    rw [kind]
    exact ⟨.idle, rfl⟩
  obtain ⟨behavior, concrete⟩ := concrete
  obtain ⟨renews, -⟩ := restart_renews (relay_made true) reached present
    (List.isEmpty_iff.mp (by decide +kernel)) byDefault .epoch (Prod.eta _).symm
    (by decide +kernel)
  obtain ⟨next, same, serial, -, -, enters, -⟩ := renews behavior concrete
  obtain ⟨entered, -, renewed, -⟩ := enters rfl
  have first : relayPlain.machine.made = 1 := by decide +kernel
  exact ⟨subject, next, entered, present, same, by rw [serial, first], renewed⟩

end TickMachine
