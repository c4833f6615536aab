import TickMachine.Proofs.Arrivals

/-!
# The last request wins

In deferred mode a tick makes one transition at most, the one that was deferred last.  Between two
ticks each request of a caller, of a handle or of a hook is taken up in the order in which it
arrived, and its transition takes the place of the one that was pending.  A state that came in with
a request and has lost its place is gone.
-/

namespace TickMachine

variable {β D N : Type}

/-! ## What arrives with a call -/

/-- The requests that the current state makes when it is asked to have itself replaced. -/
def Run.restartRequests (conduct : Conduct β D N) (run : Run β D N) : List (Request β) :=
  match run.machine.current with
  | none => []
  | some subject => run.asked conduct .restart subject

/-- What asks for a transition in the own work of a call, apart from ticks and shutdowns. -/
def Call.arrivals (conduct : Conduct β D N) (run : Run β D N) : Call β → List (Arrival β)
  | .switchTo wanted => [.request wanted]
  | .pop => (run.machine.stack.head?.map .resume).toList
  | .restart => (run.restartRequests conduct).map .request
  | .tick _ _ | .shutdown => []

namespace Run.Undisturbed

variable {before after : Run β D N}

/-- The same arrives with a call if no hook has run. -/
theorem arrivals (undisturbed : Undisturbed before after) (conduct : Conduct β D N)
    (call : Call β) : call.arrivals conduct after = call.arrivals conduct before := by
  obtain ⟨-, hands, _, _, _, _, machine⟩ := undisturbed
  cases call with
  | pop =>
      rw [Call.arrivals, machine]
      rfl
  | restart =>
      have current : after.machine.current = before.machine.current := by rw [machine]
      rw [Call.arrivals, Call.arrivals, restartRequests, restartRequests, current]
      cases before.machine.current with
      | none => rfl
      | some subject =>
          exact congrArg _ (Run.asked_eq conduct .restart subject hands (by rw [machine]))
  | _ => rfl

end Run.Undisturbed

namespace Kernel

variable {conduct : Conduct β D N} {run after : Run β D N}

/-- A request by a caller is served. -/
theorem switchOwn_serves
    {wanted : Request β}
    {outcome : Outcome}
    (calm : Stage.Calm ⟨.idle, [wanted], run⟩)
    (empty : run.machine.inbox = [])
    (done : switchOwn conduct wanted run = .ok outcome after) :
    ∃ account : List (Arrival β × Kind × Serial),
      account.map Prod.fst = [.request wanted] ∧
        Stage.Serves account ⟨.idle, [wanted], run⟩ ⟨.idle, [], after⟩ := by
  obtain ⟨transition, taken, takes, submits⟩ := bind_ok done
  obtain ⟨submitted, serves, -, same⟩ := takeUp_serves conduct calm takes
  rw [bind_apply, submitted] at submits
  dsimp only at submits
  rw [bind_apply, serveHooks_apply_empty conduct _ (same.trans empty)] at submits
  cases submits
  exact ⟨[(.request wanted, transition.identity)], rfl, serves⟩

/-- The state that was pushed last is to be entered. -/
theorem popOwn_serves
    {outcome : Option Outcome}
    (calm : Stage.Calm ⟨.idle, [], run⟩)
    (empty : run.machine.inbox = [])
    (done : popOwn conduct run = .ok outcome after) :
    ∃ account : List (Arrival β × Kind × Serial),
      account.map Prod.fst = (run.machine.stack.head?.map .resume).toList ∧
        Stage.Serves account ⟨.idle, [], run⟩ ⟨.idle, [], after⟩ := by
  rw [popOwn_apply] at done
  cases top : run.machine.stack with
  | nil =>
      rw [top] at done
      cases done
      exact ⟨[], rfl, .write conduct calm (.logged .popIgnored) not_false rfl rfl rfl⟩
  | cons serial below =>
      rw [top] at done
      dsimp only at done
      cases retrieved : { run.machine with stack := below }.retrieve serial with
      | none =>
          rw [retrieved] at done
          cases done
      | some leads =>
          obtain ⟨transition, rest⟩ := leads
          rw [retrieved] at done
          dsimp only at done
          let found :=
            Run.write { run with machine := rest } (.logged (.popped serial below.length))
          have steps : Steps conduct [.pop] ⟨.idle, [], run⟩ ⟨.found transition, [], found⟩ :=
            .single (.pop serial below transition rest top retrieved List.mem_cons_self)
          obtain ⟨parked, pending, rfl⟩ := Machine.retrieve_frame retrieved
          have finds : Stage.Proceeds ⟨.idle, [], run⟩ ⟨.found transition, [], found⟩ :=
            .of_steps calm steps (by decide) (by decide) (Nat.le_refl _)
              (Run.deferrals_write_none _ _ rfl)
          have leads : (Arrival.resume serial : Arrival β).LeadsTo run.machine.made
              transition.identity :=
            Machine.retrieve_serial calm.orderly.keyed retrieved
          rw [submit_serve_apply_deferred conduct transition some found calm.patient empty] at done
          cases done
          exact ⟨[(.resume serial, transition.identity)], rfl,
            .deferred conduct (.resume serial) finds leads False.elim⟩

/-- What the current state asks for instead of itself is served. -/
theorem restartOwn_serves
    {value : Unit}
    (calm : Stage.Calm ⟨.idle, [], run⟩)
    (empty : run.machine.inbox = [])
    (done : restartOwn conduct run = .ok value after) :
    ∃ account : List (Arrival β × Kind × Serial),
      account.map Prod.fst = (run.restartRequests conduct).map .request ∧
        Stage.Serves account ⟨.idle, [], run⟩ ⟨.idle, [], after⟩ := by
  rw [restartOwn, bind_apply, machine_apply] at done
  dsimp only at done
  cases present : run.machine.current with
  | none =>
      rw [present] at done
      cases done
      refine ⟨[], ?_, .write conduct calm (.logged .restartIgnored) not_false rfl rfl rfl⟩
      rw [Run.restartRequests, present]
      rfl
  | some subject =>
      rw [present] at done
      obtain ⟨_, middle, asks, served⟩ := bind_ok done
      rw [callCurrent_apply_some conduct .restart run subject present] at asks
      obtain ⟨-, rfl⟩ := of_ended_eq_ok asks
      let hooked := run.hooked conduct .restart subject
      have step : Steps conduct [.restart] ⟨.idle, [], run⟩ ⟨.idle, [], hooked⟩ :=
        .single (.restart subject present List.mem_cons_self)
      have proceeds : Stage.Proceeds ⟨.idle, [], run⟩ ⟨.idle, [], hooked⟩ :=
        .of_steps calm step (by decide) (by decide) (Nat.le_refl _)
          (run.deferrals_reacted conduct .restart subject)
      obtain ⟨-, account, listed, serves⟩ := serveHooks_serves proceeds.calm served
      refine ⟨account, ?_, (proceeds.serves rfl).trans serves⟩
      have inbox : hooked.machine.inbox = run.restartRequests conduct := by
        change run.machine.inbox ++ run.asked conduct .restart subject = _
        rw [empty, Run.restartRequests, present]
        rfl
      rw [listed, inbox]

end Kernel

/-- A call that may belong to a stretch between two ticks. -/
def Call.IsRequesting : Call β → Prop
  | .switchTo _ | .pop | .restart => True
  | .tick _ _ | .shutdown => False

/-- The own work of a call serves what arrives with it. -/
theorem Call.work_arrivals
    {conduct : Conduct β D N}
    {run after : Run β D N}
    {reply : Reply}
    (call : Call β)
    (requesting : call.IsRequesting)
    (calm : Stage.Calm ⟨.idle, call.requests, run⟩)
    (empty : run.machine.inbox = [])
    (done : call.work conduct run = .ok reply after) :
    ∃ account : List (Arrival β × Kind × Serial),
      account.map Prod.fst = call.arrivals conduct run ∧
        Stage.Serves account ⟨.idle, call.requests, run⟩ ⟨.idle, [], after⟩ := by
  cases call with
  | switchTo wanted =>
      obtain ⟨outcome, switched, answers⟩ := Kernel.map_ok done
      cases answers
      exact Kernel.switchOwn_serves calm empty switched
  | pop =>
      obtain ⟨outcome, popped, answers⟩ := Kernel.map_ok done
      cases answers
      exact Kernel.popOwn_serves calm empty popped
  | restart =>
      obtain ⟨_, _, restarted, done⟩ := Kernel.bind_ok done
      cases done
      exact Kernel.restartOwn_serves calm empty restarted
  | tick delta valid => exact requesting.elim
  | shutdown => exact requesting.elim

/-- A call serves what waits in the inbox and then what arrives with it. -/
theorem Call.perform_arrivals
    {conduct : Conduct β D N}
    {run after : Run β D N}
    {reply : Reply}
    (call : Call β)
    (requesting : call.IsRequesting)
    (calm : Stage.Calm ⟨.idle, call.requests, run⟩)
    (done : call.perform conduct run = .ok reply after) :
    after.machine.inbox = [] ∧
      ∃ account : List (Arrival β × Kind × Serial),
        account.map Prod.fst =
            run.machine.inbox.map .request ++ call.arrivals conduct run ∧
          Stage.Serves account ⟨.idle, call.requests, run⟩ ⟨.idle, [], after⟩ := by
  rw [perform_eq] at done
  obtain ⟨_, drained, drains, works⟩ := Kernel.bind_ok done
  have empty : drained.machine.inbox = [] := Kernel.serveHandles_ok conduct drains
  obtain ⟨undisturbed, early, listed, serves⟩ := Kernel.serveHandles_serves calm drains
  obtain ⟨late, arrived, rest⟩ := call.work_arrivals requesting serves.calm empty works
  have tidied := call.work_tidied conduct drained empty
  rw [works] at tidied
  refine ⟨tidied, early ++ late, ?_, serves.trans rest⟩
  rw [List.map_append, listed, arrived, undisturbed.arrivals conduct call]

/-! ## What arrives with an operation -/

/-- What asks for a transition in an operation, apart from ticks and shutdowns. -/
def Operation.arrivals (conduct : Conduct β D N) (run : Run β D N) :
    Operation β D → List (Arrival β)
  | .switchTo target | .post target => ((run.take target).1.map .request).toList
  | .pop => (run.machine.stack.head?.map .resume).toList
  | .restart => (run.restartRequests conduct).map .request
  | _ => []

/-- An operation that may belong to a stretch between two ticks. -/
def Operation.isRequesting : Operation β D → Bool
  | .tick _ | .shutdown => false
  | _ => true

namespace Kernel

variable {conduct : Conduct β D N} {run : Run β D N} {operation : Operation β D}

/-- A call is made with what arrives with its operation. -/
theorem call?_arrivals
    (conduct : Conduct β D N)
    {call : Call β}
    {start : Run β D N}
    (calm : Stage.Calm ⟨.idle, [], run⟩)
    (requesting : operation.isRequesting = true)
    (calls : operation.call? run = some (call, start)) :
    call.IsRequesting ∧
      call.arrivals conduct start = operation.arrivals conduct run ∧
      start.machine = run.machine ∧
      Stage.Proceeds ⟨.idle, [], run⟩ ⟨.idle, call.requests, start⟩ := by
  have still : Stage.Proceeds ⟨.idle, [], run⟩ ⟨.idle, [], run⟩ :=
    ⟨calm, fun _ adrift => adrift, Nat.le_refl _, rfl⟩
  cases operation with
  | switchTo target =>
      have steps : Steps conduct [] ⟨.idle, [], run⟩ ⟨.idle, call.requests, start⟩ :=
        Call.steps_of_call? calls
      obtain ⟨wanted, taken, made⟩ := Option.map_eq_some_iff.mp calls
      cases made
      refine ⟨trivial, ?_, run.take_machine target, ?_⟩
      · rw [Operation.arrivals, taken]
        rfl
      · refine .of_steps calm steps List.not_mem_nil List.not_mem_nil ?_ ?_
        · exact Nat.le_of_eq (congrArg Machine.made (run.take_machine target)).symm
        · rw [Run.deferrals, Run.take_journal]
          rfl
  | pop =>
      cases calls
      exact ⟨trivial, rfl, rfl, still⟩
  | restart =>
      cases calls
      exact ⟨trivial, rfl, rfl, still⟩
  | tick delta => cases requesting
  | shutdown => cases requesting
  | _ => cases calls

/-- What arrives with an operation that makes no call is posted. -/
theorem arrivals_of_no_call
    (conduct : Conduct β D N)
    (requesting : operation.isRequesting = true)
    (aside : operation.call? run = none) :
    operation.arrivals conduct run = (operation.posts run).toList.map .request := by
  cases operation with
  | switchTo target =>
      have missing : (run.take target).1 = none := Option.map_eq_none_iff.mp aside
      rw [Operation.arrivals, missing]
      rfl
  | post target =>
      rw [Operation.arrivals, Operation.posts]
      cases (run.take target).1 <;> rfl
  | tick delta => cases requesting
  | pop | restart | shutdown => cases aside
  | _ => rfl

end Kernel

/-! ## Stretches between two ticks -/

namespace Moment

/-- What asks for a transition in the operation, apart from ticks and shutdowns. -/
def arrivals (conduct : Conduct β D N) (moment : Moment β D N) : List (Arrival β) :=
  moment.operation.arrivals conduct moment.run

/-- The operation may belong to a stretch between two ticks, and it ends with a value. -/
def Succeeds (conduct : Conduct β D N) (moment : Moment β D N) : Prop :=
  moment.operation.isRequesting = true ∧ (moment.answer conduct).isOk = true

end Moment

/-- The clock does not matter to what arrives. -/
theorem Operation.arrivals_clock
    (conduct : Conduct β D N)
    (run : Run β D N)
    (now : Instant)
    (operation : Operation β D) :
    operation.arrivals conduct { run with now := now } = operation.arrivals conduct run := by
  have same (target : Destination) :
      (Run.take { run with now := now } target).1 = (run.take target).1 := by
    cases target with
    | fresh kind => rfl
    | held slot =>
        unfold Run.take
        dsimp only
        cases run.hands[slot]? <;> rfl
  cases operation with
  | switchTo target => rw [arrivals, arrivals, same]
  | post target => rw [arrivals, arrivals, same]
  | _ => rfl

/-- The time may pass. -/
theorem Stage.Calm.clock
    {run : Run β D N}
    (calm : Calm ⟨.idle, [], run⟩)
    (now : Instant) :
    Proceeds ⟨.idle, [], run⟩ ⟨.idle, [], { run with now := now }⟩ where
  calm :=
    ⟨calm.orderly.clock now,
      ⟨calm.noted.captured, calm.noted.current, calm.noted.pushed⟩, calm.patient, calm.still⟩
  kept _ adrift := ⟨adrift.captured, adrift.silent⟩
  made := Nat.le_refl _
  deferrals := rfl

/-- Callers may do what they like with the states in their hands. -/
theorem Stage.Calm.rearrange
    {run : Run β D N}
    (calm : Calm ⟨.idle, [], run⟩)
    (hands : Hands β)
    (kept : (hands.own run.machine.id).Subperm (run.hands.own run.machine.id)) :
    Proceeds ⟨.idle, [], run⟩ ⟨.idle, [], { run with hands := hands }⟩ where
  calm :=
    ⟨calm.orderly.rearrange hands kept,
      ⟨fun serial called => (calm.noted.captured serial called).rearrange hands kept,
        calm.noted.current, calm.noted.pushed⟩, calm.patient, calm.still⟩
  kept _ adrift := ⟨adrift.captured.rearrange hands kept, adrift.silent⟩
  made := Nat.le_refl _
  deferrals := rfl

/-- An operation between two ticks serves a part of what waits in the inbox and what arrives with
it, and the rest waits in the inbox. -/
theorem Run.perform_arrivals
    (conduct : Conduct β D N)
    {run : Run β D N}
    (now : Instant)
    (operation : Operation β D)
    (calm : Stage.Calm ⟨.idle, [], run⟩)
    (requesting : operation.isRequesting = true)
    (done : (run.perform conduct now operation).1.isOk = true) :
    ∃ account : List (Arrival β × Kind × Serial),
      run.machine.inbox.map .request ++ operation.arrivals conduct run =
          account.map Prod.fst ++
            (run.perform conduct now operation).2.machine.inbox.map .request ∧
        Stage.Serves account ⟨.idle, [], run⟩
          ⟨.idle, [], (run.perform conduct now operation).2⟩ := by
  have ready := calm.clock now
  rw [← operation.arrivals_clock conduct run now]
  cases makes : operation.call? { run with now := now } with
  | some made =>
      obtain ⟨call, start⟩ := made
      obtain ⟨same, -⟩ := Kernel.perform_of_call conduct makes
      obtain ⟨calling, arrived, machine, taken⟩ :=
        Kernel.call?_arrivals conduct ready.calm requesting makes
      unfold Run.perform at done ⊢
      rw [same] at done ⊢
      cases ends : call.perform conduct start with
      | error cause after =>
          rw [ends] at done
          cases done
      | ok reply after =>
          obtain ⟨empty, account, listed, serves⟩ :=
            call.perform_arrivals calling taken.calm ends
          have begun := (ready.serves rfl).trans (taken.serves (by rw [machine]))
          refine ⟨account, ?_, begun.trans serves⟩
          dsimp only
          rw [listed, arrived, machine, empty, List.map_nil, List.append_nil]
  | none =>
      have aside := Kernel.perform_of_no_call conduct makes
      rw [← Run.perform_final] at aside
      have course := run.perform_course conduct now operation
      cases answer : (run.perform conduct now operation).1 with
      | error cause =>
          rw [answer] at done
          cases done
      | ok reply =>
          rw [answer] at course
          have neverResumed : .resume ∉ operation.deeds := by
            cases operation with
            | tick delta => cases requesting
            | _ => simp [Operation.deeds]
          have neverLeft : .leave ∉ operation.deeds := by
            cases operation with
            | shutdown => cases requesting
            | _ => simp [Operation.deeds]
          have proceeds : Stage.Proceeds ⟨.idle, [], { run with now := now }⟩
              ⟨.idle, [], (run.perform conduct now operation).2⟩ :=
            .of_steps ready.calm course neverResumed neverLeft aside.made aside.deferrals
          refine ⟨[], ?_, (ready.serves rfl).trans (proceeds.serves (congrArg _ aside.pending))⟩
          rw [aside.inbox, List.map_append, Kernel.arrivals_of_no_call conduct requesting makes]
          rfl

/-- Between two ticks the requests are served in the order in which they arrive. -/
theorem Onward.arrivals
    {conduct : Conduct β D N}
    {past : List (Moment β D N)}
    {start run : Run β D N}
    (onward : Onward conduct start past run)
    (calm : Stage.Calm ⟨.idle, [], start⟩)
    (succeed : ∀ moment ∈ past, moment.Succeeds conduct) :
    ∃ account : List (Arrival β × Kind × Serial),
      start.machine.inbox.map .request ++ past.flatMap (Moment.arrivals conduct) =
          account.map Prod.fst ++ run.machine.inbox.map .request ∧
        Stage.Serves account ⟨.idle, [], start⟩ ⟨.idle, [], run⟩ := by
  induction onward with
  | stay => exact ⟨[], List.append_nil _, .refl calm⟩
  | @perform past run now operation before inductionHypothesis =>
      obtain ⟨earlier, last⟩ := List.forall_mem_append.mp succeed
      obtain ⟨requesting, done⟩ := List.forall_mem_singleton.mp last
      obtain ⟨early, listed, serves⟩ := inductionHypothesis earlier
      obtain ⟨late, arrived, rest⟩ :=
        Run.perform_arrivals conduct now operation serves.calm requesting done
      refine ⟨early ++ late, ?_, serves.trans rest⟩
      rw [List.flatMap_append, ← List.append_assoc, listed, List.map_append, List.append_assoc,
        List.append_assoc, ← arrived, List.flatMap_singleton]
      rfl
  | rearrange hands before kept inductionHypothesis =>
      obtain ⟨account, listed, serves⟩ := inductionHypothesis succeed
      have moved := serves.calm.rearrange hands kept
      refine ⟨account ++ [], ?_, serves.trans (moved.serves rfl)⟩
      rw [List.append_nil]
      exact listed

/-! ## The next tick -/

/-- A stage at which nothing is on its way is calm after any steps in deferred mode. -/
theorem Steps.calm_idle
    {conduct : Conduct β D N}
    {deeds : List Deed}
    {before : Stage β D N}
    {batch : List (Request β)}
    {after : Run β D N}
    (steps : Steps conduct deeds before ⟨.idle, batch, after⟩)
    (calm : before.Calm) :
    Stage.Calm ⟨.idle, batch, after⟩ where
  orderly := steps.invariant (fun _ _ step => step.orderly) calm.orderly
  noted := by
    have preserved (first second : Stage β D N) (step : Step conduct deeds first second)
        (held : first.Orderly ∧ first.Noted) : second.Orderly ∧ second.Noted :=
      ⟨step.orderly held.1, step.noted held.1 held.2⟩
    exact (Steps.invariant preserved steps ⟨calm.orderly, calm.noted⟩).2
  patient := by
    rw [steps.fixed.2.1]
    exact calm.patient
  still := not_false

/-- The calls with which a state becomes current, if there is one that does. -/
def Run.entrance (run : Run β D N) : Option (Kind × Serial) → List (Hook × Kind × Serial)
  | none => []
  | some found => run.exits ++ [(.enter, found)]

/-- The pending transition leads to a state that is not current, or lets the current state exit and
enter again. -/
theorem Stage.Orderly.pending_leads
    {batch : List (Request β)}
    {run : Run β D N}
    {transition : Transition β}
    (orderly : Orderly ⟨.idle, batch, run⟩)
    (waiting : run.machine.pending = some transition) :
    ∃ subject : Instance β,
      subject.identity = transition.identity ∧
      (transition = .replace subject ∧ run.machine.currentSerial ≠ some subject.serial ∨
        transition = .reenter subject.kind subject.serial ∧
          run.machine.current = some subject) := by
  cases transition with
  | replace next =>
      refine ⟨next, rfl, .inl ⟨rfl, fun here => ?_⟩⟩
      obtain ⟨subject, present, same⟩ := Option.map_eq_some_iff.mp here
      have once := orderly.once next.serial
      have few := run.machine.given_le_one next.serial
      have twice : run.machine.copies next.serial =
          1 + 1 + parkedCopies run.machine.parked next.serial := by
        rw [Machine.copies, present, waiting]
        simp [Transition.copies, Instance.copies, same]
      rw [copies_eq, inside, twice] at once
      dsimp only at once
      omega
  | reenter kind serial =>
      have again := orderly.again (kind, serial)
        (.inr (congrArg (Option.bind · Transition.again?) waiting))
      obtain ⟨subject, present, same⟩ := Option.map_eq_some_iff.mp again
      cases same
      exact ⟨subject, rfl, .inr ⟨rfl, present⟩⟩

namespace Kernel

variable {conduct : Conduct β D N} {run after : Run β D N} {value : Unit}

/-- What hooks ask for is only deferred. -/
theorem serveHooks_quiet
    (calm : Stage.Calm ⟨.idle, [], run⟩)
    (served : serveHooks conduct run = .ok value after) :
    Stage.Calm ⟨.idle, [], after⟩ ∧
      after.calls = run.calls ∧ after.machine.current = run.machine.current := by
  obtain ⟨⟨calls, -, _, _, _, _, machine⟩, _, -, serves⟩ := serveHooks_serves calm served
  exact ⟨serves.calm, calls, by rw [machine]⟩

/-- In deferred mode the pending transition is made, and no other one. -/
theorem carryOutPending_enters
    (calm : Stage.Calm ⟨.idle, [], run⟩)
    (done : carryOutPending conduct run = .ok value after) :
    let target := run.machine.pending.map Transition.identity
    Stage.Calm ⟨.idle, [], after⟩ ∧
      after.calls = run.calls ++ run.entrance target ∧
      after.machine.current.map Instance.identity =
        target.or (run.machine.current.map Instance.identity) := by
  rw [carryOutPending, bind_apply, takePending_apply] at done
  dsimp only at done ⊢
  cases waiting : run.machine.pending with
  | none =>
      rw [waiting, mapMachine_free run waiting] at done
      cases done
      exact ⟨calm, (List.append_nil _).symm, rfl⟩
  | some transition =>
      rw [waiting] at done
      obtain ⟨_, entered, made, served⟩ := bind_ok done
      obtain ⟨subject, same, leads⟩ := calm.orderly.pending_leads waiting
      let ready := run.mapMachine fun machine => { machine with pending := none }
      have enters : Run.Enters conduct ready subject
          (if ready.machine.currentSerial = some subject.serial then [.exit, .enter] else [.enter])
          entered :=
        carryOut_enters leads made
      obtain ⟨calls, changed, changes, current⟩ := enters
      have steps : Steps conduct [.resume] ⟨.idle, [], run⟩ ⟨.idle, [], entered⟩ :=
        .head (.resume transition waiting List.mem_cons_self)
          ((carryOut_follows transition).steps_ok made)
      obtain ⟨calmThen, quiet, unchanged⟩ := serveHooks_quiet (steps.calm_idle calm) served
      refine ⟨calmThen, ?_, ?_⟩
      · rw [quiet, calls, Option.map_some, Run.entrance, ← same, List.append_assoc]
        rfl
      · rw [unchanged, current]
        exact congrArg some (changes.identity.trans same)

/-- Time passes for the current state only. -/
theorem tickCurrent_beats
    {delta : Single}
    (calm : Stage.Calm ⟨.idle, [], run⟩)
    (done : tickCurrent conduct delta run = .ok value after) :
    Stage.Calm ⟨.idle, [], after⟩ ∧
      after.machine.current.map Instance.identity = run.machine.current.map Instance.identity ∧
      ∃ beat : List (Hook × Kind × Serial),
        (beat = [] ∨
          beat = (run.machine.current.map Instance.identity).toList.map fun found =>
            (.tick delta, found)) ∧
        after.calls = run.calls ++ beat := by
  have steps : Steps conduct [.tick] ⟨.idle, [], run⟩ ⟨.idle, [], after⟩ :=
    (tickCurrent_follows List.mem_cons_self delta).steps_ok done
  refine ⟨steps.calm_idle calm, ?_⟩
  cases present : run.machine.current with
  | none =>
      rw [tickCurrent_apply_none conduct delta present] at done
      cases done
      exact ⟨congrArg _ present, [], .inl rfl, (List.append_nil _).symm⟩
  | some subject =>
      rw [tickCurrent_apply_some conduct delta present] at done
      split at done
      next paused =>
        cases done
        refine ⟨congrArg _ present, [], .inl rfl, ?_⟩
        rw [Run.calls_log, List.append_nil]
      next awake =>
        obtain ⟨-, rfl⟩ := of_ended_eq_ok done
        refine ⟨rfl, [(.tick delta, subject.identity)], .inr rfl, ?_⟩
        exact run.calls_reacted conduct (.tick delta) subject

/-- The own work of a tick in deferred mode makes the pending transition, and then time passes for
the state that is current. -/
theorem tickOwn_enters
    {delta : Single}
    (calm : Stage.Calm ⟨.idle, [], run⟩)
    (done : tickOwn conduct delta run = .ok value after) :
    let target := run.machine.pending.map Transition.identity
    after.machine.current.map Instance.identity =
        target.or (run.machine.current.map Instance.identity) ∧
      ∃ beat : List (Hook × Kind × Serial),
        (beat = [] ∨
          beat = (after.machine.current.map Instance.identity).toList.map fun found =>
            (.tick delta, found)) ∧
        after.calls = run.calls ++ run.entrance target ++ beat := by
  obtain ⟨_, entered, carried, done⟩ := bind_ok done
  obtain ⟨_, ticked, beats, served⟩ := bind_ok done
  obtain ⟨calmEntered, calls, current⟩ := carryOutPending_enters calm carried
  obtain ⟨calmTicked, same, beat, either, more⟩ := tickCurrent_beats calmEntered beats
  obtain ⟨-, quiet, unchanged⟩ := serveHooks_quiet calmTicked served
  dsimp only
  rw [unchanged, quiet, same]
  exact ⟨current, beat, either, by rw [more, calls]⟩

end Kernel

/-- A tick that ends with a value has served what was posted and has then done its own work. -/
theorem Run.perform_tick
    {conduct : Conduct β D N}
    {run ticked : Run β D N}
    {now : Instant}
    {delta : Single}
    {reply : Reply}
    (ticks : run.perform conduct now (.tick delta) = (.ok reply, ticked)) :
    ∃ drained,
      Kernel.serveHandles conduct { run with now := now } = .ok () drained ∧
        Kernel.tickOwn conduct delta drained = .ok () ticked := by
  have ends := run.kernel_perform conduct now (.tick delta)
  rw [ticks] at ends
  obtain ⟨_, after, ticked, pure⟩ := Kernel.bind_ok ends
  cases pure
  cases valid : delta.isNaN || delta.isNegative with
  | true =>
      rw [Kernel.tick_of_bad conduct _ ((Bool.or_eq_true _ _).mp valid)] at ticked
      cases ticked
  | false =>
      rw [Kernel.tick_eq conduct delta valid] at ticked
      obtain ⟨_, drained, drains, works⟩ := Kernel.bind_ok ticked
      exact ⟨drained, drains, works⟩

/-- After a tick in deferred mode nothing is left of a state that was adrift and not pending. -/
theorem Kernel.tickOwn_gone
    {conduct : Conduct β D N}
    {drained ticked later : Run β D N}
    {serial : Serial}
    {future : List (Moment β D N)}
    (calm : Stage.Calm ⟨.idle, [], drained⟩)
    (adrift : Stage.Adrift ⟨.idle, [], drained⟩ serial)
    (elsewhere : drained.machine.pendingSerial ≠ some serial)
    (steps : Steps conduct [.resume, .tick] ⟨.idle, [], drained⟩ ⟨.idle, [], ticked⟩)
    (onward : Onward conduct ticked future later) :
    later.callsOf serial = [] := by
  have persistent := missing_persistent conduct (fun _ => True) serial []
  have gone := adrift.gone calm elsewhere
  have missing := Steps.invariant persistent.step steps ⟨calm.orderly, gone.nowhere, gone.silent⟩
  exact (persistent.onward onward (fun _ _ => trivial) missing).2.2

/-- Between two ticks in deferred mode the requests are taken up in the order in which they arrive,
those that waited at the start first, and each leads to one state.  The next tick makes exactly one
transition, to the state of the last of them, or to the state that was pending before if there was
no request, and no transition if there was none pending.  That state is current after the tick.  A
state that came in with another one of the requests is gone: no hook of it is ever called. -/
theorem last_request_wins
    {id : MachineId}
    {config : Config}
    {registry : Registry β}
    {data : D}
    {origin : Machine β D}
    {conduct : Conduct β D N}
    {permitted : Except Interruption Reply → Prop}
    {start run ticked : Run β D N}
    {past : List (Moment β D N)}
    {reply : Reply}
    (made : Machine.make id config registry data = .ok origin)
    (patient : config.immediate = false)
    (reached : Reachable conduct permitted origin start)
    (onward : Onward conduct start past run)
    (succeed : ∀ moment ∈ past, moment.Succeeds conduct)
    (now : Instant)
    (delta : Single)
    (ticks : run.perform conduct now (.tick delta) = (.ok reply, ticked)) :
    ∃ account : List (Arrival β × Kind × Serial),
      let target :=
        (account.getLast?.map Prod.snd).or (start.machine.pending.map Transition.identity)
      account.map Prod.fst =
          start.machine.inbox.map .request ++ past.flatMap (Moment.arrivals conduct) ∧
      (∀ entry ∈ account, entry.1.LeadsTo start.machine.made entry.2) ∧
      (∃ more, ticked.deferrals = start.deferrals ++ account.map Prod.snd ++ more) ∧
      (∃ beat : List (Hook × Kind × Serial),
        (beat = [] ∨
          beat = (ticked.machine.current.map Instance.identity).toList.map fun found =>
            (.tick delta, found)) ∧
        ticked.calls = run.calls ++ run.entrance target ++ beat) ∧
      ticked.machine.current.map Instance.identity =
        target.or (run.machine.current.map Instance.identity) ∧
      ∀ entry ∈ account, entry.1.IsRequest → target.map Prod.snd ≠ some entry.2.2 →
        ∀ future later, Onward conduct ticked future later → later.callsOf entry.2.2 = [] := by
  obtain ⟨orderly, noted⟩ := (noted_lasting conduct permitted made).reachable reached
  obtain ⟨-, sameConfig, -⟩ := (fixed_lasting conduct permitted made).reachable reached
  have calm : Stage.Calm ⟨.idle, [], start⟩ :=
    ⟨orderly, noted, by rw [sameConfig]; exact patient, not_false⟩
  obtain ⟨drained, drains, works⟩ := Run.perform_tick ticks
  obtain ⟨early, listed, serves⟩ := onward.arrivals calm succeed
  have clocked := serves.calm.clock now
  obtain ⟨undisturbed, late, waited, rest⟩ := Kernel.serveHandles_serves clocked.calm drains
  have whole : Stage.Serves (early ++ [] ++ late) ⟨.idle, [], start⟩ ⟨.idle, [], drained⟩ :=
    (serves.trans (clocked.serves rfl)).trans rest
  rw [List.append_nil] at whole
  have steps : Steps conduct [.resume, .tick] ⟨.idle, [], drained⟩ ⟨.idle, [], ticked⟩ :=
    (Kernel.tickOwn_follows (by decide) (by decide) delta).steps_ok works
  obtain ⟨current, beat, either, calls⟩ := Kernel.tickOwn_enters whole.calm works
  obtain ⟨sameCalls, -, _, _, _, _, machine⟩ := undisturbed
  have sameCurrent : drained.machine.current = run.machine.current := by rw [machine]
  have sameEntrance (target : Option (Kind × Serial)) :
      drained.entrance target = run.entrance target := by
    cases target with
    | none => rfl
    | some found => rw [Run.entrance, Run.entrance, Run.exits, Run.exits, sameCurrent]
  rw [whole.pending, sameEntrance, sameCalls] at calls
  rw [whole.pending, sameCurrent] at current
  refine ⟨early ++ late, ?_, whole.leads, ?_, ⟨beat, either, calls⟩, current, ?_⟩
  · rw [List.map_append, waited]
    exact listed.symm
  · obtain ⟨more, deferrals⟩ := steps.goesOn.deferrals
    refine ⟨more, deferrals.trans ?_⟩
    rw [whole.deferrals]
  · intro entry member request other future later goes
    refine Kernel.tickOwn_gone whole.calm (whole.adrift entry member request) ?_ steps goes
    rw [← whole.pending, Option.map_map] at other
    exact other

/-- A relay on which a request waits is going to be asked for one more state. -/
def relayAsked : Moment Actor Meter Note where
  run := ((relayStarted false).perform Actor.conduct .epoch (.post (.fresh ⟨2⟩))).2
  now := .epoch
  operation := .switchTo (.fresh ⟨2⟩)

/-- The relay enters the state that was asked for last, and the one that was asked for before never
runs. -/
theorem last_request_wins_relay :
    let ticked := ((relayAsked.after Actor.conduct).perform Actor.conduct .epoch (.tick ⟨0⟩)).2
  ticked.machine.current.map Instance.identity = some (⟨2⟩, ⟨3⟩) ∧
    ∀ future later, Onward Actor.conduct ticked future later → later.callsOf ⟨2⟩ = [] := by
  have succeed : relayAsked.Succeeds Actor.conduct := ⟨rfl, by decide +kernel⟩
  have reached : Reachable Actor.conduct Unbroken (relay false) relayAsked.run :=
    .perform _ _ (relayStarted_reachable false) (by decide +kernel)
  have finished :
      ((relayAsked.after Actor.conduct).perform Actor.conduct .epoch (.tick ⟨0⟩)).1 =
        .ok .done := by
    decide +kernel
  have served :
      ((relayAsked.after Actor.conduct).perform Actor.conduct .epoch (.tick ⟨0⟩)).2.deferrals =
        relayAsked.run.deferrals ++ [(⟨2⟩, ⟨2⟩), (⟨2⟩, ⟨3⟩), (⟨2⟩, ⟨4⟩)] := by
    decide +kernel
  have waiting : relayAsked.run.machine.inbox.length = 1 := by decide +kernel
  dsimp only
  generalize ticks : (relayAsked.after Actor.conduct).perform Actor.conduct .epoch (.tick ⟨0⟩) =
    ends at finished served ⊢
  obtain ⟨answer, ticked⟩ := ends
  cases finished
  obtain ⟨account, listed, -, ⟨more, deferrals⟩, -, current, gone⟩ :=
    last_request_wins (relay_made false) rfl reached (Onward.single Actor.conduct relayAsked)
      (List.forall_mem_singleton.mpr succeed) .epoch ⟨0⟩ ticks
  obtain ⟨wanted, one⟩ := List.length_eq_one_iff.mp waiting
  have arrived : account.map Prod.fst = [.request wanted, .request (.fresh ⟨2⟩)] :=
    listed.trans (by rw [one]; rfl)
  obtain ⟨first, _, rfl, asked, arrived⟩ := List.map_eq_cons_iff.mp arrived
  obtain ⟨last, _, rfl, -, ended⟩ := List.map_eq_cons_iff.mp arrived
  cases List.map_eq_nil_iff.mp ended
  rw [List.append_assoc] at deferrals
  obtain ⟨former, rest⟩ := List.cons.inj (List.append_cancel_left (served.symm.trans deferrals))
  obtain ⟨latter, -⟩ := List.cons.inj rest
  refine ⟨current.trans (congrArg some latter.symm), fun future later goes => ?_⟩
  have request : first.1.IsRequest := by
    rw [asked]
    trivial
  have elsewhere : some last.2.2 ≠ some first.2.2 := by
    rw [← former, ← latter]
    decide
  have silent := gone first List.mem_cons_self request elsewhere future later goes
  rw [← former] at silent
  exact silent

end TickMachine
