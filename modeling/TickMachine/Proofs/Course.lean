import TickMachine.Proofs.Calls
import TickMachine.Proofs.Follows

/-!
# Courses of the programs

Each program of the kernel follows a course of steps.  The lemmas are in the order of the programs,
from the taking up of a request to the operations of the owner.
-/

namespace TickMachine

variable {β D N α γ : Type}

namespace Kernel

variable {α : Type} {conduct : Conduct β D N} {deeds : List Deed}
  {batch left : List (Request β)} {run : Run β D N}

theorem write_follows
    {phase : Phase β}
    (entry : Entry β N)
    (quiet : ¬ entry.IsCall)
    (fits : ∀ deed ∈ entry.deed?, deed ∈ deeds)
    (loose : entry.bound? = none) :
    Follows conduct deeds (write entry) ⟨phase, batch, run⟩ (fun _ => phase) batch left :=
  .step rfl (.write entry quiet fits loose)

theorem log_follows
    {phase : Phase β}
    (event : LogEvent)
    (loose : (Entry.logged event : Entry β N).bound? = none := by rfl) :
    Follows conduct deeds (log event) ⟨phase, batch, run⟩ (fun _ => phase) batch left :=
  write_follows _ not_false nofun loose

/-! ## Taking up requests -/

/-- A request that is in the journal is taken up without any deed. -/
theorem resolve_follows (request : Request β) :
    Follows conduct deeds (resolve request) ⟨.idle, request :: batch, run⟩ .found batch batch := by
  cases request with
  | fresh kind =>
      cases known : run.machine.registry.prototype kind with
      | ok behavior =>
          refine .of_ok (.replace (run.newborn kind behavior)) ?_
            (.head (.write (.copied kind behavior) not_false nofun rfl)
            (.single (.make kind behavior known)))
          simp only [resolve, makeOfKind, bind_apply, copyPrototype_apply, known]
          rfl
      | error refusal =>
          obtain ⟨reason, rfl⟩ := prototype_refused _ _ _ known
          refine .of_refused (.unavailable kind reason) ?_ (.single (.lose _))
          simp only [resolve, makeOfKind, bind_apply, copyPrototype_apply, known]
  | existing subject =>
      by_cases own : subject.owner = run.machine.id
      · refine .of_ok (.replace subject) ?_ (.single (.accept subject own))
        simp [resolve, bind_apply, own]
      · refine .of_refused (.foreign subject.serial) ?_ (.single (.lose _))
        simp [resolve, bind_apply, own]

/-- To take up a request that was posted through a handle is a deed. -/
theorem takeUp_follows
    (origin : Origin)
    (request : Request β)
    (serves : origin = .handle → Deed.serve ∈ deeds) :
    Follows conduct deeds (takeUp origin request) ⟨.idle, request :: batch, run⟩
      .found batch batch := by
  rw [takeUp_eq]
  refine (write_follows (.taken origin request.label) not_false ?_ rfl).bind
    fun _ _ _ => resolve_follows request
  intro deed told
  cases origin with
  | handle =>
      cases told
      exact serves rfl
  | caller => nomatch told
  | hook => nomatch told

/-! ## Making transitions -/

private theorem arrive_follows
    (source : Option Kind)
    (name : String)
    (next : Instance β)
    (absent : run.machine.current = none) :
    Follows conduct deeds (arrive conduct source name next)
      ⟨.swapping source none next, batch, run⟩ (fun _ => .idle) batch batch := by
  have records : Follows conduct deeds (addToHistory source (some next.kind) (some next.serial))
      ⟨.swapping source none next, batch, run⟩ (fun _ => .entering next) batch batch :=
    .step rfl (.record source next)
  refine records.bind ?_
  rintro _ after ⟨⟩
  have enters : Follows conduct deeds (enterNext conduct next)
      ⟨.entering next, batch, run.recorded source (some next.kind) (some next.serial)⟩
      (fun _ => .idle) batch batch :=
    .of_ended (enterNext_apply conduct next _) (.single (.enter next absent)) trivial
  exact enters.bind fun _ _ _ => log_follows _

/-- The current state exits and is let go, and the next one enters. -/
theorem replaceCurrent_follows (next : Instance β) :
    Follows conduct deeds (replaceCurrent conduct next) ⟨.due (.replace next), batch, run⟩
      (fun _ => .idle) batch batch := by
  rw [replaceCurrent_eq]
  refine .machine ?_
  cases present : run.machine.current with
  | none =>
      refine .advance _ (.single (.vacant next present)) ?_
        (arrive_follows none (run.machine.shownName next.kind) next present)
      rw [bind_apply, exitCurrent_apply_none conduct run present, Machine.currentKind, present]
      rfl
  | some subject =>
      cases breaks : ((run.withCurrent none).reaction conduct .exit subject).breakdown with
      | none =>
          refine .advance _ (.head (.exit subject next present) (.single (.release _ _ next))) ?_
            (arrive_follows (some subject.kind) (run.machine.shownName next.kind) next ?_)
          · rw [bind_apply, exitCurrent_apply_some conduct run subject present, breaks,
              Machine.currentKind, present]
            simp only [ended, release, bind_apply, parkOrDrop_apply]
            rfl
          · simp [Run.reacted, Run.withCurrent]
      | some message =>
          unfold Follows
          rw [bind_apply, exitCurrent_apply_some conduct run subject present, breaks]
          exact ⟨.swapping _ (some _) next, batch, trivial, .single (.exit subject next present)⟩

/-- The current state exits and enters again, unless another one is current. -/
theorem reenterCurrent_follows (kind : Kind) (serial : Serial) :
    Follows conduct deeds (reenterCurrent conduct kind serial)
      ⟨.due (.reenter kind serial), batch, run⟩ (fun _ => .idle) batch batch := by
  by_cases here : run.machine.currentSerial = some serial
  · obtain ⟨subject, present, rfl⟩ := Option.map_eq_some_iff.mp here
    let exited := run.hooked conduct .exit subject
    let gone := run.settled conduct .exit subject
    have exits : Follows conduct deeds (callCurrent conduct .exit)
        ⟨.due (.reenter kind subject.serial), batch, run⟩
        (fun _ => .reentering kind subject.serial false) batch batch :=
      .of_ended (callCurrent_apply_some conduct .exit run subject present)
        (.single (.exitInPlace kind subject present)) trivial
    have enters : Follows conduct deeds (callCurrent conduct .enter)
        ⟨.reentering kind subject.serial false, batch, exited⟩
        (fun _ => .reentering kind subject.serial true) batch batch :=
      .of_ended (callCurrent_apply_some conduct .enter exited gone rfl)
        (.single (.enterAgain kind gone rfl)) trivial
    refine .advance
      (do
        callCurrent conduct .exit
        callCurrent conduct .enter
        addToHistory (some subject.kind) (some kind) (some subject.serial)
        log (.reentered kind subject.serial)) .refl ?_ ?_
    · rw [reenterCurrent, bind_apply, machine_apply]
      dsimp only
      rw [if_pos here, Machine.currentKind, present]
      rfl
    · refine exits.bind fun _ after ends => ?_
      rw [callCurrent_apply_some conduct .exit run subject present] at ends
      obtain ⟨-, rfl⟩ := of_ended_eq_ok ends
      refine enters.bind fun _ after ends => ?_
      rw [callCurrent_apply_some conduct .enter exited gone rfl] at ends
      obtain ⟨-, rfl⟩ := of_ended_eq_ok ends
      have records : Follows conduct deeds
          (addToHistory (some subject.kind) (some kind) (some subject.serial))
          ⟨.reentering kind subject.serial true, batch, exited.hooked conduct .enter gone⟩
          (fun _ => .idle) batch batch :=
        .step rfl (.recordAgain kind (exited.settled conduct .enter gone) rfl)
      exact records.bind fun _ _ _ => log_follows _
  · refine .of_ok () ?_ (.single (.skip kind serial here))
    rw [reenterCurrent, bind_apply, machine_apply]
    dsimp only
    rw [if_neg here, log_apply]

/-- A transition that is due is made, and nothing is on its way afterwards. -/
theorem carryOut_follows (transition : Transition β) :
    Follows conduct deeds (carryOut conduct transition) ⟨.due transition, batch, run⟩
      (fun _ => .idle) batch batch := by
  cases transition with
  | replace next => exact replaceCurrent_follows next
  | reenter kind serial => exact reenterCurrent_follows kind serial

/-- A transition that is not made any more is given up together with the state that it leads to. -/
theorem letGo_follows (transition : Transition β) :
    Follows conduct deeds (letGo transition) ⟨.spare transition, batch, run⟩
      (fun _ => .idle) batch left := by
  cases transition with
  | replace next => exact .step (parkOrDrop_apply next run) (.letGo next)
  | reenter kind serial => exact .step rfl (.forget kind serial)

/-- A transition that was found becomes the pending one, and the one before it is let go. -/
theorem defer_follows
    (transition : Transition β)
    (patient : run.machine.config.immediate = false) :
    Follows conduct deeds (defer transition) ⟨.found transition, batch, run⟩
      (fun _ => .idle) batch batch := by
  cases occupied : run.machine.pending with
  | none =>
      refine .advance
        (do
          log (.deferred transition.kind (run.machine.shownName transition.kind)
            transition.serial)
          pure (.deferred transition.kind transition.serial none))
        (.single (.defer transition patient occupied)) ?_
        ((log_follows _).bind fun _ _ _ => .pure _)
      rw [defer, bind_apply, machine_apply]
      dsimp only
      rw [bind_apply, changeMachine_apply, occupied]
      rfl
  | some previous =>
      refine .advance
        (do
          let discarded ← supersede (some previous) transition.serial
          log (.deferred transition.kind (run.machine.shownName transition.kind)
            transition.serial)
          pure (.deferred transition.kind transition.serial discarded))
        (.single (.supersede transition previous patient occupied)) ?_ ?_
      · rw [defer, bind_apply, machine_apply]
        dsimp only
        rw [bind_apply, changeMachine_apply, occupied]
      · have lets : Follows conduct deeds (supersede (some previous) transition.serial)
            ⟨.spare previous, batch,
              run.mapMachine fun machine => { machine with pending := some transition }⟩
            (fun _ => .idle) batch batch := by
          refine (letGo_follows previous).bind fun _ _ _ => ?_
          split
          · exact .pure _
          · exact (log_follows _).bind fun _ _ _ => .pure _
        exact lets.bind fun _ _ _ => (log_follows _).bind fun _ _ _ => .pure _

/-- A transition that was found is made at once or becomes the pending one, as the mode says. -/
theorem submit_follows (transition : Transition β) :
    Follows conduct deeds (submit conduct transition) ⟨.found transition, batch, run⟩
      (fun _ => .idle) batch batch := by
  cases mode : run.machine.config.immediate with
  | true =>
      refine .advance
        (do
          carryOut conduct transition
          pure (.applied transition.kind transition.serial))
        (.single (.urge transition mode)) ?_ ?_
      · rw [submit, bind_apply, machine_apply]
        simp only [mode, if_true]
      · exact (carryOut_follows transition).bind fun _ _ _ => .pure _
  | false =>
      refine .advance (defer transition) .refl ?_ (defer_follows transition mode)
      rw [submit, bind_apply, machine_apply]
      simp only [mode]
      rfl

/-! ## Serving the inbox -/

/-- The request in front of the batch is taken up and submitted. -/
theorem serveAsked_follows (asked : Request β) :
    Follows conduct deeds (serveAsked conduct asked) ⟨.idle, asked :: batch, run⟩
      (fun _ => .idle) batch batch := by
  have takes : Follows conduct deeds (orMend (takeUp .hook asked) emptied)
      ⟨.idle, asked :: batch, run⟩ .found batch batch :=
    (takeUp_follows .hook asked nofun).orMend fun _ _ => .single .clear
  exact takes.bind fun transition _ _ => (submit_follows transition).discard

theorem abortChain_follows :
    Follows conduct deeds (abortChain (β := β) (D := D) (N := N)) ⟨.idle, batch, run⟩
      (fun _ => .idle) batch batch :=
  .of_refused (.chainTooLong run.machine.config.chainLimit) rfl
    (.head .clear (.single (.write (.logged _) not_false nofun rfl)))

theorem serveWithin_follows (budget : Nat) :
    Follows conduct deeds (serveWithin conduct budget) ⟨.idle, batch, run⟩
      (fun _ => .idle) batch batch := by
  induction budget generalizing run with
  | zero =>
      refine .advance (if run.machine.inbox.isEmpty then pure () else abortChain) .refl rfl ?_
      split
      · exact .pure ()
      · exact abortChain_follows
  | succ budget inductionHypothesis =>
      cases waiting : run.machine.inbox with
      | nil =>
          refine .advance (pure ()) .refl ?_ (.pure ())
          simp only [serveWithin, bind_apply, nextRequest_apply, waiting]
      | cons first more =>
          refine .advance
            (do
              serveAsked conduct first
              serveWithin conduct budget)
            (.single (.next first more waiting)) ?_ ?_
          · simp only [serveWithin, bind_apply, nextRequest_apply, waiting]
          · exact (serveAsked_follows first).bind fun _ _ _ => inductionHypothesis

/-- Requests of hooks leave the inbox one by one, and the call holds none of them in the end. -/
theorem serveHooks_follows :
    Follows conduct deeds (serveHooks conduct) ⟨.idle, batch, run⟩
      (fun _ => .idle) batch batch :=
  serveWithin_follows (chainBudget run.machine)

/-- A posted request is taken up together with everything that hooks ask for on its account. -/
theorem servePosted_follows (serves : .serve ∈ deeds) (posted : Request β) :
    Follows conduct deeds (servePosted conduct posted) ⟨.idle, posted :: batch, run⟩
      (fun _ => .idle) batch batch :=
  (takeUp_follows .handle posted fun _ => serves).bind fun transition _ _ =>
    (submit_follows transition).bind fun _ _ _ => serveHooks_follows

/-- A refusal gives back the requests after the one that was being served. -/
theorem serveInOrder_follows (serves : .serve ∈ deeds) (queued : List (Request β)) :
    Follows conduct deeds (serveInOrder conduct queued) ⟨.idle, queued ++ batch, run⟩
      (fun _ => .idle) batch batch := by
  induction queued generalizing run with
  | nil => exact .pure ()
  | cons posted more inductionHypothesis =>
      have serves : Follows conduct deeds
          (orMend (servePosted conduct posted) fun machine =>
            { machine with inbox := more ++ machine.inbox })
          ⟨.idle, posted :: (more ++ batch), run⟩ (fun _ => .idle) (more ++ batch) batch :=
        (servePosted_follows serves posted).orMend fun _ _ => .single (.giveBack more)
      exact serves.bind fun _ _ _ => inductionHypothesis

/-- All posted requests leave the inbox at once, and are taken up in order. -/
theorem serveHandles_follows (serves : .serve ∈ deeds) :
    Follows conduct deeds (serveHandles conduct) ⟨.idle, batch, run⟩
      (fun _ => .idle) batch batch :=
  .advance (serveInOrder conduct run.machine.inbox) (.single .draw) rfl
    (serveInOrder_follows serves run.machine.inbox)

/-! ## Calls -/

theorem switchOwn_follows (wanted : Request β) :
    Follows conduct deeds (switchOwn conduct wanted) ⟨.idle, wanted :: batch, run⟩
      (fun _ => .idle) batch batch :=
  (takeUp_follows .caller wanted nofun).bind fun transition _ _ =>
    (submit_follows transition).bind fun _ _ _ => serveHooks_follows.bind fun _ _ _ => .pure _

theorem switchTo_follows (serves : .serve ∈ deeds) (wanted : Request β) :
    Follows conduct deeds (switchTo conduct wanted) ⟨.idle, wanted :: batch, run⟩
      (fun _ => .idle) batch batch := by
  have drains : Follows conduct deeds (serveHandles conduct) ⟨.idle, wanted :: batch, run⟩
      (fun _ => .idle) (wanted :: batch) batch :=
    .lose_left [wanted] (serveHandles_follows serves)
  exact drains.bind fun _ _ _ => switchOwn_follows wanted

/-- The pending transition is taken out of the machine and made. -/
theorem carryOutPending_follows (resumes : .resume ∈ deeds) :
    Follows conduct deeds (carryOutPending conduct) ⟨.idle, batch, run⟩
      (fun _ => .idle) batch batch := by
  cases occupied : run.machine.pending with
  | none =>
      refine .advance (pure ()) .refl ?_ (.pure ())
      simp only [carryOutPending, bind_apply, takePending_apply, occupied,
        mapMachine_free run occupied]
  | some transition =>
      refine .advance
        (do
          carryOut conduct transition
          serveHooks conduct)
        (.single (.resume transition occupied resumes)) ?_ ?_
      · simp only [carryOutPending, bind_apply, takePending_apply, occupied]
      · exact (carryOut_follows transition).bind fun _ _ _ => serveHooks_follows

theorem tickCurrent_follows (ticks : .tick ∈ deeds) (delta : Single) :
    Follows conduct deeds (tickCurrent conduct delta) ⟨.idle, batch, run⟩
      (fun _ => .idle) batch batch := by
  unfold tickCurrent
  refine .machine ?_
  cases present : run.machine.current with
  | none => exact .pure ()
  | some subject =>
      dsimp only
      split
      next => exact log_follows _
      next awake =>
          exact .of_ended (callCurrent_apply_some conduct (.tick delta) run subject present)
            (.single (.tick subject delta present (by simpa using awake) ticks)) trivial

theorem tickOwn_follows (resumes : .resume ∈ deeds) (ticks : .tick ∈ deeds) (delta : Single) :
    Follows conduct deeds (tickOwn conduct delta) ⟨.idle, batch, run⟩
      (fun _ => .idle) batch batch :=
  (carryOutPending_follows resumes).bind fun _ _ _ =>
    (tickCurrent_follows ticks delta).bind fun _ _ _ => serveHooks_follows

theorem tick_follows
    (serves : .serve ∈ deeds)
    (resumes : .resume ∈ deeds)
    (ticks : .tick ∈ deeds)
    (delta : Single) :
    Follows conduct deeds (tick conduct delta) ⟨.idle, batch, run⟩
      (fun _ => .idle) batch batch := by
  unfold tick
  split
  · exact .of_refused (.badDelta delta) rfl .refl
  · exact (serveHandles_follows serves).bind fun _ _ _ => tickOwn_follows resumes ticks delta

theorem pushCurrent_follows (pushes : .push ∈ deeds) :
    Follows conduct deeds (pushCurrent (β := β) (D := D) (N := N)) ⟨.idle, batch, run⟩
      (fun _ => .idle) batch batch := by
  unfold pushCurrent
  refine .machine ?_
  cases present : run.machine.current with
  | none => exact .of_refused .nothingCurrent rfl .refl
  | some subject =>
      have stacked : Follows conduct deeds
          (changeMachine fun machine =>
            { machine with stack := subject.serial :: machine.stack })
          ⟨.idle, batch, run⟩ (fun _ => .idle) batch batch :=
        .step rfl (.push subject present pushes)
      exact stacked.bind fun _ _ _ => .machine ((log_follows _).bind fun _ _ _ => .pure _)

theorem push_follows (pushes : .push ∈ deeds) :
    Follows conduct deeds (push (β := β) (D := D) (N := N)) ⟨.idle, batch, run⟩
      (fun _ => .idle) batch batch := by
  unfold push
  refine .machine ?_
  cases present : run.machine.current with
  | none => exact (log_follows _).bind fun _ _ _ => .pure _
  | some subject => exact (pushCurrent_follows pushes).bind fun _ _ _ => .pure _

/-- The state that was pushed last is found and submitted, or the call is refused for its loss. -/
theorem popOwn_follows (pops : .pop ∈ deeds) :
    Follows conduct deeds (popOwn conduct) ⟨.idle, batch, run⟩ (fun _ => .idle) batch batch := by
  have applied := popOwn_apply conduct run
  split at applied
  next => exact .of_ok none applied (.single (.write _ not_false nofun rfl))
  next serial below top =>
    split at applied
    next lost =>
      exact .of_refused (.lost serial) applied (.single (.popLost serial below top lost pops))
    next transition rest retrieved =>
      refine .advance _ (.single (.pop serial below transition rest top retrieved pops)) applied ?_
      exact (submit_follows transition).bind fun _ _ _ =>
        serveHooks_follows.bind fun _ _ _ => .pure _

theorem pop_follows (serves : .serve ∈ deeds) (pops : .pop ∈ deeds) :
    Follows conduct deeds (pop conduct) ⟨.idle, batch, run⟩ (fun _ => .idle) batch batch :=
  (serveHandles_follows serves).bind fun _ _ _ => popOwn_follows pops

/-- The current state is asked to have itself replaced, and what it asks for is served. -/
theorem restartOwn_follows (restarts : .restart ∈ deeds) :
    Follows conduct deeds (restartOwn conduct) ⟨.idle, batch, run⟩
      (fun _ => .idle) batch batch := by
  refine .machine ?_
  cases present : run.machine.current with
  | none => exact log_follows _
  | some subject =>
      have asks : Follows conduct deeds (callCurrent conduct .restart) ⟨.idle, batch, run⟩
          (fun _ => .idle) batch batch :=
        .of_ended (callCurrent_apply_some conduct .restart run subject present)
          (.single (.restart subject present restarts)) trivial
      exact asks.bind fun _ _ _ => serveHooks_follows

theorem restart_follows (serves : .serve ∈ deeds) (restarts : .restart ∈ deeds) :
    Follows conduct deeds (restart conduct) ⟨.idle, batch, run⟩
      (fun _ => .idle) batch batch :=
  (serveHandles_follows serves).bind fun _ _ _ => restartOwn_follows restarts

theorem dropPending_follows (abandons : .abandon ∈ deeds) :
    Follows conduct deeds (dropPending (β := β) (D := D) (N := N)) ⟨.idle, batch, run⟩
      (fun _ => .idle) batch batch := by
  cases occupied : run.machine.pending with
  | none =>
      refine .advance (pure ()) .refl ?_ (.pure ())
      simp only [dropPending_apply, Run.pendingDropped, occupied, pure_apply]
  | some transition =>
      refine .advance
        (do
          log (.pendingDropped transition.serial)
          letGo transition)
        (.single (.abandon transition occupied abandons)) ?_
        ((log_follows _).bind fun _ _ _ => letGo_follows transition)
      simp only [dropPending_apply, Run.pendingDropped, occupied, bind_apply, log_apply,
        letGo_apply]

/-- The current state exits for good, which becomes part of the history, and is let go. -/
theorem exitForGood_follows (leaves : .leave ∈ deeds) (free : run.machine.pending = none) :
    Follows conduct deeds (exitForGood conduct) ⟨.idle, batch, run⟩
      (fun _ => .idle) batch batch := by
  cases present : run.machine.current with
  | none =>
      refine .advance (pure ()) .refl ?_ (.pure ())
      rw [exitForGood, bind_apply, exitCurrent_apply_none conduct run present]
  | some subject =>
      let gone := (run.withCurrent none).settled conduct .exit subject
      have exits : Follows conduct deeds (exitCurrent conduct) ⟨.idle, batch, run⟩
          (fun _ => .leaving gone) batch batch :=
        .of_ended (exitCurrent_apply_some conduct run subject present)
          (.single (.leave subject present free leaves)) trivial
      refine exits.bind fun found after ends => ?_
      rw [exitCurrent_apply_some conduct run subject present] at ends
      obtain ⟨rfl, -⟩ := of_ended_eq_ok ends
      have records : Follows conduct deeds (addToHistory (some gone.kind) none none)
          ⟨.leaving gone, batch, after⟩ (fun _ => .spare (.replace gone)) batch batch :=
        .step rfl (.recordLeaving gone)
      exact records.bind fun _ _ _ => (log_follows _).bind fun _ _ _ =>
        letGo_follows (.replace gone)

/-- When nothing was posted, the own work of a shutdown does not serve any handle. -/
theorem shutdownOwn_follows
    (abandons : .abandon ∈ deeds)
    (leaves : .leave ∈ deeds)
    (empty : run.machine.inbox = []) :
    Follows conduct deeds (shutdownOwn conduct) ⟨.idle, batch, run⟩
      (fun _ => .idle) batch batch := by
  cases configured : run.machine.config.shutdown with
  | some kind =>
      let announcement : Entry β N := .logged (.shuttingDown kind (run.machine.shownName kind))
      refine .advance (some <$> switchOwn conduct (.fresh kind))
        (.head (.write announcement not_false nofun rfl)
          (.single (.take (.fresh kind) (.fresh kind) rfl)))
        (shutdownOwn_apply_some conduct configured empty) ?_
      rw [← bind_pure_comp]
      exact (switchOwn_follows (.fresh kind)).bind fun _ _ _ => .pure _
  | none =>
      refine .machine ?_
      rw [configured]
      refine (dropPending_follows abandons).bind fun _ dropped ends => ?_
      obtain ⟨-, rfl⟩ := EStateM.Result.ok.inj ((dropPending_apply run).symm.trans ends)
      refine (exitForGood_follows leaves (Run.pendingDropped_pending run)).bind
        fun _ _ _ => ?_
      exact serveHooks_follows.bind fun _ _ _ => .pure _

theorem shutdown_follows
    (serves : .serve ∈ deeds)
    (abandons : .abandon ∈ deeds)
    (leaves : .leave ∈ deeds) :
    Follows conduct deeds (shutdown conduct) ⟨.idle, batch, run⟩
      (fun _ => .idle) batch batch :=
  (serveHandles_follows serves).bind fun _ _ drained =>
    shutdownOwn_follows abandons leaves (serveHandles_ok conduct drained)

end Kernel

namespace Call

/-- The deeds of a call's own work. -/
def deeds : Call β → List Deed
  | .switchTo _ => []
  | .tick _ _ => [.resume, .tick]
  | .pop => [.pop]
  | .restart => [.restart]
  | .shutdown => [.abandon, .leave]

/-- The requests that a call is made with. -/
def requests : Call β → List (Request β)
  | .switchTo wanted => [wanted]
  | _ => []

/-- An operation that makes a call does no more before than to take a state out of the caller's
hands. -/
theorem steps_of_call?
    {conduct : Conduct β D N}
    {deeds : List Deed}
    {operation : Operation β D}
    {run start : Run β D N}
    {call : Call β}
    (calls : operation.call? run = some (call, start)) :
    Steps conduct deeds ⟨.idle, [], run⟩ ⟨.idle, call.requests, start⟩ := by
  cases operation with
  | switchTo target =>
      obtain ⟨wanted, taken, made⟩ := Option.map_eq_some_iff.mp calls
      cases made
      exact .single (.take target wanted taken)
  | tick delta =>
      rw [Operation.call?] at calls
      split at calls
      · cases calls
        exact .refl
      · cases calls
  | pop | restart | shutdown =>
      cases calls
      exact .refl
  | _ => cases calls

/-- Only the deeds of a call are done by its own work. -/
theorem work_follows
    {conduct : Conduct β D N}
    {batch : List (Request β)}
    {run : Run β D N}
    (call : Call β)
    (empty : run.machine.inbox = []) :
    Follows conduct call.deeds (call.work conduct) ⟨.idle, call.requests ++ batch, run⟩
      (fun _ => .idle) batch batch := by
  cases call with
  | switchTo wanted =>
      rw [work, ← bind_pure_comp]
      exact (Kernel.switchOwn_follows wanted).bind fun _ _ _ => .pure _
  | tick delta valid =>
      exact (Kernel.tickOwn_follows (by simp [deeds]) (by simp [deeds]) delta).bind
        fun _ _ _ => .pure _
  | pop =>
      rw [work, ← bind_pure_comp]
      exact (Kernel.popOwn_follows (by simp [deeds])).bind fun _ _ _ => .pure _
  | restart => exact (Kernel.restartOwn_follows (by simp [deeds])).bind fun _ _ _ => .pure _
  | shutdown =>
      rw [work, ← bind_pure_comp]
      exact (Kernel.shutdownOwn_follows (by simp [deeds]) (by simp [deeds]) empty).bind
        fun _ _ _ => .pure _

end Call

namespace Kernel

variable {α : Type} {conduct : Conduct β D N} {deeds : List Deed}
  {batch left : List (Request β)} {run : Run β D N}

/-! ## Operations -/

/-- The target of an operation is taken out of the caller's hands first. -/
private theorem takeTarget_follows
    {program : Option (Request β) → Kernel β D N α}
    (target : Destination)
    (nothing : ∃ answer, program none = pure answer)
    (follows : ∀ (request : Request β) (after : Run β D N),
      Follows conduct deeds (program (some request)) ⟨.idle, request :: batch, after⟩
        (fun _ => .idle) batch batch) :
    Follows conduct deeds (takeTarget target >>= program) ⟨.idle, batch, run⟩
      (fun _ => .idle) batch batch := by
  cases taken : (run.take target).1 with
  | none =>
      obtain ⟨answer, answers⟩ := nothing
      refine .advance (pure answer) .refl ?_ (.pure answer)
      rw [bind_apply, takeTarget_apply, taken]
      dsimp only
      rw [answers, take_none target taken]
  | some request =>
      refine .advance (program (some request)) (.single (.take target request taken)) ?_
        (follows request (run.take target).2)
      rw [bind_apply, takeTarget_apply, taken]

theorem post_follows (posts : .post ∈ deeds) (posted : Request β) :
    Follows conduct deeds (post posted) ⟨.idle, posted :: batch, run⟩
      (fun _ => .idle) batch batch :=
  .of_ok () rfl
    (.head (.write (.posted posted.label) not_false (fun _ told => by cases told; exact posts)
      rfl)
    (.single (.enqueue posted)))

theorem copyPrototype_follows (kind : Kind) :
    Follows conduct deeds (copyPrototype kind) ⟨.idle, batch, run⟩
      (fun _ => .idle) batch batch := by
  cases known : run.machine.registry.prototype kind with
  | error refusal =>
      obtain ⟨reason, rfl⟩ := prototype_refused _ _ _ known
      refine .of_refused (.unavailable kind reason) ?_ .refl
      rw [copyPrototype_apply, known]
  | ok behavior =>
      refine .of_ok behavior ?_ (.single (.write (.copied kind behavior) not_false nofun rfl))
      rw [copyPrototype_apply, known]

/-- A state that is made for a caller goes straight to its slot. -/
theorem adopt_follows
    (creates : .create ∈ deeds)
    (kind : Kind)
    (behavior : β)
    (slot : Slot) :
    Follows conduct deeds
      (do
        let subject ← makeState kind behavior
        hold slot subject
        pure (.holding slot : Reply))
      ⟨.idle, batch, run⟩ (fun _ => .idle) batch batch :=
  .step rfl (.create kind behavior slot creates)

theorem setData_follows (sets : .setData ∈ deeds) (data : D) :
    Follows conduct deeds (setData data) ⟨.idle, batch, run⟩ (fun _ => .idle) batch batch :=
  .step rfl (.setData data sets)

theorem reset_follows (sets : .setData ∈ deeds) :
    Follows conduct deeds (reset conduct) ⟨.idle, batch, run⟩ (fun _ => .idle) batch batch :=
  .step rfl (.setData (conduct.reset run.machine.data) sets)

theorem pauseCurrent_follows (pauses : .pause ∈ deeds) (paused : Bool) :
    Follows conduct deeds (pauseCurrent paused) ⟨.idle, batch, run⟩
      (fun _ => .idle) batch batch :=
  .step rfl (.pause paused pauses)

theorem pauseHeld_follows (pauses : .pauseHeld ∈ deeds) (slot : Slot) (paused : Bool) :
    Follows conduct deeds
      (do
        if (← get).hands.contains slot then
          modify fun run => { run with hands := run.hands.pause slot paused }
          pure (.holding slot : Reply)
        else
          pure .emptySlot)
      ⟨.idle, batch, run⟩ (fun _ => .idle) batch batch := by
  by_cases present : run.hands.contains slot = true
  · refine .of_ok (.holding slot) ?_ (.single (.pauseHeld slot paused pauses))
    rw [bind_apply, get_apply]
    dsimp only
    rw [if_pos present]
    rfl
  · refine .of_ok .emptySlot ?_ .refl
    rw [bind_apply, get_apply]
    dsimp only
    rw [if_neg present]
    rfl

end Kernel

/-- The deeds of an operation. -/
def Operation.deeds : Operation β D → List Deed
  | .switchTo _ => [.serve]
  | .tick _ => [.serve, .resume, .tick]
  | .push | .pushCurrent => [.push]
  | .pop => [.serve, .pop]
  | .restart => [.serve, .restart]
  | .shutdown => [.serve, .abandon, .leave]
  | .reset | .setData _ => [.setData]
  | .pause _ => [.pause]
  | .post _ => [.post]
  | .tryKind _ => []
  | .create _ _ | .adopt _ _ _ => [.create]
  | .pauseHeld _ _ => [.pauseHeld]

/-- Every operation takes its run through steps from one idle stage to another, and only its own
deeds are done. -/
theorem Kernel.perform_follows
    {conduct : Conduct β D N}
    {batch : List (Request β)}
    {run : Run β D N}
    (operation : Operation β D) :
    Follows conduct operation.deeds (perform conduct operation) ⟨.idle, batch, run⟩
      (fun _ => .idle) batch batch := by
  cases operation with
  | switchTo target =>
      exact takeTarget_follows target ⟨_, rfl⟩ fun request _ =>
        (switchTo_follows (by simp [Operation.deeds]) request).bind fun _ _ _ => .pure _
  | tick delta =>
      exact (tick_follows (by simp [Operation.deeds]) (by simp [Operation.deeds])
        (by simp [Operation.deeds]) delta).bind fun _ _ _ => .pure _
  | push => exact (push_follows (by simp [Operation.deeds])).bind fun _ _ _ => .pure _
  | pushCurrent =>
      exact (pushCurrent_follows (by simp [Operation.deeds])).bind fun _ _ _ => .pure _
  | pop =>
      exact (pop_follows (by simp [Operation.deeds]) (by simp [Operation.deeds])).bind
        fun _ _ _ => .pure _
  | restart =>
      exact (restart_follows (by simp [Operation.deeds]) (by simp [Operation.deeds])).bind
        fun _ _ _ => .pure _
  | shutdown =>
      exact (shutdown_follows (by simp [Operation.deeds]) (by simp [Operation.deeds])
        (by simp [Operation.deeds])).bind fun _ _ _ => .pure _
  | reset => exact (reset_follows (by simp [Operation.deeds])).bind fun _ _ _ => .pure _
  | pause paused =>
      exact (pauseCurrent_follows (by simp [Operation.deeds]) paused).bind fun _ _ _ => .pure _
  | setData data =>
      exact (setData_follows (by simp [Operation.deeds]) data).bind fun _ _ _ => .pure _
  | post target =>
      exact takeTarget_follows target ⟨_, rfl⟩ fun request _ =>
        (post_follows (by simp [Operation.deeds]) request).bind fun _ _ _ => .pure _
  | tryKind kind => exact (copyPrototype_follows kind).bind fun _ _ _ => .pure _
  | create kind slot =>
      refine .advance
        (do
          let behavior ← copyPrototype kind
          let subject ← makeState kind behavior
          hold slot subject
          pure (.holding slot))
        .refl ?_ ((copyPrototype_follows kind).bind fun behavior _ _ =>
          adopt_follows (by simp [Operation.deeds]) kind behavior slot)
      simp only [perform, makeOfKind, bind_assoc]
  | adopt kind behavior slot => exact adopt_follows (by simp [Operation.deeds]) kind behavior slot
  | pauseHeld slot paused => exact pauseHeld_follows (by simp [Operation.deeds]) slot paused

end TickMachine
