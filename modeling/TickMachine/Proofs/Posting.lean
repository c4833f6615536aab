import TickMachine.Proofs.Frame
import TickMachine.Proofs.Reachable

/-!
# Requests that are posted through handles

What is posted through a handle waits in the inbox until a call takes it up.  The hooks that run in
a call put their own requests into the same inbox, and a call that is refused gives back what it
has not taken up.  Still the journal tells of every request that it was posted, and of every one
but those in the inbox that it was taken up, in the same order.
-/

namespace TickMachine

variable {β D N α : Type}

/-! ## What the journal tells -/

/-- The request that an entry tells was posted through a handle. -/
def Entry.posted? : Entry β N → Option RequestLabel
  | .posted label => some label
  | _ => none

/-- The request that an entry tells was taken up after it had been posted through a handle. -/
def Entry.served? : Entry β N → Option RequestLabel
  | .taken .handle label => some label
  | _ => none

/-- The state whose transition an entry tells was deferred. -/
def Entry.deferral? : Entry β N → Option (Kind × Serial)
  | .logged (.deferred kind _ serial) => some (kind, serial)
  | _ => none

namespace Run

/-- The requests that were posted through handles, oldest first. -/
def posted (run : Run β D N) : List RequestLabel :=
  run.journal.toList.filterMap Entry.posted?

/-- The requests that were posted through handles and taken up, oldest first. -/
def served (run : Run β D N) : List RequestLabel :=
  run.journal.toList.filterMap Entry.served?

/-- The states whose transitions were deferred, in order. -/
def deferrals (run : Run β D N) : List (Kind × Serial) :=
  run.journal.toList.filterMap Entry.deferral?

/-- The requests in the inbox. -/
def waiting (run : Run β D N) : List RequestLabel :=
  run.machine.inbox.map Request.label

namespace GoesOn

variable {deeds : List Deed} {before after : Run β D N}

/-- Where nothing is posted, the journal does not tell that anything was. -/
theorem posted
    (goesOn : GoesOn deeds before after)
    (never : .post ∉ deeds) :
    after.posted = before.posted := by
  obtain ⟨added, wrote, fitting⟩ := goesOn
  have silent : added.filterMap Entry.posted? = [] := by
    refine List.filterMap_eq_nil_iff.mpr fun entry member => ?_
    cases entry with
    | posted label => exact absurd (fitting _ member .post rfl) never
    | _ => rfl
  rw [Run.posted, wrote, List.filterMap_append, silent, List.append_nil]
  rfl

/-- Where no handle is served, the journal does not tell that one was. -/
theorem served
    (goesOn : GoesOn deeds before after)
    (never : .serve ∉ deeds) :
    after.served = before.served := by
  obtain ⟨added, wrote, fitting⟩ := goesOn
  have silent : added.filterMap Entry.served? = [] := by
    refine List.filterMap_eq_nil_iff.mpr fun entry member => ?_
    cases entry with
    | taken origin label =>
        cases origin with
        | handle => exact absurd (fitting _ member .serve rfl) never
        | _ => rfl
    | _ => rfl
  rw [Run.served, wrote, List.filterMap_append, silent, List.append_nil]
  rfl

end GoesOn

/-- Of the requests that were queued, the first ones have been taken up in order, and exactly the
others are in the inbox. -/
def Takes (queued : List (Request β)) (before after : Run β D N) : Prop :=
  ∃ taken : List (Request β),
    queued = taken ++ after.machine.inbox ∧
      after.served = before.served ++ taken.map Request.label ∧
      after.posted = before.posted

end Run

/-- How a program ends that takes up requests that were queued.  It has taken them all up unless it
is refused.  Nothing is said about a hook that breaks off. -/
def Serves (queued : List (Request β)) (before : Run β D N) :
    EStateM.Result Interruption (Run β D N) α → Prop
  | .ok _ after => Run.Takes queued before after ∧ after.machine.inbox = []
  | .error (.refused _) after => Run.Takes queued before after
  | .error (.brokenOff _) _ => True

/-! ## Serving what was posted -/

namespace Kernel

variable (conduct : Conduct β D N)

/-- However the serving of a request ends, it has been taken up, and no other was. -/
theorem servePosted_final (request : Request β) (run : Run β D N) :
    ((servePosted conduct request).final run).served = run.served ++ [request.label] ∧
      ((servePosted conduct request).final run).posted = run.posted := by
  let noted := run.write (.taken .handle request.label)
  have rest : Follows conduct []
      (do
        let transition ← resolve request
        let _ ← submit conduct transition
        serveHooks conduct)
      ⟨.idle, [request], noted⟩ (fun _ => .idle) [] [] :=
    (resolve_follows request).bind fun transition _ _ =>
      (submit_follows transition).bind fun _ _ _ => serveHooks_follows
  have goes : Run.GoesOn [] noted ((servePosted conduct request).final run) := by
    obtain ⟨_, _, steps⟩ := rest.steps
    have parts : servePosted conduct request = (do
        write (.taken .handle request.label)
        let transition ← resolve request
        let _ ← submit conduct transition
        serveHooks conduct) := by
      rw [servePosted, takeUp_eq]
      simp only [bind_assoc]
    rw [parts]
    exact steps.goesOn
  rw [goes.served List.not_mem_nil, goes.posted List.not_mem_nil]
  constructor
  · simp [noted, Run.served, Entry.served?]
  · simp [noted, Run.posted, Entry.posted?]

/-- What is behind a refused request waits again. -/
theorem serveInOrder_serves
    (queued : List (Request β))
    (run : Run β D N)
    (empty : run.machine.inbox = []) :
    Serves queued run (serveInOrder conduct queued run) := by
  induction queued generalizing run with
  | nil => exact ⟨⟨[], by rw [empty, List.append_nil], (List.append_nil _).symm, rfl⟩, empty⟩
  | cons request more inductionHypothesis =>
      have taken := servePosted_final conduct request run
      unfold final at taken
      rw [serveInOrder_cons conduct request more run empty]
      cases first : servePosted conduct request run with
      | ok value middle =>
          rw [first] at taken
          obtain ⟨served, posted⟩ := taken
          have others := inductionHypothesis middle (servePosted_ok conduct first)
          -- Whatever becomes of the others, this request has been taken up before them.
          have ahead (after : Run β D N) (takes : Run.Takes more middle after) :
              Run.Takes (request :: more) run after := by
            obtain ⟨found, split, wasServed, wasPosted⟩ := takes
            refine ⟨request :: found, by rw [split, List.cons_append], ?_, wasPosted.trans posted⟩
            rw [wasServed, served, List.map_cons, List.append_assoc, List.singleton_append]
          dsimp only
          cases rest : serveInOrder conduct more middle with
          | ok value after =>
              rw [rest] at others
              exact ⟨ahead after others.1, others.2⟩
          | error cause after =>
              rw [rest] at others
              cases cause with
              | refused refusal => exact ahead after others
              | brokenOff message => trivial
      | error cause after =>
          rw [first] at taken
          cases cause with
          | refused refusal =>
              have cleared := servePosted_refused conduct empty first
              exact ⟨[request], by simp [Run.requeue, cleared], taken.1, taken.2⟩
          | brokenOff message => trivial

end Kernel

/-- A call first takes up what was posted.  If it is refused before that is done, the rest of what
was posted still waits. -/
theorem Call.perform_serves
    (conduct : Conduct β D N)
    (call : Call β)
    (run : Run β D N) :
    Serves run.machine.inbox run (call.perform conduct run) := by
  have drains := Kernel.serveInOrder_serves conduct run.machine.inbox
    (run.mapMachine Kernel.emptied) rfl
  rw [Call.perform_apply]
  cases drained : Kernel.serveInOrder conduct run.machine.inbox
      (run.mapMachine Kernel.emptied) with
  | error cause after =>
      rw [drained] at drains
      cases cause with
      | refused refusal => exact drains
      | brokenOff message => trivial
  | ok value middle =>
      rw [drained] at drains
      obtain ⟨takes, empty⟩ := drains
      have tidied := call.work_tidied conduct middle empty
      have works : Run.GoesOn call.deeds middle ((call.work conduct).final middle) := by
        have follows : Follows conduct call.deeds (call.work conduct)
            ⟨.idle, call.requests ++ [], middle⟩ (fun _ => .idle) [] [] :=
          call.work_follows empty
        obtain ⟨_, _, steps⟩ := follows.steps
        exact steps.goesOn
      have served := works.served (by cases call <;> simp [Call.deeds])
      have posted := works.posted (by cases call <;> simp [Call.deeds])
      have kept (after : Run β D N)
          (still : after.machine.inbox = [])
          (served : after.served = middle.served)
          (posted : after.posted = middle.posted) :
          Run.Takes run.machine.inbox run after := by
        obtain ⟨taken, split, wasServed, wasPosted⟩ := takes
        refine ⟨taken, ?_, served.trans wasServed, posted.trans wasPosted⟩
        rw [split, empty, still]
      unfold Kernel.final at served posted
      dsimp only
      cases worked : call.work conduct middle with
      | ok reply after =>
          rw [worked] at tidied served posted
          exact ⟨kept after tidied served posted, tidied⟩
      | error cause after =>
          rw [worked] at tidied served posted
          cases cause with
          | refused refusal => exact kept after tidied served posted
          | brokenOff message => trivial

/-! ## Operations that make no call -/

/-- These requests have been posted, and nothing else has happened that has to do with requests or
with transitions. -/
structure Run.Aside (posts : List (Request β)) (before after : Run β D N) : Prop where
  pending : after.machine.pending = before.machine.pending
  made : before.machine.made ≤ after.machine.made
  inbox : after.machine.inbox = before.machine.inbox ++ posts
  posted : after.posted = before.posted ++ posts.map Request.label
  served : after.served = before.served
  deferrals : after.deferrals = before.deferrals

namespace Run.Aside

variable {before middle after : Run β D N} {posts : List (Request β)}

/-- An operation that writes nothing. -/
theorem of_journal
    (pending : after.machine.pending = before.machine.pending)
    (made : before.machine.made ≤ after.machine.made)
    (inbox : after.machine.inbox = before.machine.inbox)
    (same : after.journal = before.journal) :
    Aside [] before after where
  pending := pending
  made := made
  inbox := inbox.trans (List.append_nil _).symm
  posted := by
    rw [Run.posted, same]
    exact (List.append_nil _).symm
  served := by rw [Run.served, same, Run.served]
  deferrals := by rw [Run.deferrals, same, Run.deferrals]

theorem refl (run : Run β D N) : Aside [] run run :=
  .of_journal rfl (Nat.le_refl _) rfl rfl

theorem trans (first : Aside posts before middle) (second : Aside [] middle after) :
    Aside posts before after where
  pending := second.pending.trans first.pending
  made := Nat.le_trans first.made second.made
  inbox := by rw [second.inbox, first.inbox, List.append_nil]
  posted := by rw [second.posted, first.posted, List.map_nil, List.append_nil]
  served := second.served.trans first.served
  deferrals := second.deferrals.trans first.deferrals

/-- An operation that writes an entry that tells of no request and of no transition. -/
theorem of_written
    {entry : Entry β N}
    (pending : after.machine.pending = before.machine.pending)
    (made : before.machine.made ≤ after.machine.made)
    (inbox : after.machine.inbox = before.machine.inbox)
    (wrote : after.journal = before.journal.push entry)
    (posted : entry.posted? = none)
    (served : entry.served? = none)
    (deferred : entry.deferral? = none) :
    Aside [] before after where
  pending := pending
  made := made
  inbox := inbox.trans (List.append_nil _).symm
  posted := by simp [Run.posted, wrote, posted]
  served := by simp [Run.served, wrote, served]
  deferrals := by simp [Run.deferrals, wrote, deferred]

/-- A posted request is told of and waits behind all others. -/
theorem post (run : Run β D N) (hands : Hands β) (request : Request β) :
    Aside [request] run
      ((Run.write { run with hands := hands } (.posted request.label)).enqueue request) where
  pending := rfl
  made := Nat.le_refl _
  inbox := rfl
  posted := by simp [Run.posted, Run.enqueue, Run.mapMachine, Entry.posted?]
  served := by simp [Run.served, Run.enqueue, Run.mapMachine, Entry.served?]
  deferrals := by simp [Run.deferrals, Run.enqueue, Run.mapMachine, Entry.deferral?]

end Run.Aside

/-- What an operation posts, if it makes no call. -/
def Operation.posts (run : Run β D N) : Operation β D → Option (Request β)
  | .post target => (run.take target).1
  | _ => none

namespace Kernel

variable {conduct : Conduct β D N} {run : Run β D N} {operation : Operation β D}

/-- A call that cannot be made leaves everything as it is. -/
theorem perform_idle
    (conduct : Conduct β D N)
    (call : operation.isCall = true)
    (aside : operation.call? run = none) :
    (perform conduct operation).final run = run := by
  cases operation with
  | switchTo target =>
      have missing : (run.take target).1 = none := Option.map_eq_none_iff.mp aside
      rw [final, perform, bind_apply, takeTarget_apply, missing, take_none target missing]
      rfl
  | tick delta =>
      have bad : ¬ (delta.isNaN || delta.isNegative) = false := by
        intro valid
        rw [Operation.call?, dif_pos valid] at aside
        cases aside
      rw [final, perform, tick, Bool.of_not_eq_false bad]
      rfl
  | pop | restart | shutdown => cases aside
  | _ => cases call

/-- An operation that makes no call puts a request into the inbox only by posting it. -/
theorem perform_of_no_call
    (conduct : Conduct β D N)
    (aside : operation.call? run = none) :
    Run.Aside (operation.posts run).toList run ((perform conduct operation).final run) := by
  cases operation with
  | switchTo | tick =>
      rw [perform_idle conduct rfl aside]
      exact .refl run
  | post target =>
      rw [Operation.posts]
      cases taken : (run.take target).1 with
      | none =>
          have idle : (perform conduct (.post target)).final run = run := by
            rw [final, perform, bind_apply, takeTarget_apply, taken, take_none target taken]
            rfl
          rw [idle]
          exact .refl run
      | some request =>
          rw [final, perform, bind_apply, takeTarget_apply, taken, run.take_frame target]
          exact .post run (run.take target).2.hands request
  | push =>
      rw [final, perform, bind_apply, push_apply]
      cases run.machine.current with
      | none => exact .of_written rfl (Nat.le_refl _) rfl rfl rfl rfl rfl
      | some subject => exact .of_written rfl (Nat.le_refl _) rfl rfl rfl rfl rfl
  | pushCurrent =>
      rw [final, perform, bind_apply, pushCurrent_apply]
      cases run.machine.current with
      | none => exact .refl run
      | some subject => exact .of_written rfl (Nat.le_refl _) rfl rfl rfl rfl rfl
  | tryKind kind =>
      rw [final, perform, bind_apply, copyPrototype_apply]
      cases run.machine.registry.prototype kind with
      | error refusal => exact .refl run
      | ok behavior => exact .of_written rfl (Nat.le_refl _) rfl rfl rfl rfl rfl
  | create kind slot =>
      rw [final, perform, bind_apply, makeOfKind, bind_apply, copyPrototype_apply]
      cases run.machine.registry.prototype kind with
      | error refusal => exact .refl run
      | ok behavior =>
          have copied : Run.Aside [] run (run.write (.copied kind behavior)) :=
            .of_written rfl (Nat.le_refl _) rfl rfl rfl rfl rfl
          exact copied.trans (.of_written rfl (Nat.le_succ _) rfl rfl rfl rfl rfl)
  | adopt kind behavior slot => exact .of_written rfl (Nat.le_succ _) rfl rfl rfl rfl rfl
  | pauseHeld slot paused =>
      rw [final, perform, bind_apply, get_apply]
      by_cases held : run.hands.contains slot = true
      · simp only [held, if_true]
        exact .of_journal rfl (Nat.le_refl _) rfl rfl
      · simp only [held]
        exact .refl run
  | reset | setData data | pause paused => exact .of_journal rfl (Nat.le_refl _) rfl rfl
  | pop | restart | shutdown => cases aside

end Kernel

/-! ## Reachable runs -/

namespace Run

/-- What was posted has been taken up or waits. -/
def Accounted (run : Run β D N) : Prop :=
  run.posted = run.served ++ run.waiting

/-- Requests that are served were posted before, in this order. -/
theorem Accounted.takes
    {before after : Run β D N}
    (accounted : before.Accounted)
    (takes : Takes before.machine.inbox before after) :
    after.Accounted := by
  obtain ⟨taken, split, served, posted⟩ := takes
  unfold Accounted waiting at *
  rw [posted, accounted, served, split, List.map_append, List.append_assoc]

/-- Nothing that is posted is lost, whatever operation is done. -/
theorem Accounted.perform
    {conduct : Conduct β D N}
    {run : Run β D N}
    (accounted : run.Accounted)
    (now : Instant)
    (operation : Operation β D)
    (unbroken : Unbroken (run.perform conduct now operation).1) :
    (run.perform conduct now operation).2.Accounted := by
  have ready : Accounted { run with now := now } := accounted
  cases made : operation.call? { run with now := now } with
  | some found =>
      obtain ⟨call, start⟩ := found
      obtain ⟨same, hands, rfl⟩ := Kernel.perform_of_call conduct made
      have serves := call.perform_serves conduct { run with now := now, hands := hands }
      unfold Run.perform at unbroken ⊢
      rw [same] at unbroken ⊢
      split
      next reply after ends =>
        rw [ends] at serves
        exact ready.takes serves.1
      next cause after ends =>
        rw [ends] at serves unbroken
        cases cause with
        | refused refusal => exact ready.takes serves
        | brokenOff message => exact unbroken.elim
  | none =>
      rw [perform_final]
      have aside := Kernel.perform_of_no_call conduct made
      unfold Accounted waiting at ready ⊢
      rw [aside.posted, aside.served, aside.inbox, List.map_append, ← List.append_assoc]
      exact congrArg (· ++ _) ready

end Run

/-- In every reachable run without breakdowns, what was posted has been served or still waits. -/
theorem accounted_reachable
    {id : MachineId}
    {config : Config}
    {registry : Registry β}
    {data : D}
    {origin : Machine β D}
    {conduct : Conduct β D N}
    {run : Run β D N}
    (made : Machine.make id config registry data = .ok origin)
    (reached : Reachable conduct Unbroken origin run) :
    run.Accounted := by
  induction reached with
  | start now =>
      rw [Machine.eq_idle_of_make made]
      rfl
  | perform now operation _ unbroken inductionHypothesis =>
      exact inductionHypothesis.perform now operation unbroken
  | rearrange hands _ kept inductionHypothesis => exact inductionHypothesis

/-- The requests that were posted through handles are those that have been taken up and after them
those in the inbox, in the order in which they were posted.  A call that ends with a value leaves
the inbox empty.  A call that is refused leaves in it exactly those of the requests before the call
that it has not taken up.  So nothing that a hook asks for is in the inbox after the call. -/
theorem posted_in_order
    {id : MachineId}
    {config : Config}
    {registry : Registry β}
    {data : D}
    {origin : Machine β D}
    {conduct : Conduct β D N}
    {run : Run β D N}
    (made : Machine.make id config registry data = .ok origin)
    (reached : Reachable conduct Unbroken origin run) :
    run.posted = run.served ++ run.waiting ∧
    ∀ now operation, (operation.call? { run with now := now }).isSome →
      match run.perform conduct now operation with
      | (.ok _, after) =>
          after.machine.inbox = [] ∧ after.served = run.posted ∧ after.posted = run.posted
      | (.error (.refused _), after) =>
          ∃ taken : List (Request β),
            run.machine.inbox = taken ++ after.machine.inbox ∧
              after.served = run.served ++ taken.map Request.label ∧
              after.posted = run.posted
      | (.error (.brokenOff _), _) => True := by
  have accounted := accounted_reachable made reached
  refine ⟨accounted, fun now operation makes => ?_⟩
  obtain ⟨⟨call, start⟩, made⟩ := Option.isSome_iff_exists.mp makes
  obtain ⟨same, hands, rfl⟩ := Kernel.perform_of_call conduct made
  have serves := call.perform_serves conduct { run with now := now, hands := hands }
  unfold Run.perform
  rw [same]
  cases ends : call.perform conduct { run with now := now, hands := hands } with
  | ok reply after =>
      rw [ends] at serves
      obtain ⟨⟨taken, split, served, posted⟩, empty⟩ := serves
      refine ⟨empty, ?_, posted⟩
      have all : taken = run.machine.inbox := by rw [split, empty, List.append_nil]
      rw [served, all]
      exact accounted.symm
  | error cause after =>
      rw [ends] at serves
      cases cause with
      | refused refusal => exact serves
      | brokenOff message => trivial

/-- The run of a relay for which two requests were posted, the first of them for an unknown
kind. -/
def relayPosted : Run Actor Meter Note :=
  let first := ((relayStarted true).perform Actor.conduct .epoch (.post (.fresh ⟨9⟩))).2
  (first.perform Actor.conduct .epoch (.post (.fresh ⟨2⟩))).2

/-- A relay that is refused the first of two requests has taken up this one, and the other one still
waits. -/
theorem posted_in_order_relay :
    relayPosted.posted = relayPosted.served ++ relayPosted.waiting ∧
    ∃ taken : List (Request Actor),
      taken.map Request.label = [.fresh ⟨9⟩] ∧
      relayPosted.machine.inbox =
        taken ++ (relayPosted.perform Actor.conduct .epoch .restart).2.machine.inbox := by
  have reached : Reachable Actor.conduct Unbroken (relay true) relayPosted := by
    refine .perform _ _ (.perform _ _ (relayStarted_reachable true) ?_) ?_
    · decide +kernel
    · decide +kernel
  obtain ⟨accounted, served⟩ := posted_in_order (relay_made true) reached
  have restarted := served .epoch .restart rfl
  have answer : (relayPosted.perform Actor.conduct .epoch .restart).1 =
      .error (.refused (.unavailable ⟨9⟩ .unregistered)) := by
    decide +kernel
  have left : (relayPosted.perform Actor.conduct .epoch .restart).2.waiting = [.fresh ⟨2⟩] := by
    decide +kernel
  generalize relayPosted.perform Actor.conduct .epoch .restart = ended at restarted answer left ⊢
  obtain ⟨reply, after⟩ := ended
  cases answer
  obtain ⟨taken, split, -⟩ := restarted
  refine ⟨accounted, taken, ?_, split⟩
  have labels : relayPosted.waiting = taken.map Request.label ++ after.waiting := by
    rw [Run.waiting, split, List.map_append, Run.waiting]
  have queued : relayPosted.waiting = [.fresh ⟨9⟩, .fresh ⟨2⟩] := by decide +kernel
  rw [queued, left] at labels
  exact (List.append_cancel_right (labels : [_] ++ [_] = _)).symm

end TickMachine
