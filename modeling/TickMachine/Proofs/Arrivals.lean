import TickMachine.Proofs.Deferral
import TickMachine.Proofs.Posting
import TickMachine.Proofs.Silence

/-!
# Requests in deferred mode

In deferred mode a request is served when it is taken up and its transition becomes the pending
one.  An account lists what was served from one stage to another, in order, with the state to which
each of the requests leads.  The journal tells of these states in the same order, and the last one
of them is that of the pending transition.
-/

namespace TickMachine

variable {β D N : Type}

/-! ## Deferred transitions in the journal -/

/-- What tells the state of a transition from all others. -/
def Transition.identity (transition : Transition β) : Kind × Serial :=
  (transition.kind, transition.serial)

namespace Run

theorem deferrals_write (run : Run β D N) (entry : Entry β N) :
    (run.write entry).deferrals = run.deferrals ++ entry.deferral?.toList := by
  rw [deferrals, write_journal, Array.toList_push, List.filterMap_append, deferrals]
  cases told : entry.deferral? <;> simp [told]

/-- Only one kind of entry tells of a deferred transition. -/
theorem deferrals_write_none
    (run : Run β D N)
    (entry : Entry β N)
    (silent : entry.deferral? = none) :
    (run.write entry).deferrals = run.deferrals := by
  rw [deferrals_write, silent]
  exact List.append_nil _

theorem deferrals_reacted
    (run : Run β D N)
    (conduct : Conduct β D N)
    (hook : Hook)
    (subject : Instance β) :
    (run.reacted conduct hook subject).deferrals = run.deferrals := by
  simp [deferrals, reacted, Entry.deferral?]

theorem deferrals_letGone (run : Run β D N) (transition : Transition β) :
    (run.letGone transition).deferrals = run.deferrals := by
  cases transition with
  | replace next =>
      rw [letGone, released]
      split
      · exact run.deferrals_write_none _ rfl
      · exact run.deferrals_write_none _ rfl
  | reenter kind serial => rfl

theorem deferrals_deferred (run : Run β D N) (transition : Transition β) :
    (run.deferred transition).deferrals = run.deferrals ++ [transition.identity] := by
  unfold deferred
  rw [deferrals_write]
  refine congrArg (· ++ _) ?_
  cases run.machine.pending with
  | none => rfl
  | some previous =>
      dsimp only
      split
      · exact deferrals_letGone _ previous
      · rw [deferrals_write_none _ _ rfl]
        exact deferrals_letGone _ previous

/-- What the journal tells of deferred transitions stays in it. -/
theorem GoesOn.deferrals
    {deeds : List Deed}
    {before after : Run β D N}
    (goesOn : GoesOn deeds before after) :
    ∃ more, after.deferrals = before.deferrals ++ more := by
  obtain ⟨added, wrote, -⟩ := goesOn
  refine ⟨added.filterMap Entry.deferral?, ?_⟩
  rw [Run.deferrals, wrote, List.filterMap_append]
  rfl

/-! ## Runs without hooks -/

/-- No hook has run, and the stack and the hands are as they were. -/
structure Undisturbed (before after : Run β D N) : Prop where
  calls : after.calls = before.calls
  hands : after.hands = before.hands
  machine : ∃ pending parked inbox made,
    after.machine = { before.machine with
      pending := pending, parked := parked, inbox := inbox, made := made }

namespace Undisturbed

variable {before middle after : Run β D N}

theorem refl (run : Run β D N) : Undisturbed run run :=
  ⟨rfl, rfl, run.machine.pending, run.machine.parked, run.machine.inbox, run.machine.made, rfl⟩

theorem trans (first : Undisturbed before middle) (second : Undisturbed middle after) :
    Undisturbed before after := by
  obtain ⟨calls, hands, _, _, _, _, machine⟩ := first
  obtain ⟨callsThen, handsThen, pending, parked, inbox, made, machineThen⟩ := second
  refine ⟨callsThen.trans calls, handsThen.trans hands, pending, parked, inbox, made, ?_⟩
  rw [machineThen, machine]

/-- To defer a transition disturbs nothing but what is pending. -/
theorem deferred (run : Run β D N) (transition : Transition β) :
    Undisturbed run (run.deferred transition) := by
  obtain ⟨calls, hands, parked, machine⟩ := run.deferred_frame transition
  exact ⟨calls, hands, some transition, parked, run.machine.inbox, run.machine.made, machine⟩

end Undisturbed

end Run

/-! ## Accounts of requests -/

/-- Something that asks for a transition. -/
inductive Arrival (β : Type) where
  /-- A request by a caller, by the holder of a handle or by a hook. -/
  | request (wanted : Request β)
  /-- The coming back to a state that was pushed. -/
  | resume (serial : Serial)

namespace Arrival

/-- Whether it is a request, and not the coming back to a state. -/
def IsRequest : Arrival β → Prop
  | .request _ => True
  | .resume _ => False

/-- Which state it leads to.  The number of a new state is above those that had been given. -/
def LeadsTo (made : Nat) : Arrival β → Kind × Serial → Prop
  | .request (.fresh kind), found => found.1 = kind ∧ made < found.2.number
  | .request (.existing subject), found => found = subject.identity
  | .resume serial, found => found.2 = serial

/-- A new state that was made after so many others was made after fewer as well. -/
theorem LeadsTo.mono
    {arrival : Arrival β}
    {found : Kind × Serial}
    {made more : Nat}
    (leads : arrival.LeadsTo more found)
    (le : made ≤ more) :
    arrival.LeadsTo made found := by
  match arrival with
  | .request (.fresh kind) => exact ⟨leads.1, Nat.lt_of_le_of_lt le leads.2⟩
  | .request (.existing subject) => exact leads
  | .resume serial => exact leads

end Arrival

/-- From one stage to another nothing is served in deferred mode. -/
structure Stage.Proceeds (before after : Stage β D N) : Prop where
  calm : after.Calm
  /-- What was adrift still is. -/
  kept (serial : Serial) : before.Adrift serial → after.Adrift serial
  made : before.run.machine.made ≤ after.run.machine.made
  deferrals : after.run.deferrals = before.run.deferrals

/-- Steps that make no transition and defer none let a calm call proceed. -/
theorem Stage.Proceeds.of_steps
    {conduct : Conduct β D N}
    {deeds : List Deed}
    {before after : Stage β D N}
    (calm : before.Calm)
    (steps : Steps conduct deeds before after)
    (neverResumed : .resume ∉ deeds)
    (neverLeft : .leave ∉ deeds)
    (made : before.run.machine.made ≤ after.run.machine.made)
    (deferrals : after.run.deferrals = before.run.deferrals) :
    before.Proceeds after where
  calm := steps.calm neverResumed neverLeft calm
  kept _ adrift := steps.adrift neverResumed neverLeft calm adrift
  made := made
  deferrals := deferrals

/-- What was served from one stage to another in deferred mode, in order, with the states to which
it leads. -/
structure Stage.Serves
    (account : List (Arrival β × Kind × Serial))
    (before after : Stage β D N) : Prop where
  calm : after.Calm
  /-- What was adrift still is. -/
  kept (serial : Serial) : before.Adrift serial → after.Adrift serial
  made : before.run.machine.made ≤ after.run.machine.made
  /-- The journal tells of each of the states that their transitions were deferred. -/
  deferrals : after.run.deferrals = before.run.deferrals ++ account.map Prod.snd
  /-- The transition that was deferred last is the pending one. -/
  pending :
    after.run.machine.pending.map Transition.identity =
      (account.getLast?.map Prod.snd).or (before.run.machine.pending.map Transition.identity)
  leads (entry : Arrival β × Kind × Serial) :
    entry ∈ account → entry.1.LeadsTo before.run.machine.made entry.2
  /-- No hook was called of a state that came in with a request. -/
  adrift (entry : Arrival β × Kind × Serial) :
    entry ∈ account → entry.1.IsRequest → after.Adrift entry.2.2

/-- If nothing is served, the pending transition stays the pending one. -/
theorem Stage.Proceeds.serves
    {before after : Stage β D N}
    (proceeds : before.Proceeds after)
    (pending : after.run.machine.pending.map Transition.identity =
      before.run.machine.pending.map Transition.identity) :
    Serves [] before after where
  calm := proceeds.calm
  kept := proceeds.kept
  made := proceeds.made
  deferrals := by rw [proceeds.deferrals, List.map_nil, List.append_nil]
  pending := pending
  leads _ member := absurd member List.not_mem_nil
  adrift _ member := absurd member List.not_mem_nil

namespace Stage.Serves

variable {conduct : Conduct β D N} {deeds : List Deed} {before middle after : Stage β D N}
  {early late : List (Arrival β × Kind × Serial)}

theorem trans (first : Serves early before middle) (second : Serves late middle after) :
    Serves (early ++ late) before after where
  calm := second.calm
  kept serial adrift := second.kept serial (first.kept serial adrift)
  made := Nat.le_trans first.made second.made
  deferrals := by rw [second.deferrals, first.deferrals, List.map_append, List.append_assoc]
  pending := by
    rw [second.pending, first.pending, List.getLast?_append, Option.map_or, Option.or_assoc]
  leads entry member := by
    rcases List.mem_append.mp member with member | member
    · exact first.leads entry member
    · exact (second.leads entry member).mono first.made
  adrift entry member request := by
    rcases List.mem_append.mp member with member | member
    · exact second.kept _ (first.adrift entry member request)
    · exact second.adrift entry member request

theorem refl (calm : before.Calm) : Serves [] before before :=
  Proceeds.serves ⟨calm, fun _ adrift => adrift, Nat.le_refl _, rfl⟩ rfl

/-- An entry is written that tells neither of a call nor of a request or a transition. -/
theorem write
    (conduct : Conduct β D N)
    {batch : List (Request β)}
    {run : Run β D N}
    (calm : Calm ⟨.idle, batch, run⟩)
    (entry : Entry β N)
    (quiet : ¬ entry.IsCall)
    (fits : entry.deed? = none)
    (loose : entry.bound? = none)
    (deferred : entry.deferral? = none) :
    Serves [] ⟨.idle, batch, run⟩ ⟨.idle, batch, run.write entry⟩ := by
  have step : Steps conduct [] ⟨.idle, batch, run⟩ ⟨.idle, batch, run.write entry⟩ := by
    refine .single (.write entry quiet (fun deed told => ?_) loose)
    rw [fits] at told
    cases told
  exact Proceeds.serves
    (.of_steps calm step List.not_mem_nil List.not_mem_nil (Nat.le_refl _)
      (run.deferrals_write_none entry deferred))
    rfl

/-- A transition that has been found is deferred. -/
theorem deferred
    (conduct : Conduct β D N)
    {batch : List (Request β)}
    {run : Run β D N}
    {transition : Transition β}
    (arrival : Arrival β)
    (finds : before.Proceeds ⟨.found transition, batch, run⟩)
    (leads : arrival.LeadsTo before.run.machine.made transition.identity)
    (adrift : arrival.IsRequest → Adrift ⟨.found transition, batch, run⟩ transition.serial) :
    Serves [(arrival, transition.identity)] before ⟨.idle, batch, run.deferred transition⟩ := by
  have steps : Steps conduct [] ⟨.found transition, batch, run⟩
      ⟨.idle, batch, run.deferred transition⟩ :=
    (Kernel.defer_follows transition finds.calm.patient).steps_ok
      (Kernel.defer_apply transition run)
  have floats {serial : Serial} (free : Adrift ⟨.found transition, batch, run⟩ serial) :
      Adrift ⟨.idle, batch, run.deferred transition⟩ serial :=
    steps.adrift List.not_mem_nil List.not_mem_nil finds.calm free
  obtain ⟨-, -, parked, machine⟩ := run.deferred_frame transition
  constructor
  · exact steps.calm List.not_mem_nil List.not_mem_nil finds.calm
  · exact fun serial free => floats (finds.kept serial free)
  · rw [machine]
    exact finds.made
  · exact (run.deferrals_deferred transition).trans (congrArg (· ++ _) finds.deferrals)
  · rw [machine]
    rfl
  · intro entry member
    cases List.mem_singleton.mp member
    exact leads
  · intro entry member request
    cases List.mem_singleton.mp member
    exact floats (adrift request)

end Stage.Serves

/-! ## Serving requests -/

namespace Kernel

variable {conduct : Conduct β D N} {batch : List (Request β)} {run after : Run β D N}

/-- To take up a request defers nothing, and finds the state to which the request leads. -/
theorem takeUp_frame
    {origin : Origin}
    {request : Request β}
    {transition : Transition β}
    (taken : takeUp origin request run = .ok transition after) :
    after.hands = run.hands ∧
      after.deferrals = run.deferrals ∧
      (Arrival.request request).LeadsTo run.machine.made transition.identity := by
  obtain ⟨kind, behavior, rfl, -, rfl, rfl⟩ | ⟨subject, rfl, -, rfl, rfl⟩ := takeUp_cases taken
  · refine ⟨rfl, ?_, rfl, Nat.lt_succ_self _⟩
    rw [Run.counted, Run.deferrals_write_none _ _ rfl]
    exact (Run.deferrals_write_none (run.write _) _ rfl).trans (run.deferrals_write_none _ rfl)
  · exact ⟨rfl, run.deferrals_write_none _ rfl, rfl⟩

/-- A request that is taken up and submitted is served. -/
theorem takeUp_serves
    (conduct : Conduct β D N)
    {origin : Origin}
    {request : Request β}
    {transition : Transition β}
    (calm : Stage.Calm ⟨.idle, request :: batch, run⟩)
    (taken : takeUp origin request run = .ok transition after) :
    submit conduct transition after =
        .ok (.deferred transition.kind transition.serial (after.discarded transition))
          (after.deferred transition) ∧
      Stage.Serves [(.request request, transition.identity)] ⟨.idle, request :: batch, run⟩
        ⟨.idle, batch, after.deferred transition⟩ ∧
      run.Undisturbed (after.deferred transition) ∧
      (after.deferred transition).machine.inbox = run.machine.inbox := by
  obtain ⟨hands, deferrals, leads⟩ := takeUp_frame taken
  obtain ⟨made, le, machine⟩ := takeUp_machine taken
  have steps : Steps conduct [.serve] ⟨.idle, request :: batch, run⟩
      ⟨.found transition, batch, after⟩ :=
    (takeUp_follows origin request fun _ => List.mem_cons_self).steps_ok taken
  have finds : Stage.Proceeds ⟨.idle, request :: batch, run⟩ ⟨.found transition, batch, after⟩ :=
    .of_steps calm steps (by decide) (by decide) (by rw [machine]; exact le) deferrals
  have same : after.machine.inbox = run.machine.inbox := by rw [machine]
  have unhurt : run.Undisturbed after :=
    ⟨takeUp_calls taken, hands, run.machine.pending, run.machine.parked, run.machine.inbox, made,
      machine⟩
  obtain ⟨-, -, parked, placed⟩ := after.deferred_frame transition
  refine ⟨submit_apply_deferred conduct transition after finds.calm.patient, ?_,
    unhurt.trans (.deferred after transition), by rw [placed]; exact same⟩
  exact .deferred conduct (.request request) finds leads fun _ =>
    takeUp_adrift calm.orderly calm.noted taken

/-- The requests of hooks are served in order. -/
theorem serveWithin_serves
    (budget : Nat)
    {value : Unit}
    (calm : Stage.Calm ⟨.idle, batch, run⟩)
    (served : serveWithin conduct budget run = .ok value after) :
    run.Undisturbed after ∧
      ∃ account : List (Arrival β × Kind × Serial),
        account.map Prod.fst = run.machine.inbox.map .request ∧
          Stage.Serves account ⟨.idle, batch, run⟩ ⟨.idle, batch, after⟩ := by
  induction budget generalizing run with
  | zero =>
      obtain ⟨machine, _, looked, served⟩ := bind_ok served
      cases looked
      split at served
      next empty =>
        cases served
        rw [List.isEmpty_iff.mp empty]
        exact ⟨.refl _, [], rfl, .refl calm⟩
      next => nomatch served
  | succ budget inductionHypothesis =>
      obtain ⟨found, middle, drawn, served⟩ := bind_ok served
      rw [nextRequest_apply] at drawn
      cases waiting : run.machine.inbox with
      | nil =>
          rw [waiting] at drawn
          cases drawn
          cases served
          exact ⟨.refl _, [], rfl, .refl calm⟩
      | cons asked more =>
          rw [waiting] at drawn
          cases drawn
          obtain ⟨_, submitted, asks, served⟩ := bind_ok served
          obtain ⟨transition, taken, mended, submits⟩ := bind_ok asks
          obtain ⟨outcome, final, deferred, submits⟩ := bind_ok submits
          cases submits
          let drawn := run.mapMachine fun machine => { machine with inbox := more }
          have step : Steps conduct [] ⟨.idle, batch, run⟩ ⟨.idle, asked :: batch, drawn⟩ :=
            .single (.next asked more waiting)
          have proceeds : Stage.Proceeds ⟨.idle, batch, run⟩ ⟨.idle, asked :: batch, drawn⟩ :=
            .of_steps calm step List.not_mem_nil List.not_mem_nil (Nat.le_refl _) rfl
          obtain ⟨submits, serves, undisturbed, same⟩ :=
            takeUp_serves conduct proceeds.calm (orMend_ok mended)
          rw [submits] at deferred
          cases deferred
          obtain ⟨still, account, listed, rest⟩ := inductionHypothesis serves.calm served
          have first : run.Undisturbed drawn :=
            ⟨rfl, rfl, run.machine.pending, run.machine.parked, more, run.machine.made, rfl⟩
          refine ⟨(first.trans undisturbed).trans still,
            (.request asked, transition.identity) :: account, ?_,
            ((proceeds.serves rfl).trans serves).trans rest⟩
          rw [List.map_cons, List.map_cons, listed, same]
          rfl

/-- The requests of hooks are served in order, each with one deferral. -/
theorem serveHooks_serves
    {value : Unit}
    (calm : Stage.Calm ⟨.idle, batch, run⟩)
    (served : serveHooks conduct run = .ok value after) :
    run.Undisturbed after ∧
      ∃ account : List (Arrival β × Kind × Serial),
        account.map Prod.fst = run.machine.inbox.map .request ∧
          Stage.Serves account ⟨.idle, batch, run⟩ ⟨.idle, batch, after⟩ :=
  serveWithin_serves (chainBudget run.machine) calm served

/-- The requests that were posted are served in order. -/
theorem serveInOrder_accounts
    {queued : List (Request β)}
    {value : Unit}
    (calm : Stage.Calm ⟨.idle, queued ++ batch, run⟩)
    (empty : run.machine.inbox = [])
    (served : serveInOrder conduct queued run = .ok value after) :
    run.Undisturbed after ∧
      ∃ account : List (Arrival β × Kind × Serial),
        account.map Prod.fst = queued.map .request ∧
          Stage.Serves account ⟨.idle, queued ++ batch, run⟩ ⟨.idle, batch, after⟩ := by
  induction queued generalizing run with
  | nil =>
      cases served
      exact ⟨.refl _, [], rfl, .refl calm⟩
  | cons posted more inductionHypothesis =>
      obtain ⟨_, middle, mended, served⟩ := bind_ok served
      obtain ⟨transition, taken, takes, submits⟩ := bind_ok (orMend_ok mended)
      obtain ⟨submitted, serves, undisturbed, same⟩ := takeUp_serves conduct calm takes
      rw [bind_apply, submitted] at submits
      dsimp only at submits
      rw [serveHooks_apply_empty conduct _ (same.trans empty)] at submits
      cases submits
      obtain ⟨still, account, listed, rest⟩ :=
        inductionHypothesis serves.calm (same.trans empty) served
      refine ⟨undisturbed.trans still, (.request posted, transition.identity) :: account, ?_,
        serves.trans rest⟩
      rw [List.map_cons, List.map_cons, listed]

/-- The posted requests are served in order, each with one deferral. -/
theorem serveHandles_serves
    {value : Unit}
    (calm : Stage.Calm ⟨.idle, batch, run⟩)
    (served : serveHandles conduct run = .ok value after) :
    run.Undisturbed after ∧
      ∃ account : List (Arrival β × Kind × Serial),
        account.map Prod.fst = run.machine.inbox.map .request ∧
          Stage.Serves account ⟨.idle, batch, run⟩ ⟨.idle, batch, after⟩ := by
  rw [serveHandles_apply] at served
  have step : Steps conduct [] ⟨.idle, batch, run⟩
      ⟨.idle, run.machine.inbox ++ batch, run.mapMachine emptied⟩ :=
    .single .draw
  have proceeds : Stage.Proceeds ⟨.idle, batch, run⟩
      ⟨.idle, run.machine.inbox ++ batch, run.mapMachine emptied⟩ :=
    .of_steps calm step List.not_mem_nil List.not_mem_nil (Nat.le_refl _) rfl
  obtain ⟨undisturbed, account, listed, serves⟩ :=
    serveInOrder_accounts proceeds.calm rfl served
  have first : run.Undisturbed (run.mapMachine emptied) :=
    ⟨rfl, rfl, run.machine.pending, run.machine.parked, [], run.machine.made, rfl⟩
  exact ⟨first.trans undisturbed, account, listed, (proceeds.serves rfl).trans serves⟩

end Kernel
end TickMachine
