import TickMachine.Proofs.Likeness
import TickMachine.Proofs.Reachable

/-!
# Queued requests and direct ones

Requests that are posted through a handle wait until the next call, which serves them before its
own work.  It comes to the same as requesting the transitions directly, one after the other, and
then making the call.  Only when a request is refused do the two differ: directly, the requests
after it have not been made, and queued, they still wait in the inbox.
-/

namespace TickMachine

variable {β D N : Type}

/-! ## Histories apart from their times -/

/-- A record of the history without its time. -/
def Passage.course (passage : Passage) : Option Kind × Option Kind × Option Serial :=
  (passage.source, passage.target, passage.subject)

/-- Histories are equal up to the times of their records, and everything else is equal. -/
def Likeness.timeless : Likeness where
  same config history other record :=
    other = config ∧ record.limit = history.limit ∧
      record.records.map Passage.course = history.records.map Passage.course
  immediate same := congrArg Config.immediate same.1
  shutdown same := congrArg Config.shutdown same.1
  record := by
    rintro config other history record source target subject now later ⟨shared, limit, records⟩
    refine ⟨shared, by rw [History.limit_record, History.limit_record, limit], ?_⟩
    have sizes : record.records.length = history.records.length := by
      simpa using congrArg List.length records
    unfold History.record
    rw [limit, sizes]
    split
    · exact records
    · simp only [List.map_append, List.map_drop, records]
      rfl

/-- Histories that differ in their times allow chains of the same length. -/
theorem Likeness.timeless_steady : Kernel.Steady Likeness.timeless := by
  intro config other history record same
  rw [same.1]

namespace Alike

variable {likeness : Likeness} {left right : Run β D N}

theorem refl (run : Run β D N) : Alike .timeless run run where
  machine := ⟨run.machine.config, run.machine.history, rfl, rfl, rfl, rfl⟩
  hands := rfl
  journal := rfl

theorem clock
    (alike : Alike likeness left right)
    (now later : Instant) :
    Alike likeness { left with now := now } { right with now := later } where
  machine := alike.machine
  hands := alike.hands
  journal := alike.journal

theorem inbox (alike : Alike likeness left right) :
    right.machine.inbox = left.machine.inbox := by
  obtain ⟨config, history, shared, -⟩ := alike.machine
  rw [shared]

theorem emptied (alike : Alike likeness left right) :
    Alike likeness (left.mapMachine Kernel.emptied) (right.mapMachine Kernel.emptied) := by
  apply alike.mapMachine
  rintro machine _ ⟨config, history, rfl, same⟩
  exact ⟨config, history, rfl, same⟩

/-- Runs stay alike when the same requests are put back. -/
theorem requeue
    (alike : Alike likeness left right)
    (waiting : List (Request β)) :
    Alike likeness (left.requeue waiting) (right.requeue waiting) := by
  apply alike.mapMachine
  rintro machine _ ⟨config, history, rfl, same⟩
  exact ⟨config, history, rfl, same⟩

end Alike

theorem Matches.refl
    {α : Type}
    (result : EStateM.Result Interruption (Run β D N) α) :
    Matches .timeless result result := by
  cases result with
  | ok value run => exact .ok value (.refl run)
  | error cause run => exact .error cause (.refl run)

/-! ## Posting and requesting -/

/-- Posts requests through a handle, one after the other. -/
def Kernel.postAll : List (Request β) → Kernel β D N Unit
  | [] => pure ()
  | posted :: more => do
      post posted
      postAll more

/-- Posts requests through a handle and then makes a call. -/
def Call.afterPosting
    (conduct : Conduct β D N)
    (call : Call β)
    (posted : List (Request β)) : Kernel β D N Reply := do
  Kernel.postAll posted
  call.perform conduct

/-- Requests transitions directly, each at its own time, until one of them is interrupted.  With
the interruption come the requests that have not been made. -/
def Run.switchAll
    (conduct : Conduct β D N) :
    List (Instant × Request β) → Run β D N →
      EStateM.Result (Interruption × List (Request β)) (Run β D N) Unit
  | [], run => .ok () run
  | (now, wanted) :: more, run =>
      match Kernel.switchTo conduct wanted { run with now := now } with
      | .ok _ after => switchAll conduct more after
      | .error cause after => .error (cause, more.map Prod.snd) after

/-- Posting only fills the inbox and is noted in the journal. -/
theorem Kernel.postAll_apply (posted : List (Request β)) (run : Run β D N) :
    ∃ after, postAll posted run = .ok () after ∧ Alike .timeless (run.requeue posted) after := by
  induction posted generalizing run with
  | nil =>
      refine ⟨run, rfl, ?_⟩
      simpa [Run.requeue, Run.mapMachine] using Alike.refl run
  | cons first more inductionHypothesis =>
      obtain ⟨after, posts, alike⟩ :=
        inductionHypothesis ((run.write (.posted first.label)).enqueue first)
      refine ⟨after, posts, ?_⟩
      have machine := alike.machine
      have journal := alike.journal
      simp only [Run.requeue, Run.enqueue, Run.mapMachine, Run.write, List.append_assoc,
        List.singleton_append] at machine journal
      refine ⟨machine, alike.hands, journal.trans ?_⟩
      simp [substance, Run.requeue, Run.mapMachine, Entry.isClerical]

/-- The first of the requests that are to be made, if something that was posted before them is
refused. -/
def Run.blocked
    (conduct : Conduct β D N)
    (run : Run β D N)
    (wanted : List (Request β)) : List (Request β) :=
  match Kernel.serveHandles conduct run with
  | .error (.refused _) _ => wanted.take 1
  | _ => []

/-- Posting requests and then making a call comes to the same as requesting the transitions
directly and then making the call.  If a direct request is refused, the call is refused for the
same reason and not made.  The requests in `kept` and those that have not been made directly then
wait at the end of the inbox. -/
def Run.QueuedAsDirect
    (conduct : Conduct β D N)
    (run : Run β D N)
    (targets : List (Instant × Request β))
    (now : Instant)
    (call : Call β)
    (kept : List (Request β)) : Prop :=
  let queued := call.afterPosting conduct (targets.map Prod.snd) { run with now := now }
  match Run.switchAll conduct targets run with
  | .ok () after => Matches .timeless (call.perform conduct { after with now := now }) queued
  | .error (.refused refusal, rest) after =>
      ∃ final, queued = .error (.refused refusal) final ∧
        Alike .timeless (after.requeue (kept ++ rest)) final
  | .error (.brokenOff message, _) after =>
      ∃ final, queued = .error (.brokenOff message) final ∧ Alike .timeless after final

/-! ## Serving and requesting -/

/-- How the end of direct requests goes with the end of serving the same requests. -/
inductive Carried (kept : List (Request β)) :
    EStateM.Result (Interruption × List (Request β)) (Run β D N) Unit →
      EStateM.Result Interruption (Run β D N) Unit → Prop where
  | ok {first second : Run β D N}
      (alike : Alike .timeless first second)
      (empty : first.machine.inbox = []) :
      Carried kept (.ok () first) (.ok () second)
  | refused (refusal : Refusal) (rest : List (Request β)) {first second : Run β D N}
      (alike : Alike .timeless (first.requeue (kept ++ rest)) second) :
      Carried kept (.error (.refused refusal, rest) first) (.error (.refused refusal) second)
  | brokenOff (message : String) (rest : List (Request β)) {first second : Run β D N}
      (alike : Alike .timeless first second) :
      Carried kept (.error (.brokenOff message, rest) first) (.error (.brokenOff message) second)

namespace Kernel

variable (conduct : Conduct β D N)

/-- A request is served like a direct one, only that nobody learns its outcome. -/
theorem switchOwn_served
    {likeness : Likeness}
    (steady : Steady likeness)
    (wanted : Request β) :
    Agree likeness
      (do
        let _ ← switchOwn conduct wanted
        pure ())
      (servePosted conduct wanted) := by
  have same : (do
      let _ ← switchOwn conduct wanted
      pure ()) = (do
        let transition ← takeUp .caller wanted
        let _ ← submit conduct transition
        serveHooks conduct) := by
    simp only [switchOwn, bind_assoc, pure_bind, bind_pure_unit]
  rw [same]
  exact .bind (takeUp_agrees .caller .handle wanted) fun transition =>
    .bind ((Composed.submit transition).agrees steady) fun _ =>
      Composed.servesHooks.agrees steady

end Kernel

namespace Carried

variable (conduct : Conduct β D N)

/-- One request before others, on a machine with nothing in its inbox. -/
theorem cons
    {left right : Run β D N}
    (alike : Alike .timeless left right)
    (empty : left.machine.inbox = [])
    (wanted : Request β)
    (more : List (Instant × Request β))
    (others : ∀ ⦃first second : Run β D N⦄, Alike .timeless first second →
      first.machine.inbox = [] →
        Carried [] (Run.switchAll conduct more first)
          (Kernel.serveInOrder conduct (more.map Prod.snd) second)) :
    Carried []
      (match Kernel.switchOwn conduct wanted left with
      | .ok _ after => Run.switchAll conduct more after
      | .error cause after => .error (cause, more.map Prod.snd) after)
      (Kernel.serveInOrder conduct (wanted :: more.map Prod.snd) right) := by
  have matched := Kernel.switchOwn_served conduct Likeness.timeless_steady wanted alike
  rw [Kernel.serveInOrder_cons conduct wanted _ right (alike.inbox.trans empty)]
  rw [Kernel.bind_apply] at matched
  cases direct : Kernel.switchOwn conduct wanted left with
  | ok outcome first =>
      rw [direct] at matched
      generalize served : Kernel.servePosted conduct wanted right = other at matched
      cases matched with
      | ok _ stillAlike =>
          have cleared := Kernel.servePosted_ok conduct served
          exact others stillAlike (stillAlike.inbox.symm.trans cleared)
  | error cause first =>
      rw [direct] at matched
      generalize Kernel.servePosted conduct wanted right = other at matched
      cases matched with
      | error _ stillAlike =>
          cases cause with
          | refused refusal => exact .refused refusal _ (stillAlike.requeue _)
          | brokenOff message => exact .brokenOff message _ stillAlike

/-- Direct requests on a machine with nothing in its inbox are like serving the same requests. -/
theorem switchAll
    (targets : List (Instant × Request β))
    {left right : Run β D N}
    (alike : Alike .timeless left right)
    (empty : left.machine.inbox = []) :
    Carried [] (Run.switchAll conduct targets left)
      (Kernel.serveInOrder conduct (targets.map Prod.snd) right) := by
  induction targets generalizing left right with
  | nil => exact .ok alike empty
  | cons target more inductionHypothesis =>
      obtain ⟨now, wanted⟩ := target
      have direct := Kernel.switchTo_apply_empty conduct wanted { left with now := now } empty
      rw [Run.switchAll, direct]
      exact cons conduct (alike.clock now right.now) empty wanted more
        fun _ _ => inductionHypothesis

/-- Direct requests on any machine are like serving what waits in the inbox and then the same
requests. -/
theorem switchAll_inbox
    (run : Run β D N)
    (target : Instant × Request β)
    (more : List (Instant × Request β))
    {right : Run β D N}
    (alike : Alike .timeless (run.mapMachine Kernel.emptied) right) :
    Carried (run.blocked conduct (target.2 :: more.map Prod.snd))
      (Run.switchAll conduct (target :: more) run)
      (Kernel.serveInOrder conduct
        (run.machine.inbox ++ target.2 :: more.map Prod.snd) right) := by
  obtain ⟨now, wanted⟩ := target
  have empty : right.machine.inbox = [] := alike.inbox
  have composed : Kernel.Composed conduct (Kernel.serveInOrder conduct run.machine.inbox) :=
    .serveInOrder run.machine.inbox
  have agrees := composed.agrees Likeness.timeless_steady
  -- The refusal of what waits in the inbox does not depend on the time of the request.
  have early : Matches .timeless
      (Kernel.serveInOrder conduct run.machine.inbox
        (Run.mapMachine { run with now := now } Kernel.emptied))
      (Kernel.serveInOrder conduct run.machine.inbox right) :=
    agrees (alike.clock now right.now)
  have timely : Matches .timeless
      (Kernel.serveInOrder conduct run.machine.inbox (run.mapMachine Kernel.emptied))
      (Kernel.serveInOrder conduct run.machine.inbox right) :=
    agrees alike
  rw [Kernel.serveInOrder_append conduct _ _ right empty, Run.switchAll, Kernel.switchTo_apply,
    Run.blocked, Kernel.serveHandles_apply]
  dsimp only
  generalize Kernel.serveInOrder conduct run.machine.inbox
    (run.mapMachine Kernel.emptied) = atOnce at timely ⊢
  cases served : Kernel.serveInOrder conduct run.machine.inbox right with
  | ok value second =>
      rw [served] at early timely
      cases timely with
      | ok _ _ =>
          generalize Kernel.serveInOrder conduct run.machine.inbox
            (Run.mapMachine { run with now := now } Kernel.emptied) = before at early ⊢
          cases early with
          | ok _ stillAlike =>
              have cleared := Kernel.serveInOrder_ok conduct empty served
              exact cons conduct stillAlike (stillAlike.inbox.symm.trans cleared) wanted more
                fun _ _ stillAlike empty => switchAll conduct more stillAlike empty
  | error cause second =>
      rw [served] at early timely
      cases timely with
      | error _ _ =>
          generalize Kernel.serveInOrder conduct run.machine.inbox
            (Run.mapMachine { run with now := now } Kernel.emptied) = before at early ⊢
          cases early with
          | error _ stillAlike =>
              cases cause with
              | refused refusal => exact .refused refusal _ (stillAlike.requeue _)
              | brokenOff message => exact .brokenOff message _ stillAlike

end Carried

/-- Queued requests are like direct ones.  If something that waited before them is refused, the
first of them has been made directly and still waits in the queue. -/
theorem queued_as_direct
    (conduct : Conduct β D N)
    (run : Run β D N)
    (targets : List (Instant × Request β))
    (now : Instant)
    (call : Call β) :
    run.QueuedAsDirect conduct targets now call
      (run.blocked conduct (targets.map Prod.snd)) := by
  cases targets with
  | nil => exact Matches.refl _
  | cons target more =>
      obtain ⟨filled, posts, alike⟩ :=
        Kernel.postAll_apply (target.2 :: more.map Prod.snd) { run with now := now }
      have waiting : filled.machine.inbox = run.machine.inbox ++ target.2 :: more.map Prod.snd :=
        alike.inbox
      have emptied : Alike .timeless (run.mapMachine Kernel.emptied)
          (filled.mapMachine Kernel.emptied) :=
        alike.emptied.clock run.now filled.now
      have carried := Carried.switchAll_inbox conduct run target more emptied
      have queued : call.afterPosting conduct (target.2 :: more.map Prod.snd)
          { run with now := now } = call.perform conduct filled := by
        rw [Call.afterPosting, Kernel.bind_apply, posts]
      rw [Call.perform_apply, waiting] at queued
      unfold Run.QueuedAsDirect
      rw [List.map_cons, queued]
      generalize Run.switchAll conduct (target :: more) run = direct at carried ⊢
      generalize Kernel.serveInOrder conduct (run.machine.inbox ++ target.2 :: more.map Prod.snd)
        (filled.mapMachine Kernel.emptied) = served at carried ⊢
      cases carried with
      | @ok first second stillAlike empty =>
          have idle := Kernel.serveHandles_apply_empty conduct { first with now := now } empty
          dsimp only
          rw [Call.perform_eq, Kernel.bind_apply, idle]
          exact (Kernel.Composed.work call).agrees Likeness.timeless_steady
            (stillAlike.clock now second.now)
      | refused refusal rest stillAlike => exact ⟨_, rfl, stillAlike⟩
      | brokenOff message rest stillAlike => exact ⟨_, rfl, stillAlike⟩

/-- Why a program was interrupted, and how many requests wait after it. -/
def Run.interruption {ε α : Type} : EStateM.Result ε (Run β D N) α → Option (ε × Nat)
  | .ok _ _ => none
  | .error cause after => some (cause, after.machine.inbox.length)

/-- The run of a relay that has never been called, with a request for an unknown kind in its
inbox. -/
def relayMisled : Run Actor Meter Note :=
  let before : Run Actor Meter Note := ⟨relay true, ∅, #[], .epoch⟩
  (before.perform Actor.conduct .epoch (.post (.fresh ⟨9⟩))).2

/-- A request that is queued behind one that is refused is still in the queue after the call, while
the direct request would be gone. -/
theorem queued_unlike_direct_relay :
    Reachable Actor.conduct Unbroken (relay true) relayMisled ∧
      ¬ relayMisled.QueuedAsDirect Actor.conduct [(.epoch, .fresh ⟨2⟩)] .epoch .restart [] := by
  constructor
  · refine .perform _ _ (.start .epoch) ?_
    decide +kernel
  · intro claimed
    have gone :
        (Run.interruption (Run.switchAll Actor.conduct [(.epoch, .fresh ⟨2⟩)] relayMisled)).map
          (fun found => found.1.2.length + found.2) = some 0 := by
      decide +kernel
    have waits :
        (Run.interruption (Call.afterPosting Actor.conduct .restart [.fresh ⟨2⟩]
          { relayMisled with now := .epoch })).map Prod.snd = some 1 := by
      decide +kernel
    unfold Run.QueuedAsDirect at claimed
    split at claimed
    next direct =>
      rw [direct] at gone
      nomatch gone
    next refusal rest after direct =>
      obtain ⟨final, queued, alike⟩ := claimed
      have sizes := congrArg List.length alike.inbox
      simp only [Run.requeue, Run.mapMachine, List.nil_append, List.length_append] at sizes
      rw [direct] at gone
      rw [List.map_cons, List.map_nil] at queued
      rw [queued] at waits
      simp only [Run.interruption, Option.map_some, Option.some.injEq] at gone waits
      omega
    next message rest after direct =>
      obtain ⟨final, queued, alike⟩ := claimed
      have sizes := congrArg List.length alike.inbox
      rw [direct] at gone
      rw [List.map_cons, List.map_nil] at queued
      rw [queued] at waits
      simp only [Run.interruption, Option.map_some, Option.some.injEq] at gone waits
      omega

end TickMachine
