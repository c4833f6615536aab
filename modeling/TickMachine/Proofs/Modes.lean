import Mathlib.Data.List.Forall2
import TickMachine.Proofs.Abreast

/-!
# Immediate and deferred mode

A machine in deferred mode does the same as one in immediate mode, only later.  Where callers let
time pass after each demand for a transition, and where hooks do not ask for transitions themselves,
the two machines agree again after each tick: in all that they hold, in the hooks that they have
called and in what they have answered.
-/

namespace TickMachine

variable {β D N : Type}

/-- What asks for a transition. -/
inductive Demand where
  /-- A transition is requested. -/
  | switchTo (target : Destination)
  /-- The state that was pushed last shall come back. -/
  | pop
  /-- The current state shall have itself replaced. -/
  | restart
  /-- The shutdown state shall be entered, or the current state shall leave. -/
  | shutdown

/-- The operation by which a transition is asked for. -/
def Demand.operation : Demand → Operation β D
  | switchTo target => .switchTo target
  | pop => .pop
  | restart => .restart
  | shutdown => .shutdown

/-- Whether an operation neither asks for a transition nor posts a request. -/
def Operation.isAside : Operation β D → Bool
  | .switchTo _ | .pop | .restart | .shutdown | .post _ => false
  | _ => true

/-- One or two operations after which a patient machine is abreast of a prompt one. -/
inductive Block (β D : Type) where
  /-- A transition is asked for, and then time passes. -/
  | asked (demand : Demand) (delta : Single) (valid : (delta.isNaN || delta.isNegative) = false)
  /-- Something else is done. -/
  | aside (operation : Operation β D) (isAside : operation.isAside = true)

/-- The operations of a block. -/
def Block.operations : Block β D → List (Operation β D)
  | .asked demand delta _ => [demand.operation, .tick delta]
  | .aside operation _ => [operation]

/-- The answers of a prompt machine and of a patient one.  They differ only where the prompt machine
answers that it has made a transition. -/
inductive Answers : Except Interruption Reply → Except Interruption Reply → Prop where
  | same (answer : Except Interruption Reply) : Answers answer answer
  | later (kind : Kind) (serial : Serial) :
      Answers (.ok (.outcome (.applied kind serial)))
        (.ok (.outcome (.deferred kind serial none)))

/-- How the answer depends on what has become of the transition. -/
def Demand.answer : Demand → Outcome → Reply
  | restart => fun _ => .done
  | _ => .outcome

/-- The answers to a demand that one machine meets at once and the other one defers. -/
theorem Demand.answers (demand : Demand) (kind : Kind) (serial : Serial) :
    Answers (.ok (demand.answer (.applied kind serial)))
      (.ok (demand.answer (.deferred kind serial none))) := by
  cases demand with
  | restart => exact .same _
  | _ => exact .later kind serial

/-! ## One operation -/

variable {conduct : Conduct β D N} {left right : Run β D N}

namespace Abreast

theorem takeTarget (target : Destination) :
    Parallel Abreast (Kernel.takeTarget target : Kernel β D N (Option (Request β)))
      (Kernel.takeTarget target) := by
  intro left right abreast
  rw [Kernel.takeTarget_apply, Kernel.takeTarget_apply]
  cases target with
  | fresh kind => exact .ok _ abreast
  | held slot =>
      dsimp only [Run.take]
      rw [abreast.hands]
      cases left.hands[slot]? with
      | none => exact .ok none abreast
      | some subject =>
          have taken := abreast.mapHands fun hands => hands.erase slot
          rw [abreast.hands] at taken
          exact .ok (some (Request.existing subject)) taken

/-- A demand for a transition, on machines that are abreast: the patient machine defers what the
prompt one does, or both come to the same. -/
theorem demand
    (plain : conduct.IsPlain)
    (abreast : Abreast left right)
    (demand : Demand) :
    Delay conduct demand.answer (Kernel.perform conduct demand.operation left)
      (Kernel.perform conduct demand.operation right) := by
  have made {left right : Run β D N} (abreast : Abreast left right) (call : Call β)
      (delay : Delay conduct demand.answer (call.work conduct left) (call.work conduct right)) :
      Delay conduct demand.answer (call.perform conduct left) (call.perform conduct right) := by
    rw [call.perform_eq, Kernel.bind_apply, Kernel.bind_apply,
      Kernel.serveHandles_apply_empty conduct left abreast.empty,
      Kernel.serveHandles_apply_empty conduct right abreast.right_empty]
    exact delay
  cases demand with
  | switchTo target =>
      refine .bind abreast (takeTarget target) fun wanted left right abreast => ?_
      cases wanted with
      | none => exact .abreast (.ok _ abreast)
      | some wanted =>
          dsimp only
          rw [bind_pure_comp]
          exact made abreast (.switchTo wanted) ((switchOwn plain abreast wanted).map Reply.outcome)
  | pop =>
      rw [Demand.operation, Kernel.perform, bind_pure_comp]
      exact made abreast .pop ((popOwn plain abreast).map Reply.ofOutcome)
  | restart =>
      refine made abreast .restart ?_
      rw [Call.work, bind_pure_comp]
      exact (restartOwn plain abreast).map fun _ => Reply.done
  | shutdown =>
      rw [Demand.operation, Kernel.perform, bind_pure_comp]
      exact made abreast .shutdown ((shutdownOwn plain abreast).map Reply.ofOutcome)

/-- A tick of machines that are abreast keeps them abreast, as nothing is pending in either. -/
theorem tick (plain : conduct.IsPlain) (delta : Single) :
    Parallel Abreast (Kernel.tick conduct delta) (Kernel.tick conduct delta) := by
  intro left right abreast
  cases valid : delta.isNaN || delta.isNegative with
  | true =>
      rw [Kernel.tick, if_pos valid]
      exact .error _ abreast
  | false =>
      rw [Kernel.tick_eq conduct delta valid, Kernel.bind_apply, Kernel.bind_apply,
        Kernel.serveHandles_apply_empty conduct left abreast.empty,
        Kernel.serveHandles_apply_empty conduct right abreast.right_empty]
      exact abreast.tickOwn plain delta

theorem pushed (abreast : Abreast left right) (subject : Instance β) :
    Abreast (left.pushed subject) (right.pushed subject) := by
  obtain ⟨_, -, shared⟩ := abreast.machine
  have stack : right.machine.stack = left.machine.stack := by rw [shared]
  rw [Run.pushed, Run.pushed, stack]
  exact bond.write _ (bond.change _ (fun _ _ _ _ _ => rfl) abreast)

theorem hold (slot : Slot) (subject : Instance β) :
    Parallel Abreast (Kernel.hold slot subject : Kernel β D N Unit) (Kernel.hold slot subject) :=
  fun _ _ abreast => .ok () (abreast.mapHands fun hands => hands.insert slot subject)

/-- Whatever neither asks for a transition nor posts a request keeps machines abreast, with the same
answer of both. -/
theorem aside
    (plain : conduct.IsPlain)
    (operation : Operation β D)
    (isAside : operation.isAside = true) :
    Parallel Abreast (Kernel.perform conduct operation) (Kernel.perform conduct operation) := by
  cases operation with
  | tick delta => exact .bind (tick plain delta) fun _ => .pure _
  | push =>
      refine .bind (fun left right abreast => ?_) fun _ => .pure _
      rw [Kernel.push_apply, Kernel.push_apply, bond.current abreast]
      cases left.machine.current with
      | none => exact .ok false (bond.write _ abreast)
      | some subject => exact .ok true (abreast.pushed subject)
  | pushCurrent =>
      refine .bind (fun left right abreast => ?_) fun _ => .pure _
      rw [Kernel.pushCurrent_apply, Kernel.pushCurrent_apply, bond.current abreast]
      cases left.machine.current with
      | none => exact .error _ abreast
      | some subject => exact .ok subject.serial (abreast.pushed subject)
  | reset =>
      refine .bind (fun _ _ abreast => ?_) fun _ => .pure _
      exact .ok () (bond.change _ (fun _ _ _ _ _ => rfl) abreast)
  | pause paused =>
      refine .bind (bond.machine fun machine _ _ _ _ => .bind (fun _ _ abreast => ?_) fun _ =>
        .pure _) fun _ => .pure _
      exact .ok () (bond.change _ (fun _ _ _ _ _ => rfl) abreast)
  | setData data =>
      refine .bind (fun _ _ abreast => ?_) fun _ => .pure _
      exact .ok () (bond.change _ (fun _ _ _ _ _ => rfl) abreast)
  | tryKind kind => exact .bind (bond.copyPrototype kind) fun _ => .pure _
  | create kind slot =>
      exact .bind (bond.makeOfKind kind) fun subject => .bind (hold slot subject) fun _ => .pure _
  | adopt kind behavior slot =>
      exact .bind (bond.makeState kind behavior) fun subject =>
        .bind (hold slot subject) fun _ => .pure _
  | pauseHeld slot paused =>
      intro left right abreast
      rw [Kernel.perform, Kernel.bind_apply, Kernel.bind_apply, Kernel.get_apply, Kernel.get_apply]
      dsimp only
      rw [abreast.hands]
      split
      · exact .ok _ (abreast.mapHands fun hands => hands.pause slot paused)
      · exact .ok _ abreast
  | _ => cases isAside

end Abreast

/-- The tick in which a patient machine catches up: it makes the pending transition first, and then
both machines tick the state that is current in both. -/
theorem Behind.tick
    {transition : Transition β}
    (plain : conduct.IsPlain)
    (behind : Behind conduct transition left right)
    (delta : Single)
    (valid : (delta.isNaN || delta.isNegative) = false) :
    Ends Abreast (Kernel.perform conduct (.tick delta) left)
      (Kernel.perform conduct (.tick delta) right) := by
  obtain ⟨_, caught, -⟩ := behind.catches .epoch
  have ticked (run : Run β D N) (empty : run.machine.inbox = []) :
      Kernel.tick conduct delta run = Kernel.tickOwn conduct delta run := by
    rw [Kernel.tick_eq conduct delta valid, Kernel.bind_apply,
      Kernel.serveHandles_apply_empty conduct run empty]
  have ends := behind.tickOwn plain delta
  rw [Kernel.perform, Kernel.bind_apply, Kernel.bind_apply, ticked left caught.empty,
    ticked right behind.empty]
  generalize Kernel.tickOwn conduct delta left = ended,
    Kernel.tickOwn conduct delta right = other at ends ⊢
  cases ends with
  | ok value together => exact .ok _ together
  | error cause together => exact .error cause together

/-! ## Blocks -/

namespace Run

/-- Operations whose programs come to the same leave machines abreast, whatever the clocks say. -/
theorem perform_of_ends
    {operation : Operation β D}
    (now later : Instant)
    (ends : Ends Abreast (Kernel.perform conduct operation { left with now := now })
      (Kernel.perform conduct operation { right with now := later })) :
    Answers (left.perform conduct now operation).1 (right.perform conduct later operation).1 ∧
      Abreast (left.perform conduct now operation).2 (right.perform conduct later operation).2 := by
  unfold perform
  generalize Kernel.perform conduct operation { left with now := now } = ended,
    Kernel.perform conduct operation { right with now := later } = other at ends ⊢
  cases ends with
  | ok value together => exact ⟨.same _, together⟩
  | error cause together => exact ⟨.same _, together⟩

/-- An operation after which a patient machine is abreast of a prompt one or has fallen behind
it. -/
theorem perform_of_delay
    {operation : Operation β D}
    {answer : Outcome → Reply}
    (answers : ∀ kind serial, Answers (.ok (answer (.applied kind serial)))
      (.ok (answer (.deferred kind serial none))))
    (now later : Instant)
    (delay : Delay conduct answer (Kernel.perform conduct operation { left with now := now })
      (Kernel.perform conduct operation { right with now := later }))
    (unbroken : Unbroken (left.perform conduct now operation).1) :
    Answers (left.perform conduct now operation).1 (right.perform conduct later operation).1 ∧
      (Abreast (left.perform conduct now operation).2 (right.perform conduct later operation).2 ∨
        ∃ transition, Behind conduct transition (left.perform conduct now operation).2
          (right.perform conduct later operation).2) := by
  unfold perform at unbroken ⊢
  generalize Kernel.perform conduct operation { left with now := now } = ended,
    Kernel.perform conduct operation { right with now := later } = other at delay unbroken ⊢
  cases delay with
  | broken message run other => exact unbroken.elim
  | abreast ends =>
      cases ends with
      | ok value together => exact ⟨.same _, .inl together⟩
      | error cause together => exact ⟨.same _, .inl together⟩
  | behind transition behind =>
      exact ⟨answers transition.kind transition.serial, .inr ⟨transition, behind⟩⟩

/-- Operations can be done in two parts. -/
theorem performAll_append
    (run : Run β D N)
    (first second : List (Instant × Operation β D)) :
    run.performAll conduct (first ++ second) =
      ((run.performAll conduct first).1 ++
        ((run.performAll conduct first).2.performAll conduct second).1,
        ((run.performAll conduct first).2.performAll conduct second).2) := by
  induction first generalizing run with
  | nil => rfl
  | cons step more inductionHypothesis =>
      simp only [List.cons_append, performAll, inductionHypothesis]

end Run

/-- After a block that is not broken off, a patient machine is abreast of a prompt one. -/
theorem Abreast.block
    (plain : conduct.IsPlain)
    (abreast : Abreast left right)
    (block : Block β D)
    {early late : List (Instant × Operation β D)}
    (doneEarly : early.map Prod.snd = block.operations)
    (doneLate : late.map Prod.snd = block.operations)
    (unbroken : ∀ answer ∈ (left.performAll conduct early).1, Unbroken answer) :
    List.Forall₂ Answers (left.performAll conduct early).1 (right.performAll conduct late).1 ∧
      Abreast (left.performAll conduct early).2 (right.performAll conduct late).2 := by
  cases block with
  | aside operation isAside =>
      obtain ⟨⟨now, _⟩, rfl, rfl⟩ := List.map_eq_singleton_iff.mp doneEarly
      obtain ⟨⟨later, _⟩, rfl, same⟩ := List.map_eq_singleton_iff.mp doneLate
      cases same
      obtain ⟨answers, after⟩ := Run.perform_of_ends now later
        (Abreast.aside plain _ isAside (abreast.clock now later))
      exact ⟨.cons answers .nil, after⟩
  | asked demand delta valid =>
      obtain ⟨⟨now, _⟩, _, rfl, rfl, ticksEarly⟩ := List.map_eq_cons_iff.mp doneEarly
      obtain ⟨⟨later, _⟩, _, rfl, same, ticksLate⟩ := List.map_eq_cons_iff.mp doneLate
      cases same
      obtain ⟨⟨soon, _⟩, rfl, rfl⟩ := List.map_eq_singleton_iff.mp ticksEarly
      obtain ⟨⟨last, _⟩, rfl, same⟩ := List.map_eq_singleton_iff.mp ticksLate
      cases same
      obtain ⟨asked, waits⟩ := Run.perform_of_delay demand.answers now later
        ((abreast.clock now later).demand plain demand) (unbroken _ List.mem_cons_self)
      -- A tick keeps machines abreast, and it lets a patient one catch up.
      have ticks : Ends Abreast
          (Kernel.perform conduct (.tick delta)
            { (left.perform conduct now demand.operation).2 with now := soon })
          (Kernel.perform conduct (.tick delta)
            { (right.perform conduct later demand.operation).2 with now := last }) := by
        rcases waits with together | ⟨transition, behind⟩
        · exact Abreast.aside plain (.tick delta) rfl (together.clock soon last)
        · exact (behind.clock soon last).tick plain delta valid
      obtain ⟨ticked, after⟩ := Run.perform_of_ends soon last ticks
      exact ⟨.cons asked (.cons ticked .nil), after⟩

/-- After any number of blocks, none of them broken off, the machines are abreast again. -/
theorem Abreast.blocks
    (plain : conduct.IsPlain)
    (abreast : Abreast left right)
    (blocks : List (Block β D))
    {early late : List (Instant × Operation β D)}
    (doneEarly : early.map Prod.snd = blocks.flatMap Block.operations)
    (doneLate : late.map Prod.snd = blocks.flatMap Block.operations)
    (unbroken : ∀ answer ∈ (left.performAll conduct early).1, Unbroken answer) :
    List.Forall₂ Answers (left.performAll conduct early).1 (right.performAll conduct late).1 ∧
      Abreast (left.performAll conduct early).2 (right.performAll conduct late).2 := by
  induction blocks generalizing left right early late with
  | nil =>
      cases List.map_eq_nil_iff.mp doneEarly
      cases List.map_eq_nil_iff.mp doneLate
      exact ⟨.nil, abreast⟩
  | cons block more inductionHypothesis =>
      rw [List.flatMap_cons] at doneEarly doneLate
      obtain ⟨early, restEarly, rfl, doneEarly, moreEarly⟩ := List.map_eq_append_iff.mp doneEarly
      obtain ⟨late, restLate, rfl, doneLate, moreLate⟩ := List.map_eq_append_iff.mp doneLate
      rw [Run.performAll_append] at unbroken ⊢
      rw [Run.performAll_append]
      obtain ⟨first, second⟩ := List.forall_mem_append.mp unbroken
      obtain ⟨answers, together⟩ := abreast.block plain block doneEarly doneLate first
      obtain ⟨others, after⟩ := inductionHypothesis together moreEarly moreLate second
      exact ⟨List.rel_append answers others, after⟩

/-- An entry that says that a transition became the pending one is no call of a hook. -/
theorem Entry.not_isCall_of_isDeferral
    (entry : Entry β N)
    (deferral : entry.isDeferral = true) :
    ¬ entry.IsCall := by
  cases entry with
  | called hook kind serial => nomatch deferral
  | _ => exact not_false

/-- The same hooks were called in the same order. -/
theorem Abreast.calls (abreast : Abreast left right) : right.calls = left.calls := by
  have known (run : Run β D N) : run.calls = (undeferred run.journal).filterMap Entry.call? :=
    run.calls_eq_filter Entry.isDeferral Entry.not_isCall_of_isDeferral
  rw [known, known, abreast.journal]

/-- Machines that have just been made are abreast. -/
theorem Abreast.of_make
    {id : MachineId}
    {config : Config}
    {registry : Registry β}
    {data : D}
    {prompt patient : Machine β D}
    (madePrompt : Machine.make id { config with immediate := true } registry data = .ok prompt)
    (madePatient : Machine.make id { config with immediate := false } registry data = .ok patient)
    (hands : Hands β)
    (start later : Instant) :
    Abreast (⟨prompt, hands, #[], start⟩ : Run β D N) ⟨patient, hands, #[], later⟩ := by
  have chained := Machine.chained_of_make madePrompt
  rw [Machine.eq_idle_of_make madePrompt, Machine.eq_idle_of_make madePatient]
  exact ⟨⟨_, ⟨rfl, rfl⟩, rfl⟩, rfl, rfl, rfl, chained, rfl, rfl⟩

/-- Where time passes after each demand for a transition, and where hooks ask for no transitions, a
machine in deferred mode comes to the same as one in immediate mode: it holds the same, it has gone
through the same transitions and called the same hooks in the same order, it has answered the same
except that it deferred the transitions that the other one made, and nothing is pending. -/
theorem modes_agree
    {id : MachineId}
    {config : Config}
    {registry : Registry β}
    {data : D}
    {prompt patient : Machine β D}
    {conduct : Conduct β D N}
    (plain : conduct.IsPlain)
    (madePrompt : Machine.make id { config with immediate := true } registry data = .ok prompt)
    (madePatient : Machine.make id { config with immediate := false } registry data = .ok patient)
    {hands : Hands β}
    {start later : Instant}
    {blocks : List (Block β D)}
    {early late : List (Instant × Operation β D)}
    {answers lateAnswers : List (Except Interruption Reply)}
    {left right : Run β D N}
    (doneEarly : early.map Prod.snd = blocks.flatMap Block.operations)
    (doneLate : late.map Prod.snd = blocks.flatMap Block.operations)
    (promptly : Run.performAll conduct ⟨prompt, hands, #[], start⟩ early = (answers, left))
    (patiently : Run.performAll conduct ⟨patient, hands, #[], later⟩ late = (lateAnswers, right))
    (unbroken : ∀ answer ∈ answers, Unbroken answer) :
    right.machine = { left.machine with
      config := { left.machine.config with immediate := false }
      history := right.machine.history } ∧
    right.machine.history.records.map Passage.course =
      left.machine.history.records.map Passage.course ∧
    right.machine.pending = none ∧
    right.hands = left.hands ∧
    right.calls = left.calls ∧
    List.Forall₂ Answers answers lateAnswers := by
  have abreast : Abreast (⟨prompt, hands, #[], start⟩ : Run β D N) ⟨patient, hands, #[], later⟩ :=
    .of_make madePrompt madePatient hands start later
  obtain ⟨answered, after⟩ := abreast.blocks plain blocks doneEarly doneLate (by rwa [promptly])
  rw [promptly, patiently] at answered after
  obtain ⟨history, like, shared⟩ := after.machine
  refine ⟨?_, ?_, after.right_free, after.hands, after.calls, answered⟩
  · rw [shared]
  · rw [shared]
    exact like.2

/-! ## A counter -/

/-- States that count the hooks that are called, and do nothing else. -/
def counting : Conduct Unit Nat Unit where
  react
    | .restart, behavior, view => .replace behavior view
    | _, behavior, view => { Reaction.idle behavior view with data := view.data + 1 }
  reset _ := 0

/-- A counter asks for nothing but its own replacement. -/
theorem counting_isPlain : counting.IsPlain where
  quiet hook _ _ other := by
    cases hook with
    | restart => exact absurd rfl other
    | _ => rfl
  restart _ _ := rfl

/-- A machine whose states count. -/
def counter (immediate : Bool) : Machine Unit Nat :=
  .idle ⟨1⟩ { immediate := immediate }
    ⟨(∅ : Std.TreeMap Kind (Registration Unit)) |>.insert ⟨1⟩ ⟨"Counter", some ()⟩⟩ 0

/-- A state is entered and pushed, it restarts, and it comes back, though an unknown kind was asked
for in between. -/
def detour : List (Block Unit Nat) :=
  [.asked (.switchTo (.fresh ⟨1⟩)) ⟨0⟩ rfl, .aside .push rfl, .asked .restart ⟨0⟩ rfl,
    .asked (.switchTo (.fresh ⟨2⟩)) ⟨0⟩ rfl, .asked .pop ⟨0⟩ rfl]

/-- The run of a counter after the detour. -/
def counterAfter (immediate : Bool) :
    List (Except Interruption Reply) × Run Unit Nat Unit :=
  Run.performAll counting ⟨counter immediate, ∅, #[], .epoch⟩
    ((detour.flatMap Block.operations).map fun operation => (.epoch, operation))

/-- A patient counter has called the hooks that a prompt one calls. -/
theorem modes_agree_counter :
    (counterAfter false).2.calls =
        [(.enter, ⟨1⟩, ⟨1⟩), (.tick ⟨0⟩, ⟨1⟩, ⟨1⟩), (.restart, ⟨1⟩, ⟨1⟩), (.exit, ⟨1⟩, ⟨1⟩),
          (.enter, ⟨1⟩, ⟨2⟩), (.tick ⟨0⟩, ⟨1⟩, ⟨2⟩), (.tick ⟨0⟩, ⟨1⟩, ⟨2⟩), (.exit, ⟨1⟩, ⟨2⟩),
          (.enter, ⟨1⟩, ⟨1⟩), (.tick ⟨0⟩, ⟨1⟩, ⟨1⟩)] ∧
      List.Forall₂ Answers (counterAfter true).1 (counterAfter false).1 := by
  have done : ((detour.flatMap Block.operations).map fun operation =>
      (Instant.epoch, operation)).map Prod.snd = detour.flatMap Block.operations := by
    rw [List.map_map]
    exact List.map_id _
  have prompt : Machine.make ⟨1⟩ { ({} : Config) with immediate := true }
      (counter true).registry 0 = .ok (counter true) := rfl
  have patient : Machine.make ⟨1⟩ { ({} : Config) with immediate := false }
      (counter true).registry 0 = .ok (counter false) := rfl
  have unbroken : ∀ answer ∈ (counterAfter true).1, Unbroken answer := by
    decide +kernel
  obtain ⟨-, -, -, -, calls, answers⟩ := modes_agree counting_isPlain prompt patient done done
    (Prod.eta (counterAfter true)).symm (Prod.eta (counterAfter false)).symm unbroken
  have promptly : (counterAfter true).2.calls =
      [(.enter, ⟨1⟩, ⟨1⟩), (.tick ⟨0⟩, ⟨1⟩, ⟨1⟩), (.restart, ⟨1⟩, ⟨1⟩), (.exit, ⟨1⟩, ⟨1⟩),
        (.enter, ⟨1⟩, ⟨2⟩), (.tick ⟨0⟩, ⟨1⟩, ⟨2⟩), (.tick ⟨0⟩, ⟨1⟩, ⟨2⟩), (.exit, ⟨1⟩, ⟨2⟩),
        (.enter, ⟨1⟩, ⟨1⟩), (.tick ⟨0⟩, ⟨1⟩, ⟨1⟩)] := by
    decide +kernel
  exact ⟨calls.trans promptly, answers⟩

end TickMachine
