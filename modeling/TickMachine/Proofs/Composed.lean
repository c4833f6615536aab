import TickMachine.Proofs.Calls

/-!
# What operations are composed of

An operation looks at the machine and changes it, calls hooks, takes up requests, writes into the
journal and the history, and moves states in and out of the caller's hands.  Two things hardly
matter to what it does: the limits in the configuration, and the history.  Only the serving of what
hooks ask for looks at a limit, and only the adding of records looks at the history.  A property of
programs holds of every operation if it holds of these parts and survives their composition.
-/

namespace TickMachine

variable {β D N α γ : Type}

namespace Machine

/-- The machine with other limits and another history. -/
def withLimits
    (machine : Machine β D)
    (chainLimit historyLimit : UInt64)
    (history : History) : Machine β D :=
  { machine with
    config := { machine.config with chainLimit := chainLimit, historyLimit := historyLimit }
    history := history }

/-- A change that has nothing to do with the number, the configuration and the history of a
machine. -/
def IsInner (change : Machine β D → Machine β D) : Prop :=
  ∀ machine id config history,
    change { machine with id := id, config := config, history := history } =
      { change machine with id := id, config := config, history := history }

theorem IsInner.frame
    {change : Machine β D → Machine β D}
    (inner : IsInner change)
    (machine : Machine β D) :
    (change machine).id = machine.id ∧ (change machine).config = machine.config ∧
      (change machine).history = machine.history := by
  have same := inner machine machine.id machine.config machine.history
  exact ⟨(congrArg Machine.id same :), (congrArg config same :), (congrArg history same :)⟩

/-- Configuration and history can be exchanged before or after the change. -/
theorem IsInner.exchange
    {change : Machine β D → Machine β D}
    (inner : IsInner change)
    (machine : Machine β D)
    (config : Config)
    (history : History) :
    change { machine with config := config, history := history } =
      { change machine with config := config, history := history } := by
  obtain ⟨id, -, -⟩ := inner.frame machine
  refine (inner machine machine.id config history).trans ?_
  rw [← id]

end Machine

/-- The request for a destination, and what callers hold without the state in it. -/
def Hands.take (hands : Hands β) : Destination → Option (Request β) × Hands β
  | .fresh kind => (some (.fresh kind), hands)
  | .held slot =>
      match hands[slot]? with
      | none => (none, hands)
      | some subject => (some (.existing subject), hands.erase slot)

theorem Run.take_eq (run : Run β D N) (target : Destination) :
    run.take target =
      ((run.hands.take target).1, { run with hands := (run.hands.take target).2 }) := by
  cases target with
  | fresh kind => rfl
  | held slot =>
      unfold take Hands.take
      dsimp only
      cases run.hands[slot]? <;> rfl

namespace Kernel

/-- Takes the first request out of the inbox, in which these requests wait. -/
def takeFirst : List (Request β) → Kernel β D N (Option (Request β))
  | [] => pure none
  | first :: more => do
      changeMachine fun machine => { machine with inbox := more }
      pure (some first)

theorem nextRequest_eq :
    (nextRequest : Kernel β D N (Option (Request β))) = (do takeFirst (← machine).inbox) := by
  funext run
  rw [nextRequest_apply, bind_apply, machine_apply]
  dsimp only
  cases run.machine.inbox <;> rfl

/-- The programs that are composed of the parts of operations. -/
inductive Composed (conduct : Conduct β D N) : {α : Type} → Kernel β D N α → Prop where
  /-- Ends with a value. -/
  | pure {α : Type} (value : α) : Composed conduct (pure value)
  /-- Refuses for a cause that has nothing to do with the limits. -/
  | refuse {α : Type} (refusal : Refusal)
      (unlimited : ∀ limit, refusal ≠ .chainTooLong limit) :
      Composed conduct (refuse refusal : Kernel β D N α)
  /-- Does one thing after the other. -/
  | bind {α γ : Type} {program : Kernel β D N α} {next : α → Kernel β D N γ}
      (first : Composed conduct program) (rest : ∀ value, Composed conduct (next value)) :
      Composed conduct (program >>= next)
  /-- Looks at the machine, without regard to the limits and the history. -/
  | look {α : Type} {next : Machine β D → Kernel β D N α}
      (blind : ∀ machine chainLimit historyLimit history,
        next (machine.withLimits chainLimit historyLimit history) = next machine)
      (rest : ∀ machine, Composed conduct (next machine)) :
      Composed conduct (machine >>= next)
  /-- Changes the machine. -/
  | change (change : Machine β D → Machine β D) (inner : Machine.IsInner change) :
      Composed conduct (changeMachine change)
  /-- Writes into the journal. -/
  | write (entry : Entry β N) (other : ∀ origin label, entry ≠ .taken origin label) :
      Composed conduct (write entry)
  /-- Adds a transition to the history. -/
  | record (source target : Option Kind) (subject : Option Serial) :
      Composed conduct (addToHistory source target subject)
  /-- Calls a hook of a state. -/
  | react (hook : Hook) (subject : Instance β) :
      Composed conduct (modifyGet fun run => run.react conduct hook subject)
  /-- Is interrupted if a hook broke off. -/
  | breakOff (breakdown : Option String) : Composed conduct (breakOff breakdown)
  /-- Moves states in and out of the caller's hands. -/
  | handle {α : Type} (move : Hands β → α × Hands β) :
      Composed conduct (modifyGet fun run =>
        ((move run.hands).1, { run with hands := (move run.hands).2 }))
  /-- Takes up a request. -/
  | takeUp (origin : Origin) (request : Request β)
      (resolved : Composed conduct (resolve request)) :
      Composed conduct (takeUp origin request)
  /-- Mends the inbox if the program is refused. -/
  | orMend {α : Type} {program : Kernel β D N α} (mended : Composed conduct program)
      (mend : List (Request β) → List (Request β)) :
      Composed conduct (orMend program fun machine => { machine with inbox := mend machine.inbox })
  /-- Serves what hooks ask for. -/
  | serveHooks (found : Composed conduct nextRequest)
      (served : ∀ asked, Composed conduct (serveAsked conduct asked)) :
      Composed conduct (serveHooks conduct)

namespace Composed

variable {conduct : Conduct β D N}

theorem map
    {program : Kernel β D N α}
    (composed : Composed conduct program)
    (change : α → γ) :
    Composed conduct (change <$> program) := by
  rw [map_eq_pure_bind]
  exact .bind composed fun value => .pure (change value)

theorem log (event : LogEvent) : Composed conduct (Kernel.log event : Kernel β D N Unit) :=
  .write (.logged event) nofun

/-! ## Hooks and transitions -/

theorem callCurrent (hook : Hook) : Composed conduct (Kernel.callCurrent conduct hook) := by
  refine .look (fun _ _ _ _ => rfl) fun machine => ?_
  cases machine.current with
  | none => exact .pure ()
  | some subject =>
      exact .bind (.react hook subject) fun _ =>
        .bind (.change _ fun _ _ _ _ => rfl) fun _ => .breakOff _

theorem exitCurrent : Composed conduct (Kernel.exitCurrent conduct) := by
  refine .look (fun _ _ _ _ => rfl) fun machine => ?_
  cases machine.current with
  | none => exact .pure none
  | some subject =>
      refine .bind (.change _ fun _ _ _ _ => rfl) fun _ => .bind ?_ fun _ => .pure _
      exact .bind (.react .exit subject) fun _ => .bind (.breakOff _) fun _ => .pure _

theorem parkOrDrop (subject : Instance β) :
    Composed conduct (Kernel.parkOrDrop subject : Kernel β D N Unit) := by
  refine .look (fun _ _ _ _ => rfl) fun machine => ?_
  split
  · exact .bind (log _) fun _ => .change _ fun _ _ _ _ => rfl
  · exact log _

theorem letGo (transition : Transition β) :
    Composed conduct (Kernel.letGo transition : Kernel β D N Unit) := by
  cases transition with
  | replace next => exact parkOrDrop next
  | reenter kind serial => exact .pure ()

theorem release (previous : Option (Instance β)) :
    Composed conduct (Kernel.release previous : Kernel β D N Unit) := by
  cases previous with
  | none => exact .pure ()
  | some previous => exact parkOrDrop previous

theorem carryOut (transition : Transition β) :
    Composed conduct (Kernel.carryOut conduct transition) := by
  cases transition with
  | replace next =>
      rw [Kernel.carryOut, replaceCurrent_eq]
      refine .look (fun _ _ _ _ => rfl) fun machine => ?_
      exact .bind exitCurrent fun previous => .bind (release previous) fun _ =>
        .bind (.record _ _ _) fun _ =>
          .bind (.bind (.change _ fun _ _ _ _ => rfl) fun _ => callCurrent .enter) fun _ => log _
  | reenter kind serial =>
      refine .look (fun _ _ _ _ => rfl) fun machine => ?_
      split
      · exact .bind (callCurrent .exit) fun _ => .bind (callCurrent .enter) fun _ =>
          .bind (.record _ _ _) fun _ => log _
      · exact log _

theorem supersede (previous : Option (Transition β)) (next : Serial) :
    Composed conduct (Kernel.supersede previous next : Kernel β D N (Option Serial)) := by
  cases previous with
  | none => exact .pure none
  | some transition =>
      refine .bind (letGo transition) fun _ => ?_
      split
      · exact .pure none
      · exact .bind (log _) fun _ => .pure _

/-- A transition is submitted by composed programs, whichever mode the machine is in. -/
theorem submit (transition : Transition β) :
    Composed conduct (Kernel.submit conduct transition) := by
  refine .look (fun _ _ _ _ => rfl) fun machine => ?_
  split
  · exact .bind (carryOut transition) fun _ => .pure _
  · exact .look (fun _ _ _ _ => rfl) fun machine => .bind (.change _ fun _ _ _ _ => rfl) fun _ =>
      .bind (supersede machine.pending _) fun _ => .bind (log _) fun _ => .pure _

/-! ## Requests -/

theorem copyPrototype (kind : Kind) :
    Composed conduct (Kernel.copyPrototype kind : Kernel β D N β) := by
  refine .look (fun _ _ _ _ => rfl) fun machine => ?_
  cases known : machine.registry.prototype kind with
  | error refusal =>
      obtain ⟨reason, rfl⟩ := prototype_refused _ _ _ known
      exact .refuse _ nofun
  | ok behavior => exact .bind (.write _ nofun) fun _ => .pure behavior

theorem makeState (kind : Kind) (behavior : β) :
    Composed conduct (Kernel.makeState kind behavior : Kernel β D N (Instance β)) :=
  .look (fun _ _ _ _ => rfl) fun _ => .bind (.change _ fun _ _ _ _ => rfl) fun _ =>
    .bind (log _) fun _ => .pure _

theorem makeOfKind (kind : Kind) :
    Composed conduct (Kernel.makeOfKind kind : Kernel β D N (Instance β)) :=
  .bind (copyPrototype kind) fun behavior => makeState kind behavior

theorem takesUp (origin : Origin) (request : Request β) :
    Composed conduct (Kernel.takeUp origin request : Kernel β D N (Transition β)) := by
  refine .takeUp origin request ?_
  cases request with
  | fresh kind => exact .bind (makeOfKind kind) fun _ => .pure _
  | existing subject =>
      refine .look (fun _ _ _ _ => rfl) fun machine => ?_
      split
      · exact .pure _
      · exact .refuse _ nofun

/-- A request of a hook is served in two parts, taking up and submitting. -/
theorem serveAsked (asked : Request β) : Composed conduct (Kernel.serveAsked conduct asked) :=
  .bind (.orMend (takesUp .hook asked) fun _ => []) fun transition =>
    .bind (submit transition) fun _ => .pure ()

theorem nextRequest :
    Composed conduct (Kernel.nextRequest : Kernel β D N (Option (Request β))) := by
  rw [nextRequest_eq]
  refine .look (fun _ _ _ _ => rfl) fun machine => ?_
  cases machine.inbox with
  | nil => exact .pure none
  | cons first more => exact .bind (.change _ fun _ _ _ _ => rfl) fun _ => .pure (some first)

/-- The chain of requests of hooks is a part of its own, as its length depends on the chain
limit. -/
theorem servesHooks : Composed conduct (Kernel.serveHooks conduct) :=
  .serveHooks nextRequest serveAsked

theorem servePosted (posted : Request β) : Composed conduct (Kernel.servePosted conduct posted) :=
  .bind (takesUp .handle posted) fun transition => .bind (submit transition) fun _ => servesHooks

theorem serveInOrder (queued : List (Request β)) :
    Composed conduct (Kernel.serveInOrder conduct queued) := by
  induction queued with
  | nil => exact .pure ()
  | cons posted more inductionHypothesis =>
      exact .bind (.orMend (servePosted posted) fun inbox => more ++ inbox) fun _ =>
        inductionHypothesis

/-- Posted requests are served one by one, each with its own chain. -/
theorem serveHandles : Composed conduct (Kernel.serveHandles conduct) :=
  .look (fun _ _ _ _ => rfl) fun machine => .bind (.change _ fun _ _ _ _ => rfl) fun _ =>
    serveInOrder machine.inbox

/-! ## Calls -/

theorem switchOwn (wanted : Request β) : Composed conduct (Kernel.switchOwn conduct wanted) :=
  .bind (takesUp .caller wanted) fun transition => .bind (submit transition) fun _ =>
    .bind servesHooks fun _ => .pure _

theorem takePending :
    Composed conduct (Kernel.takePending : Kernel β D N (Option (Transition β))) := by
  have same : (Kernel.takePending : Kernel β D N (Option (Transition β))) = (do
      let machine ← machine
      changeMachine fun machine => { machine with pending := none }
      Pure.pure machine.pending) := rfl
  rw [same]
  exact .look (fun _ _ _ _ => rfl) fun _ => .bind (.change _ fun _ _ _ _ => rfl) fun _ => .pure _

theorem carryOutPending : Composed conduct (Kernel.carryOutPending conduct) := by
  refine .bind takePending fun pending => ?_
  cases pending with
  | none => exact .pure ()
  | some transition => exact .bind (carryOut transition) fun _ => servesHooks

theorem tickCurrent (delta : Single) : Composed conduct (Kernel.tickCurrent conduct delta) := by
  refine .look (fun _ _ _ _ => rfl) fun machine => ?_
  cases machine.current with
  | none => exact .pure ()
  | some subject =>
      dsimp only
      split
      · exact log _
      · exact callCurrent (.tick delta)

theorem tickOwn (delta : Single) : Composed conduct (Kernel.tickOwn conduct delta) :=
  .bind carryOutPending fun _ => .bind (tickCurrent delta) fun _ => servesHooks

/-- A state that is found again leaves its place, and the rest of the machine stays as it is. -/
theorem retrieve
    (serial : Serial)
    {next : Transition β → Kernel β D N α}
    (rest : ∀ transition, Composed conduct (next transition)) :
    Composed conduct (do
      match (← Kernel.machine).retrieve serial with
      | none => Kernel.refuse (.lost serial)
      | some (transition, rest) =>
          changeMachine fun _ => rest
          next transition) := by
  have same : (do
      match (← Kernel.machine).retrieve serial with
      | none => Kernel.refuse (.lost serial)
      | some (transition, rest) =>
          changeMachine fun _ => rest
          next transition : Kernel β D N α) = (do
      match (← Kernel.machine).retrieve serial with
      | none => Kernel.refuse (.lost serial)
      | some (transition, rest) =>
          changeMachine fun machine =>
            { machine with parked := rest.parked, pending := rest.pending }
          next transition) := by
    funext run
    rw [bind_apply, bind_apply, machine_apply]
    dsimp only
    cases retrieved : run.machine.retrieve serial with
    | none => rfl
    | some found =>
        obtain ⟨transition, rest⟩ := found
        obtain ⟨parked, pending, rfl⟩ := Machine.retrieve_frame retrieved
        rfl
  rw [same]
  refine .look (fun machine chainLimit historyLimit history => ?_) fun machine => ?_
  · rw [Machine.withLimits, machine.retrieve_alike]
    cases machine.retrieve serial <;> rfl
  · cases machine.retrieve serial with
    | none => exact .refuse _ nofun
    | some found => exact .bind (.change _ fun _ _ _ _ => rfl) fun _ => rest found.1

theorem popOwn : Composed conduct (Kernel.popOwn conduct) := by
  refine .look (fun _ _ _ _ => rfl) fun machine => ?_
  cases machine.stack with
  | nil => exact .bind (log _) fun _ => .pure _
  | cons serial below =>
      refine .bind (.change _ fun _ _ _ _ => rfl) fun _ => retrieve serial fun transition => ?_
      exact .bind (log _) fun _ => .bind (submit transition) fun _ => .bind servesHooks fun _ =>
        .pure _

theorem restartOwn : Composed conduct (Kernel.restartOwn conduct) := by
  refine .look (fun _ _ _ _ => rfl) fun machine => ?_
  cases machine.current with
  | none => exact log _
  | some subject => exact .bind (callCurrent .restart) fun _ => servesHooks

theorem dropPending : Composed conduct (Kernel.dropPending : Kernel β D N Unit) := by
  refine .bind takePending fun pending => ?_
  cases pending with
  | none => exact .pure ()
  | some transition => exact .bind (log _) fun _ => letGo transition

theorem exitForGood : Composed conduct (Kernel.exitForGood conduct) := by
  refine .bind exitCurrent fun found => ?_
  cases found with
  | none => exact .pure ()
  | some previous =>
      exact .bind (.record _ _ _) fun _ => .bind (log _) fun _ => parkOrDrop previous

theorem shutdownOwn : Composed conduct (Kernel.shutdownOwn conduct) := by
  refine .look (fun _ _ _ _ => rfl) fun machine => ?_
  cases machine.config.shutdown with
  | some kind =>
      exact .bind (log _) fun _ =>
        .bind (.bind serveHandles fun _ => switchOwn (.fresh kind)) fun _ => .pure _
  | none =>
      exact .bind dropPending fun _ => .bind exitForGood fun _ => .bind servesHooks fun _ => .pure _

/-- The own work of every call is composed. -/
theorem work (call : Call β) : Composed conduct (call.work conduct) := by
  cases call with
  | switchTo wanted => exact (switchOwn wanted).map _
  | tick delta valid => exact .bind (tickOwn delta) fun _ => .pure _
  | pop => exact popOwn.map _
  | restart => exact .bind restartOwn fun _ => .pure _
  | shutdown => exact shutdownOwn.map _

/-! ## Operations -/

theorem switchTo (wanted : Request β) : Composed conduct (Kernel.switchTo conduct wanted) :=
  .bind serveHandles fun _ => switchOwn wanted

theorem tick (delta : Single) : Composed conduct (Kernel.tick conduct delta) := by
  cases valid : delta.isNaN || delta.isNegative with
  | false =>
      rw [tick_eq conduct delta valid]
      exact .bind serveHandles fun _ => tickOwn delta
  | true =>
      rw [Kernel.tick, if_pos valid]
      refine .refuse (.badDelta delta) ?_
      simp

theorem pushCurrent : Composed conduct (Kernel.pushCurrent : Kernel β D N Serial) := by
  refine .look (fun _ _ _ _ => rfl) fun machine => ?_
  cases machine.current with
  | none => exact .refuse _ nofun
  | some subject =>
      exact .bind (.change _ fun _ _ _ _ => rfl) fun _ => .look (fun _ _ _ _ => rfl) fun _ =>
        .bind (log _) fun _ => .pure _

theorem push : Composed conduct (Kernel.push : Kernel β D N Bool) := by
  refine .look (fun _ _ _ _ => rfl) fun machine => ?_
  cases machine.current with
  | none => exact .bind (log _) fun _ => .pure _
  | some subject => exact .bind pushCurrent fun _ => .pure _

/-- To take a request out of the caller's hands is a matter of the hands. -/
theorem takeTarget (target : Destination) :
    Composed conduct (Kernel.takeTarget target : Kernel β D N (Option (Request β))) := by
  have moves : (fun run : Run β D N => run.take target) = fun run =>
      ((run.hands.take target).1, { run with hands := (run.hands.take target).2 }) :=
    funext fun run => run.take_eq target
  rw [Kernel.takeTarget, moves]
  exact .handle fun hands => hands.take target

theorem post (posted : Request β) : Composed conduct (Kernel.post posted : Kernel β D N Unit) :=
  .bind (.write (.posted posted.label) nofun) fun _ =>
    .change (fun machine => { machine with inbox := machine.inbox ++ [posted] }) fun _ _ _ _ => rfl

theorem hold (slot : Slot) (subject : Instance β) :
    Composed conduct (Kernel.hold slot subject : Kernel β D N Unit) :=
  .handle fun hands => ((), hands.insert slot subject)

/-- To look for a state and to pause it is a matter of the hands. -/
theorem pauseHeld (slot : Slot) (paused : Bool) :
    Composed conduct (Kernel.perform conduct (.pauseHeld slot paused : Operation β D)) := by
  have same : Kernel.perform conduct (.pauseHeld slot paused : Operation β D) = (do
      let held ← modifyGet fun run => (run.hands.contains slot, { run with hands := run.hands })
      if held = true then
        let _ ← modifyGet fun run => ((), { run with hands := run.hands.pause slot paused })
        Pure.pure (Reply.holding slot)
      else Pure.pure Reply.emptySlot) := rfl
  rw [same]
  refine .bind (.handle fun hands => (hands.contains slot, hands)) fun held => ?_
  split
  · exact .bind (.handle fun hands => ((), hands.pause slot paused)) fun _ => .pure _
  · exact .pure _

/-- Every operation is composed of these parts. -/
theorem perform (operation : Operation β D) :
    Composed conduct (Kernel.perform conduct operation) := by
  cases operation with
  | switchTo target =>
      refine .bind (takeTarget target) fun taken => ?_
      cases taken with
      | none => exact .pure _
      | some wanted => exact .bind (switchTo wanted) fun _ => .pure _
  | tick delta => exact .bind (tick delta) fun _ => .pure _
  | push => exact .bind push fun _ => .pure _
  | pushCurrent => exact .bind pushCurrent fun _ => .pure _
  | pop => exact .bind (.bind serveHandles fun _ => popOwn) fun _ => .pure _
  | restart => exact .bind (.bind serveHandles fun _ => restartOwn) fun _ => .pure _
  | shutdown => exact .bind (.bind serveHandles fun _ => shutdownOwn) fun _ => .pure _
  | reset => exact .bind (.change _ fun _ _ _ _ => rfl) fun _ => .pure _
  | pause paused =>
      refine .bind (.look (fun _ _ _ _ => rfl) fun _ => ?_) fun _ => .pure _
      exact .bind (.change _ fun _ _ _ _ => rfl) fun _ => .pure _
  | setData data => exact .bind (.change _ fun _ _ _ _ => rfl) fun _ => .pure _
  | post target =>
      refine .bind (takeTarget target) fun taken => ?_
      cases taken with
      | none => exact .pure _
      | some posted => exact .bind (post posted) fun _ => .pure _
  | tryKind kind => exact .bind (copyPrototype kind) fun _ => .pure _
  | create kind slot =>
      exact .bind (makeOfKind kind) fun subject => .bind (hold slot subject) fun _ => .pure _
  | adopt kind behavior slot =>
      exact .bind (makeState kind behavior) fun subject => .bind (hold slot subject) fun _ =>
        .pure _
  | pauseHeld slot paused => exact pauseHeld slot paused

end Composed

/-! ## What stays the same -/

/-- A program leaves the number and the configuration of the machine alone if it comes to an end. -/
def Fixing (program : Kernel β D N α) : Prop :=
  ∀ ⦃run after : Run β D N⦄ ⦃value : α⦄, program run = .ok value after →
    after.machine.id = run.machine.id ∧ after.machine.config = run.machine.config

namespace Fixing

/-- A program fixes the configuration if both of its parts do. -/
theorem bind
    {program : Kernel β D N α}
    {next : α → Kernel β D N γ}
    (first : Fixing program)
    (rest : ∀ value, Fixing (next value)) :
    Fixing (program >>= next) := by
  intro run after value done
  obtain ⟨between, middle, began, ended⟩ := bind_ok done
  obtain ⟨id, config⟩ := first began
  obtain ⟨sameId, sameConfig⟩ := rest between ended
  exact ⟨sameId.trans id, sameConfig.trans config⟩

/-- A program that always comes to an end. -/
theorem of_ok
    {program : Kernel β D N α}
    (ends : ∀ run, ∃ value after, program run = .ok value after ∧
      after.machine.id = run.machine.id ∧ after.machine.config = run.machine.config) :
    Fixing program := by
  intro run after value done
  obtain ⟨other, final, ended, same⟩ := ends run
  rw [ended] at done
  cases done
  exact same

theorem pure (value : α) : Fixing (Pure.pure value : Kernel β D N α) :=
  .of_ok fun run => ⟨value, run, rfl, rfl, rfl⟩

end Fixing

variable {conduct : Conduct β D N}

theorem serveWithin_fixing
    (next : Fixing (nextRequest : Kernel β D N (Option (Request β))))
    (served : ∀ asked, Fixing (serveAsked conduct asked))
    (budget : Nat) :
    Fixing (serveWithin conduct budget) := by
  induction budget with
  | zero =>
      intro run after value done
      obtain ⟨machine, _, looked, done⟩ := bind_ok done
      cases looked
      split at done
      · cases done
        exact ⟨rfl, rfl⟩
      · nomatch done
  | succ budget inductionHypothesis =>
      refine .bind next fun found => ?_
      cases found with
      | none => exact .pure ()
      | some asked => exact .bind (served asked) fun _ => inductionHypothesis

/-- No call changes the configuration of its machine. -/
theorem Composed.fixing
    {program : Kernel β D N α}
    (composed : Composed conduct program) :
    Fixing program := by
  induction composed with
  | pure value => exact .pure value
  | refuse refusal =>
      intro run after value done
      rw [refuse_apply] at done
      cases done
  | bind _ _ first rest => exact .bind first rest
  | look _ _ rest => exact fun run after value done => rest run.machine done
  | change change inner =>
      refine .of_ok fun run => ⟨(), run.mapMachine change, rfl, ?_⟩
      obtain ⟨id, config, -⟩ := inner.frame run.machine
      exact ⟨id, config⟩
  | write entry => exact .of_ok fun run => ⟨(), _, rfl, rfl, rfl⟩
  | record source target subject => exact .of_ok fun run => ⟨(), _, rfl, rfl, rfl⟩
  | react hook subject =>
      intro run after value done
      rw [modifyGet_apply, Run.react_eq] at done
      cases done
      exact ⟨rfl, rfl⟩
  | breakOff breakdown =>
      cases breakdown with
      | none => exact .pure ()
      | some message =>
          intro run after value done
          cases done
  | handle move => exact .of_ok fun run => ⟨_, _, rfl, rfl, rfl⟩
  | takeUp origin request _ resolved =>
      rw [takeUp_eq]
      exact .bind (.of_ok fun run => ⟨(), _, rfl, rfl, rfl⟩) fun _ => resolved
  | orMend _ mend mended => exact fun run after value done => mended (orMend_ok done)
  | serveHooks _ _ next served =>
      intro run after value done
      exact serveWithin_fixing next served (chainBudget run.machine) done

end Kernel
end TickMachine
