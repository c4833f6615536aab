import TickMachine.Proofs.Deferral
import TickMachine.Proofs.Onward

/-!
# Coming back to a state that was pushed

A state that the current stack entry refers to is followed from the push to the pop.  Whatever is
done in between, as long as the entry stays on the stack, the machine has the state, and the state
changes only by its own hooks and by the setting of its paused flag while it is current.  The pop
then leads back to this very state.
-/

namespace TickMachine

variable {β D N : Type}

/-! ## Steps and operations -/

/-- Any number of steps change a state only by hooks of it, if the stack refers to it all the
time. -/
theorem Steps.touched
    {conduct : Conduct β D N}
    {deeds : List Deed}
    {start final : Stage β D N}
    (steps : Steps conduct deeds start final)
    (undisturbed : .pause ∉ deeds)
    (orderly : start.Orderly)
    (subject : Instance β)
    (holds : start.Holds subject)
    (pushed : .pop ∉ deeds ∧ subject.serial ∈ start.run.machine.stack ∨
      .push ∉ deeds ∧ subject.serial ∈ final.run.machine.stack) :
    Touched conduct [] start final subject := by
  induction steps with
  | refl => exact .still rfl holds
  | @tail middle final before step inductionHypothesis =>
      have orderlyMiddle : middle.Orderly :=
        Steps.invariant (fun _ _ step orderly => step.orderly orderly) before orderly
      -- Either the stack has not lost the entry yet, or it will not get it any more.
      have still : subject.serial ∈ middle.run.machine.stack := by
        rcases pushed with ⟨never, early⟩ | ⟨never, late⟩
        · exact (Steps.stack_grows before never).subset early
        · exact (step.stack_shrinks never).subset late
      have upTo : Touched conduct [] start middle subject :=
        inductionHypothesis (pushed.imp id fun late => ⟨late.1, still⟩)
      refine upTo.trans fun changed same held => ?_
      exact step.touched undisturbed orderlyMiddle changed held (by rwa [same])

namespace Run

variable {conduct : Conduct β D N} {run : Run β D N}

/-- If no hook breaks off, an operation ends with nothing on its way. -/
theorem perform_steps
    (faithful : Stage.Faithful ⟨.idle, [], run⟩)
    (now : Instant)
    (operation : Operation β D)
    (unbroken : Unbroken (run.perform conduct now operation).1) :
    Steps conduct operation.deeds ⟨.idle, [], { run with now := now }⟩
      ⟨.idle, [], (run.perform conduct now operation).2⟩ := by
  have course := run.perform_course conduct now operation
  cases answer : (run.perform conduct now operation).1 with
  | ok reply =>
      rw [answer] at course
      exact course
  | error cause =>
      rw [answer] at course unbroken
      cases cause with
      | brokenOff message => exact unbroken.elim
      | refused refusal =>
          cases refusal with
          | lost serial =>
              have ended := Steps.invariant (fun _ _ step => step.faithful) course
                (faithful.clock now)
              exact absurd rfl (ended.found serial)
          | _ => exact course

/-- The value to which an operation sets the paused flag of the state with a number, if it does so
because this state is current. -/
def flagged (run : Run β D N) (serial : Serial) : Operation β D → Option Bool
  | .pause paused => if run.machine.currentSerial = some serial then some paused else none
  | _ => none

/-- An operation changes a state that the stack refers to only by hooks of it, or by setting its
paused flag. -/
theorem perform_touched
    (faithful : Stage.Faithful ⟨.idle, [], run⟩)
    (now : Instant)
    (operation : Operation β D)
    (unbroken : Unbroken (run.perform conduct now operation).1)
    (subject : Instance β)
    (holds : Stage.Holds ⟨.idle, [], run⟩ subject)
    (pushed : subject.serial ∈ run.machine.stack)
    (still : subject.serial ∈ (run.perform conduct now operation).2.machine.stack) :
    Touched conduct (run.flagged subject.serial operation).toList ⟨.idle, [], run⟩
      ⟨.idle, [], (run.perform conduct now operation).2⟩ subject := by
  have steps := perform_steps faithful now operation unbroken
  have onStack : .pop ∉ operation.deeds ∧ subject.serial ∈ run.machine.stack ∨
      .push ∉ operation.deeds ∧
        subject.serial ∈ (run.perform conduct now operation).2.machine.stack := by
    cases operation with
    | pop => exact .inr ⟨by simp [Operation.deeds], still⟩
    | _ => exact .inl ⟨by simp [Operation.deeds], pushed⟩
  cases operation with
  | pause paused =>
      rw [flagged]
      split
      next here =>
        obtain ⟨other, present, same⟩ := Option.map_eq_some_iff.mp here
        cases faithful.orderly.unique (.inr (.inl present)) holds same
        refine ⟨[], _, .single (.pause paused) subject, (List.append_nil _).symm, .inr (.inl ?_)⟩
        change run.machine.current.map _ = _
        rw [present]
        rfl
      next elsewhere =>
        refine .still rfl ?_
        rcases holds with held | present | waiting | parked
        · cases held
        · exact absurd (congrArg (Option.map Instance.serial) present) elsewhere
        · exact .inr (.inr (.inl waiting))
        · exact .inr (.inr (.inr parked))
  | _ =>
      exact steps.touched (by simp [Operation.deeds]) (faithful.orderly.clock now) subject
        holds onStack

end Run

/-! ## From the push to the pop -/

/-- The value to which an operation set the paused flag of the state with a number, if it did so
because this state was current. -/
def Moment.flagged (serial : Serial) (moment : Moment β D N) : Option Bool :=
  moment.run.flagged serial moment.operation

/-- An entry of the stack is still there after an operation that leaves the stack deep enough. -/
theorem Run.perform_stack
    {conduct : Conduct β D N}
    {run : Run β D N}
    (now : Instant)
    (operation : Operation β D)
    {entries : List Serial}
    (pushed : entries <:+ run.machine.stack)
    (deep : entries.length ≤ (run.perform conduct now operation).2.machine.stack.length) :
    entries <:+ (run.perform conduct now operation).2.machine.stack := by
  obtain ⟨_, _, steps⟩ := run.perform_anyhow conduct now operation
  have either : .pop ∉ operation.deeds ∨ .push ∉ operation.deeds := by
    cases operation <;> simp [Operation.deeds]
  rcases either with never | never
  · exact pushed.trans (steps.stack_grows never)
  · exact List.suffix_of_suffix_length_le pushed (steps.stack_shrinks never) deep

/-- As long as its entry stays on the stack, an operation changes a state that was pushed only by
hooks of it or by setting its paused flag. -/
theorem Run.perform_entry
    {conduct : Conduct β D N}
    {run : Run β D N}
    (faithful : Stage.Faithful ⟨.idle, [], run⟩)
    (now : Instant)
    (operation : Operation β D)
    (unbroken : Unbroken (run.perform conduct now operation).1)
    {serial : Serial}
    {below : List Serial}
    (pushed : (serial :: below) <:+ run.machine.stack)
    (still : (serial :: below) <:+ (run.perform conduct now operation).2.machine.stack)
    (held : Instance β)
    (same : held.serial = serial)
    (holds : Stage.Holds ⟨.idle, [], run⟩ held) :
    Touched conduct (run.flagged serial operation).toList ⟨.idle, [], run⟩
      ⟨.idle, [], (run.perform conduct now operation).2⟩ held := by
  cases same
  exact run.perform_touched faithful now operation unbroken held holds
    (pushed.subset List.mem_cons_self) (still.subset List.mem_cons_self)

/-- From one run to another a state stays in the machine.  It has changed by exactly those hooks of
it that were called in between, and its paused flag has been set to these values. -/
def Run.Keeps
    (conduct : Conduct β D N)
    (flags : List Bool)
    (before after : Run β D N)
    (subject changed : Instance β) : Prop :=
  ∃ hooks,
    subject.Changed conduct hooks flags changed ∧
      after.callsOf subject.serial = before.callsOf subject.serial ++ hooks ∧
      after.machine.Has changed

theorem Touched.keeps
    {conduct : Conduct β D N}
    {flags : List Bool}
    {batch left : List (Request β)}
    {before after : Run β D N}
    {subject : Instance β}
    (touched : Touched conduct flags ⟨.idle, batch, before⟩ ⟨.idle, left, after⟩ subject) :
    ∃ changed, Run.Keeps conduct flags before after subject changed := by
  obtain ⟨hooks, changed, changes, calls, holds⟩ := touched
  exact ⟨changed, hooks, changes, calls, Stage.holds_idle.mp holds⟩

/-- A state of which no hook was called and whose paused flag was not set has not changed. -/
theorem Run.Keeps.eq_of_calls
    {conduct : Conduct β D N}
    {before after : Run β D N}
    {subject changed : Instance β}
    (keeps : Keeps conduct [] before after subject changed)
    (calls : after.callsOf subject.serial = before.callsOf subject.serial) :
    changed = subject := by
  obtain ⟨hooks, changes, grown, -⟩ := keeps
  rw [calls] at grown
  rw [List.self_eq_append_right.mp grown] at changes
  exact changes.eq_of_nil

/-- An operation keeps the state with a number, and changes it only by hooks of it or by setting its
paused flag while it is current.  In particular a state that is parked or pending stays as it is as
long as no hook of it is called. -/
def Moment.Keeps (conduct : Conduct β D N) (serial : Serial) (moment : Moment β D N) : Prop :=
  ∃ held changed : Instance β,
    held.serial = serial ∧
      moment.run.machine.Has held ∧
      Run.Keeps conduct (moment.flagged serial).toList moment.run (moment.after conduct) held
        changed ∧
      (moment.run.machine.currentSerial ≠ some serial →
        (moment.after conduct).callsOf serial = moment.run.callsOf serial → changed = held)

/-- A state whose paused flag is not set while it is not current stays as it is then. -/
theorem Moment.Keeps.of_keeps
    {conduct : Conduct β D N}
    {moment : Moment β D N}
    {held changed : Instance β}
    (has : moment.run.machine.Has held)
    (keeps : Run.Keeps conduct (moment.flagged held.serial).toList moment.run
      (moment.after conduct) held changed) :
    moment.Keeps conduct held.serial := by
  refine ⟨held, changed, rfl, has, keeps, fun elsewhere calls => ?_⟩
  have unflagged : moment.flagged held.serial = none := by
    unfold flagged Run.flagged
    split
    · exact if_neg elsewhere
    · rfl
  rw [unflagged] at keeps
  exact keeps.eq_of_calls calls

/-- As long as its entry stays on the stack, the machine has a state that was pushed, and every
operation changes this state only by hooks of it or by setting its paused flag. -/
theorem Onward.keeps
    {id : MachineId}
    {config : Config}
    {registry : Registry β}
    {data : D}
    {origin : Machine β D}
    {conduct : Conduct β D N}
    {past : List (Moment β D N)}
    {start run : Run β D N}
    (made : Machine.make id config registry data = .ok origin)
    (faithful : Stage.Faithful ⟨.idle, [], start⟩)
    (onward : Onward conduct start past run)
    (unbroken : ∀ moment ∈ past, Unbroken (moment.answer conduct))
    (subject : Instance β)
    (has : start.machine.Has subject)
    (below : List Serial)
    (pushed : (subject.serial :: below) <:+ start.machine.stack)
    (deep : ∀ moment ∈ past, below.length < moment.run.machine.stack.length)
    (deepNow : below.length < run.machine.stack.length) :
    (subject.serial :: below) <:+ run.machine.stack ∧
      (∀ moment ∈ past, moment.Keeps conduct subject.serial) ∧
      Touched conduct (past.filterMap (Moment.flagged subject.serial)) ⟨.idle, [], start⟩
        ⟨.idle, [], run⟩ subject := by
  induction onward with
  | stay =>
      exact ⟨pushed, List.forall_mem_nil _, .still rfl (Stage.holds_idle.mpr has)⟩
  | @perform past run now operation before inductionHypothesis =>
      obtain ⟨earlier, last⟩ := List.forall_mem_append.mp unbroken
      obtain ⟨deepBefore, deepThen⟩ := List.forall_mem_append.mp deep
      have answered := List.forall_mem_singleton.mp last
      have deepHere := List.forall_mem_singleton.mp deepThen
      obtain ⟨entry, each, upTo⟩ := inductionHypothesis earlier deepBefore deepHere
      have entryAfter := Run.perform_stack now operation entry deepNow
      have faithfulHere := (faithful_lasting conduct made).onward before earlier faithful
      have here := Run.perform_entry faithfulHere now operation answered entry entryAfter
      refine ⟨entryAfter, ?_, ?_⟩
      · refine List.forall_mem_append.mpr ⟨each, List.forall_mem_singleton.mpr ?_⟩
        obtain ⟨_, held, changes, -, holds⟩ := upTo
        obtain ⟨changed, keeps⟩ := (here held changes.serial holds).keeps
        rw [← changes.serial] at keeps ⊢
        exact .of_keeps (Stage.holds_idle.mp holds) keeps
      · have flags : [(⟨run, now, operation⟩ : Moment β D N)].filterMap
            (Moment.flagged subject.serial) = (run.flagged subject.serial operation).toList := by
          rw [List.filterMap_cons, List.filterMap_nil, Moment.flagged]
          cases run.flagged subject.serial operation <;> rfl
        rw [List.filterMap_append, flags]
        exact upTo.trans here
  | rearrange hands before kept inductionHypothesis =>
      exact inductionHypothesis unbroken deep deepNow

/-! ## The pop -/

/-- A machine finds a state that it has, and the transition leads to this very state. -/
theorem Stage.Orderly.retrieve_of_holds
    {run : Run β D N}
    (orderly : Orderly ⟨.idle, [], run⟩)
    {subject : Instance β}
    (holds : Holds ⟨.idle, [], run⟩ subject)
    (below : List Serial) :
    ∃ transition rest,
      { run.machine with stack := below }.retrieve subject.serial = some (transition, rest) ∧
      (transition = .replace subject ∧ run.machine.currentSerial ≠ some subject.serial ∨
        transition = .reenter subject.kind subject.serial ∧
          run.machine.current = some subject) := by
  cases retrieved : { run.machine with stack := below }.retrieve subject.serial with
  | none =>
      obtain ⟨unparked, elsewhere, idle⟩ := Machine.retrieve_eq_none retrieved
      exfalso
      rcases holds with held | present | waiting | parked
      · nomatch held
      · exact elsewhere (congrArg (Option.map Instance.serial) present)
      · exact idle (congrArg (Option.map Transition.serial) waiting)
      · refine unparked (Std.TreeMap.mem_iff_isSome_getElem?.mpr ?_)
        dsimp only at parked ⊢
        rw [parked]
        rfl
  | some found =>
      obtain ⟨transition, rest⟩ := found
      refine ⟨transition, rest, rfl, ?_⟩
      obtain ⟨other, parked, rfl, -⟩ | ⟨-, other, present, same, rfl, -⟩ |
        ⟨-, elsewhere, waiting, same, -⟩ := Machine.retrieve_cases retrieved
      · have own : other.serial = subject.serial := orderly.keyed _ other parked
        have has : Holds ⟨.idle, [], run⟩ other := .inr (.inr (.inr (by rw [own]; exact parked)))
        cases orderly.unique has holds own
        have here : subject.serial ∈ run.machine.parked := by
          rw [Std.TreeMap.mem_iff_isSome_getElem?]
          exact Option.isSome_of_eq_some parked
        exact .inl ⟨rfl, (orderly.pending_unparked subject.serial here).1⟩
      · cases orderly.unique (.inr (.inl present)) holds same
        exact .inr ⟨rfl, present⟩
      · cases transition with
        | replace next =>
            cases orderly.unique (.inr (.inr (.inl waiting))) holds same
            exact .inl ⟨rfl, elsewhere⟩
        | reenter kind serial =>
            cases same
            refine absurd (Machine.currentSerial_of_identity (orderly.again (kind, _) ?_)) elsewhere
            exact .inr (congrArg (Option.bind · Transition.again?) waiting)

namespace Kernel

variable {conduct : Conduct β D N} {run : Run β D N} {subject : Instance β} {below : List Serial}

/-- The own work of coming back to a state that the machine has. -/
theorem popOwn_of_holds
    (conduct : Conduct β D N)
    (orderly : Stage.Orderly ⟨.idle, [], run⟩)
    (holds : Stage.Holds ⟨.idle, [], run⟩ subject)
    (top : run.machine.stack = subject.serial :: below) :
    ∃ transition parked pending,
      let found := Run.write
        { run with machine := { run.machine with
            stack := below, parked := parked, pending := pending } }
        (.logged (.popped subject.serial below.length))
      (transition = .replace subject ∧ run.machine.currentSerial ≠ some subject.serial ∨
        transition = .reenter subject.kind subject.serial ∧ run.machine.current = some subject) ∧
      popOwn conduct run =
        (do
          let outcome ← submit conduct transition
          serveHooks conduct
          pure (some outcome)) found := by
  obtain ⟨transition, rest, retrieved, leads⟩ := orderly.retrieve_of_holds holds below
  obtain ⟨parked, pending, rfl⟩ := Machine.retrieve_frame retrieved
  refine ⟨transition, parked, pending, leads, ?_⟩
  rw [popOwn_apply, top]
  dsimp only
  rw [retrieved]

/-- Coming back to a state takes one entry off the stack. -/
theorem popOwn_stack
    (top : run.machine.stack = subject.serial :: below) :
    ((popOwn conduct).final run).machine.stack = below := by
  unfold final
  rw [popOwn_apply, top]
  dsimp only
  cases retrieved : { run.machine with stack := below }.retrieve subject.serial with
  | none => rfl
  | some found =>
      obtain ⟨transition, rest⟩ := found
      obtain ⟨parked, pending, rfl⟩ := Machine.retrieve_frame retrieved
      let restored := Run.write
        { run with machine := { run.machine with
            stack := below, parked := parked, pending := pending } }
        (.logged (.popped subject.serial below.length))
      have rest : Follows conduct []
          (do
            let outcome ← submit conduct transition
            serveHooks conduct
            pure (some outcome))
          ⟨.found transition, [], restored⟩ (fun _ => .idle) [] [] :=
        (submit_follows transition).bind fun _ _ _ => serveHooks_follows.bind fun _ _ _ => .pure _
      obtain ⟨_, _, steps⟩ := rest.steps
      exact steps.stack_eq List.not_mem_nil List.not_mem_nil

/-- In immediate mode the state enters as the first thing that happens, and then what the hooks ask
for is served. -/
theorem popOwn_enters
    (immediate : run.machine.config.immediate = true)
    (orderly : Stage.Orderly ⟨.idle, [], run⟩)
    (holds : Stage.Holds ⟨.idle, [], run⟩ subject)
    (top : run.machine.stack = subject.serial :: below)
    (unbroken : ∀ message after, popOwn conduct run ≠ .error (.brokenOff message) after) :
    ∃ entered,
      Run.Enters conduct run subject
        (if run.machine.currentSerial = some subject.serial then [.exit, .enter] else [.enter])
        entered ∧
      popOwn conduct run =
        (do
          serveHooks conduct
          pure (some (Outcome.applied subject.kind subject.serial))) entered := by
  obtain ⟨transition, parked, pending, leads, works⟩ :=
    popOwn_of_holds conduct orderly holds top
  rw [works] at unbroken ⊢
  let found := Run.write
    { run with machine := { run.machine with
        stack := below, parked := parked, pending := pending } }
    (.logged (.popped subject.serial below.length))
  have sameCalls : found.calls = run.calls := Run.calls_log _ _
  have kind : transition.kind = subject.kind := by rcases leads with ⟨rfl, -⟩ | ⟨rfl, -⟩ <;> rfl
  have serial : transition.serial = subject.serial := by
    rcases leads with ⟨rfl, -⟩ | ⟨rfl, -⟩ <;> rfl
  rw [bind_apply, submit_apply_immediate conduct transition found immediate, kind, serial]
    at unbroken ⊢
  cases made : carryOut conduct transition found with
  | ok value entered =>
      have enters : Run.Enters conduct found subject
          (if run.machine.currentSerial = some subject.serial then [.exit, .enter] else [.enter])
          entered :=
        carryOut_enters leads made
      obtain ⟨calls, current⟩ := enters
      exact ⟨entered, ⟨by rw [calls, sameCalls]; rfl, current⟩, rfl⟩
  | error cause after =>
      cases cause with
      | refused refusal => exact (carryOut_willing conduct transition made).elim
      | brokenOff message =>
          rw [made] at unbroken
          exact absurd rfl (unbroken message after)

/-- In deferred mode the state is to enter at the next tick. -/
theorem popOwn_deferred
    (patient : run.machine.config.immediate = false)
    (orderly : Stage.Orderly ⟨.idle, [], run⟩)
    (holds : Stage.Holds ⟨.idle, [], run⟩ subject)
    (top : run.machine.stack = subject.serial :: below)
    (empty : run.machine.inbox = []) :
    ∃ discarded after,
      popOwn conduct run = .ok (some (.deferred subject.kind subject.serial discarded)) after ∧
      after.calls = run.calls ∧
      after.machine.pendingSerial = some subject.serial ∧
      after.machine.Has subject := by
  obtain ⟨transition, parked, pending, leads, works⟩ :=
    popOwn_of_holds conduct orderly holds top
  let found := Run.write
    { run with machine := { run.machine with
        stack := below, parked := parked, pending := pending } }
    (.logged (.popped subject.serial below.length))
  have sameCalls : found.calls = run.calls := Run.calls_log _ _
  obtain ⟨calls, -, kept, machine⟩ := found.deferred_frame transition
  refine ⟨found.discarded transition, found.deferred transition, ?_, calls.trans sameCalls, ?_, ?_⟩
  · rw [works, submit_serve_apply_deferred conduct transition some found patient empty]
    rcases leads with ⟨rfl, -⟩ | ⟨rfl, -⟩ <;> rfl
  · rw [machine]
    rcases leads with ⟨rfl, -⟩ | ⟨rfl, -⟩ <;> rfl
  · rw [machine]
    rcases leads with ⟨rfl, -⟩ | ⟨-, present⟩
    · exact .inr (.inl rfl)
    · exact .inl present

end Kernel

/-! ## From the push to the pop -/

namespace Run

variable {conduct : Conduct β D N} {run drained : Run β D N} {now : Instant} {subject : Instance β}

/-- A push puts the current state on the stack. -/
theorem perform_push
    (conduct : Conduct β D N)
    (now : Instant)
    {pushing : Operation β D}
    (pushes : pushing = .push ∨ pushing = .pushCurrent)
    (present : run.machine.current = some subject) :
    (∃ reply, (run.perform conduct now pushing).1 = .ok reply) ∧
      (run.perform conduct now pushing).2 = { run with now := now }.pushed subject := by
  rcases pushes with rfl | rfl
  · rw [perform, Kernel.perform, Kernel.bind_apply, Kernel.push_apply]
    dsimp only
    rw [present]
    exact ⟨⟨_, rfl⟩, rfl⟩
  · rw [perform, Kernel.perform, Kernel.bind_apply, Kernel.pushCurrent_apply]
    dsimp only
    rw [present]
    exact ⟨⟨_, rfl⟩, rfl⟩

/-- When everything that was posted has been served, a pop does its own work. -/
theorem perform_pop
    (drains : Kernel.serveHandles conduct { run with now := now } = .ok () drained) :
    run.perform conduct now .pop =
      match Kernel.popOwn conduct drained with
      | .ok outcome after => (.ok (.ofOutcome outcome), after)
      | .error cause after => (.error cause, after) := by
  have works : Kernel.pop conduct { run with now := now } = Kernel.popOwn conduct drained := by
    have parts : Kernel.pop conduct = (do Kernel.serveHandles conduct; Kernel.popOwn conduct) := rfl
    rw [parts, Kernel.bind_apply, drains]
  rw [perform, Kernel.perform, Kernel.bind_apply, works]
  cases Kernel.popOwn conduct drained <;> rfl

/-- To serve what was posted leaves the stack as it is, and changes a state on it only by hooks. -/
theorem serveHandles_touched
    (faithful : Stage.Faithful ⟨.idle, [], run⟩)
    (drains : Kernel.serveHandles conduct run = .ok () drained)
    (holds : Stage.Holds ⟨.idle, [], run⟩ subject)
    (pushed : subject.serial ∈ run.machine.stack) :
    Stage.Faithful ⟨.idle, [], drained⟩ ∧
      drained.machine.stack = run.machine.stack ∧
      drained.machine.config = run.machine.config ∧
      Touched conduct [] ⟨.idle, [], run⟩ ⟨.idle, [], drained⟩ subject := by
  have steps : Steps conduct [.serve] ⟨.idle, [], run⟩ ⟨.idle, [], drained⟩ :=
    (Kernel.serveHandles_follows List.mem_cons_self).steps_ok drains
  refine ⟨steps.invariant (fun _ _ step => step.faithful) faithful,
    steps.stack_eq (by decide) (by decide), steps.fixed.2.1, ?_⟩
  exact steps.touched (by decide) faithful.orderly subject holds (.inl ⟨by decide, pushed⟩)

/-- A pop takes one entry off the stack and leads to the state that the entry refers to. -/
theorem perform_pop_has
    {answer : Except Interruption Reply}
    {popped : Run β D N}
    {below : List Serial}
    (drains : Kernel.serveHandles conduct { run with now := now } = .ok () drained)
    (pops : run.perform conduct now .pop = (answer, popped))
    (safe : Unbroken answer)
    (orderly : Stage.Orderly ⟨.idle, [], drained⟩)
    (has : drained.machine.Has subject)
    (top : drained.machine.stack = subject.serial :: below) :
    popped.machine.stack = below ∧
      (drained.machine.config.immediate = true →
        ∃ entered more,
          Enters conduct drained subject
            (if drained.machine.currentSerial = some subject.serial then [.exit, .enter]
              else [.enter])
            entered ∧
          popped.calls = entered.calls ++ more ∧
          ∀ reply, answer = .ok reply →
            reply = .outcome (.applied subject.kind subject.serial)) ∧
      (drained.machine.config.immediate = false →
        (∃ discarded,
          answer = .ok (.outcome (.deferred subject.kind subject.serial discarded))) ∧
        popped.calls = drained.calls ∧
        popped.machine.pendingSerial = some subject.serial ∧
        popped.machine.Has subject) := by
  have holds : Stage.Holds ⟨.idle, [], drained⟩ subject := Stage.holds_idle.mpr has
  have empty : drained.machine.inbox = [] := Kernel.serveHandles_ok conduct drains
  have works := perform_pop drains
  rw [pops] at works
  have ends : popped = (Kernel.popOwn conduct).final drained := by
    unfold Kernel.final
    cases own : Kernel.popOwn conduct drained <;> rw [own] at works <;> cases works <;> rfl
  refine ⟨by rw [ends, Kernel.popOwn_stack top], fun immediate => ?_, fun patient => ?_⟩
  · have unbroken (message : String) (after : Run β D N) :
        Kernel.popOwn conduct drained ≠ .error (.brokenOff message) after := by
      intro broken
      rw [broken] at works
      cases works
      exact safe
    obtain ⟨entered, enters, own⟩ :=
      Kernel.popOwn_enters immediate orderly holds top unbroken
    let rest : Kernel β D N (Option Outcome) := do
      Kernel.serveHooks conduct
      pure (some (.applied subject.kind subject.serial))
    have follows : Follows conduct [] rest ⟨.idle, [], entered⟩ (fun _ => .idle) [] [] :=
      Kernel.serveHooks_follows.bind fun _ _ _ => .pure _
    obtain ⟨_, _, steps⟩ := follows.steps
    obtain ⟨more, calls⟩ := steps.goesOn.calls
    refine ⟨entered, more, enters, ?_, fun reply replied => ?_⟩
    · rw [ends, Kernel.final, own]
      exact calls
    · rw [own, Kernel.bind_apply] at works
      cases served : Kernel.serveHooks conduct entered with
      | ok value after =>
          rw [served] at works
          cases works
          exact (Except.ok.inj replied).symm
      | error cause after =>
          rw [served] at works
          cases works
          cases replied
  · obtain ⟨discarded, after, own, calls, waiting, still⟩ :=
      Kernel.popOwn_deferred patient orderly holds top empty
    rw [own] at works
    cases works
    exact ⟨⟨discarded, rfl⟩, calls, waiting, still⟩

end Run

/-- A pop takes the entry that a push has put on the stack off it again and leads back to the state
that was pushed, if the stack has not been lower in between.  In immediate mode this state enters as
the first thing that the pop does of its own, after the current state has exited; in deferred mode
it is pending after the pop.  In between the machine has had the state all the time, and nothing but
its own hooks has changed it, and its paused flag has been set only while it was current. -/
theorem pop_resumes
    {id : MachineId}
    {config : Config}
    {registry : Registry β}
    {data : D}
    {origin : Machine β D}
    {conduct : Conduct β D N}
    {run later drained popped : Run β D N}
    {past : List (Moment β D N)}
    {answer : Except Interruption Reply}
    (made : Machine.make id config registry data = .ok origin)
    (reached : Reachable conduct Unbroken origin run)
    (subject : Instance β)
    (present : run.machine.current = some subject)
    (pushedAt : Instant)
    (pushing : Operation β D)
    (pushes : pushing = .push ∨ pushing = .pushCurrent)
    (onward : Onward conduct (run.perform conduct pushedAt pushing).2 past later)
    (unbroken : ∀ moment ∈ past, Unbroken (moment.answer conduct))
    (deep : ∀ moment ∈ past, run.machine.stack.length < moment.run.machine.stack.length)
    (level : later.machine.stack.length = run.machine.stack.length + 1)
    (poppedAt : Instant)
    (drains : Kernel.serveHandles conduct { later with now := poppedAt } = .ok () drained)
    (pops : later.perform conduct poppedAt .pop = (answer, popped))
    (safe : Unbroken answer) :
    later.machine.stack = subject.serial :: run.machine.stack ∧
    popped.machine.stack = run.machine.stack ∧
    (∀ moment ∈ past, moment.Keeps conduct subject.serial) ∧
    ∃ resumed,
      Run.Keeps conduct (past.filterMap (Moment.flagged subject.serial)) run drained subject
        resumed ∧
      (config.immediate = true →
        ∃ entered more,
          Run.Enters conduct drained resumed
            (if drained.machine.currentSerial = some subject.serial then [.exit, .enter]
              else [.enter])
            entered ∧
          popped.calls = entered.calls ++ more ∧
          ∀ reply, answer = .ok reply →
            reply = .outcome (.applied subject.kind subject.serial)) ∧
      (config.immediate = false →
        (∃ discarded,
          answer = .ok (.outcome (.deferred subject.kind subject.serial discarded))) ∧
        popped.calls = drained.calls ∧
        popped.machine.pendingSerial = some subject.serial ∧
        popped.machine.Has resumed) := by
  obtain ⟨⟨reply, answered⟩, pushed⟩ :=
    Run.perform_push conduct pushedAt pushes present
  have started : Reachable conduct Unbroken origin (run.perform conduct pushedAt pushing).2 :=
    .perform _ _ reached (by rw [answered]; trivial)
  have faithful := (faithful_lasting conduct made).reachable started
  rw [pushed] at onward started faithful
  -- The entry lies on the top of the stack when it is popped.
  have has : (Run.pushed { run with now := pushedAt } subject).machine.Has subject := .inl present
  obtain ⟨entry, each, upTo⟩ := onward.keeps made faithful unbroken subject has run.machine.stack
    List.suffix_rfl deep (by omega)
  have top : subject.serial :: run.machine.stack = later.machine.stack :=
    entry.eq_of_length (by rw [level, List.length_cons])
  have faithfulLater := (faithful_lasting conduct made).onward onward unbroken faithful
  obtain ⟨-, sameConfig, -⟩ :=
    (fixed_lasting conduct Unbroken made).reachable (onward.reachable unbroken started)
  -- What is served first may run hooks of the state.
  obtain ⟨held, changes, holds⟩ : ∃ held : Instance β,
      held.serial = subject.serial ∧ Stage.Holds ⟨.idle, [], later⟩ held := by
    obtain ⟨_, held, changes, -, holds⟩ := upTo
    exact ⟨held, changes.serial, holds⟩
  obtain ⟨faithfulDrained, sameStack, drainedConfig, -⟩ :=
    Run.serveHandles_touched (faithfulLater.clock poppedAt) drains holds
      (by rw [changes, ← top]; exact List.mem_cons_self)
  have touched : Touched conduct (past.filterMap (Moment.flagged subject.serial) ++ [])
      ⟨.idle, [], Run.pushed { run with now := pushedAt } subject⟩ ⟨.idle, [], drained⟩ subject :=
    upTo.trans fun changed same holds =>
      (Run.serveHandles_touched (faithfulLater.clock poppedAt) drains holds
        (by rw [same, ← top]; exact List.mem_cons_self)).2.2.2
  rw [List.append_nil] at touched
  obtain ⟨resumed, hooks, changed, calls, hasResumed⟩ := touched.keeps
  have keeps : Run.Keeps conduct (past.filterMap (Moment.flagged subject.serial)) run drained
      subject resumed := by
    refine ⟨hooks, changed, ?_, hasResumed⟩
    rw [calls, Run.callsOf, Run.pushed, Run.calls_log]
    rfl
  obtain ⟨sameKind, sameSerial⟩ := Prod.mk.inj changed.identity
  have topDrained : drained.machine.stack = resumed.serial :: run.machine.stack := by
    rw [sameStack, sameSerial]
    exact top.symm
  obtain ⟨taken, entering, waiting⟩ :=
    Run.perform_pop_has drains pops safe faithfulDrained.orderly hasResumed topDrained
  rw [drainedConfig, sameConfig, sameKind, sameSerial] at entering waiting
  exact ⟨top.symm, taken, each, resumed, keeps, entering, waiting⟩

/-- A relay that has pushed its first state is going to enter another one. -/
def relayLeaving : Moment Actor Meter Note where
  run := ((relayStarted true).perform Actor.conduct .epoch .push).2
  now := .epoch
  operation := .switchTo (.fresh ⟨2⟩)

/-- A relay that has pushed its first state and has entered another one enters the first one again
when it pops, after the other one has exited. -/
theorem pop_resumes_relay :
    ((relayLeaving.after Actor.conduct).perform Actor.conduct .epoch .pop).2.machine.stack = [] ∧
    ∃ kind more,
      ((relayLeaving.after Actor.conduct).perform Actor.conduct .epoch .pop).2.calls =
        (relayLeaving.after Actor.conduct).calls ++ (relayLeaving.after Actor.conduct).exits ++
          [(.enter, kind, ⟨1⟩)] ++ more := by
  have active : (relayStarted true).machine.current.isSome := by decide +kernel
  obtain ⟨subject, present⟩ := Option.isSome_iff_exists.mp active
  have number : subject.serial = ⟨1⟩ := by
    have found : (relayStarted true).machine.currentSerial = some ⟨1⟩ := by decide +kernel
    rw [Machine.currentSerial_of_current present] at found
    exact Option.some.inj found
  have onward := Onward.single Actor.conduct relayLeaving
  have deep : (relayStarted true).machine.stack.length < relayLeaving.run.machine.stack.length := by
    decide +kernel
  have level :
      (relayLeaving.after Actor.conduct).machine.stack.length =
        (relayStarted true).machine.stack.length + 1 := by
    decide +kernel
  have drains := Kernel.serveHandles_apply_empty Actor.conduct
    { relayLeaving.after Actor.conduct with now := .epoch }
    (List.isEmpty_iff.mp (by decide +kernel))
  obtain ⟨-, stack, -, resumed, ⟨hooks, changes, -⟩, entering, -⟩ :=
    pop_resumes (relay_made true) (relayStarted_reachable true) subject present .epoch .push
      (.inl rfl) onward (List.forall_mem_singleton.mpr (by decide +kernel))
      (List.forall_mem_singleton.mpr deep) level .epoch drains (Prod.eta _).symm
      (by decide +kernel)
  have bottom : (relayStarted true).machine.stack = [] := by decide +kernel
  obtain ⟨entered, more, ⟨calls, -⟩, grown, -⟩ := entering rfl
  refine ⟨stack.trans bottom, resumed.kind, more, ?_⟩
  rw [changes.serial, number] at calls
  generalize relayLeaving.after Actor.conduct = away at calls grown ⊢
  exact grown.trans (congrArg (· ++ more) calls)

end TickMachine
