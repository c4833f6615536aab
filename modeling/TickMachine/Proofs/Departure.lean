import TickMachine.Proofs.Resumption
import TickMachine.Proofs.Silence

/-!
# How a state is lost

A call that ends because a hook breaks off loses what it holds.  A state on the stack is lost in
only one way: an exit hook breaks off while the state is on its way, either because it has just
exited itself or because it was to enter next.  Nobody outside of the machine has a state that is on
the stack, so if such a state was to enter next, then it was popped or it was pending.
-/

namespace TickMachine

variable {β D N α : Type}

namespace Phase

/-- The state that has exited in order to leave its place. -/
def departing? : Phase β → Option (Instance β)
  | .swapping _ previous _ => previous
  | .leaving previous => some previous
  | _ => none

/-- The state that is to be entered in place of another one. -/
def arriving? : Phase β → Option (Instance β)
  | .found transition | .due transition => transition.subject?
  | .swapping _ _ next | .entering next => some next
  | _ => none

end Phase

/-- The last hook that was called between two runs is the exit hook of a state. -/
def Run.Exits (before after : Run β D N) (serial : Serial) : Prop :=
  ∃ kind more, after.calls = before.calls ++ more ++ [(.exit, kind, serial)]

namespace Stage

/-- What is known of a state while a call goes on that began on the given run. -/
structure Watched (base : Run β D N) (serial : Serial) (stage : Stage β D N) : Prop where
  orderly : stage.Orderly
  noted : stage.Noted
  /-- If the stack refers to the state, then the machine or the call has it. -/
  kept : serial ∈ stage.run.machine.stack → 1 ≤ stage.inside serial
  grown : ∃ more, stage.run.calls = base.calls ++ more
  /-- A state that leaves its place has just exited. -/
  exits (previous : Instance β) :
    stage.phase.departing? = some previous → base.Exits stage.run previous.serial

/-- The state is not to be entered in place of another one if the stack refers to it. -/
def Apart (serial : Serial) (stage : Stage β D N) : Prop :=
  serial ∈ stage.run.machine.stack →
    ∀ next, stage.phase.arriving? = some next → next.serial ≠ serial

variable {base : Run β D N} {serial : Serial}

/-- A call begins with what holds between calls. -/
theorem Watched.start
    (orderly : Orderly ⟨.idle, [], base⟩)
    (noted : Noted ⟨.idle, [], base⟩)
    (kept : serial ∈ base.machine.stack → 1 ≤ base.machine.copies serial)
    (now : Instant) :
    Watched base serial ⟨.idle, [], { base with now := now }⟩ where
  orderly := orderly.clock now
  noted := ⟨noted.captured, noted.current, noted.pushed⟩
  kept pushed := by
    rw [inside, Phase.copies, Nat.zero_add]
    exact kept pushed
  grown := ⟨[], (List.append_nil _).symm⟩
  exits := nofun

/-- If a state on the stack is not in the machine any more when a hook breaks off, then it has just
exited or it was to enter next. -/
theorem Watched.departs
    {phase : Phase β}
    {batch : List (Request β)}
    {after : Run β D N}
    (watched : Watched base serial ⟨phase, batch, after⟩)
    (hooked : phase.IsHooked)
    (pushed : serial ∈ after.machine.stack)
    (gone : after.machine.copies serial = 0) :
    base.Exits after serial ∨
      ∃ next, phase.arriving? = some next ∧ next.serial = serial := by
  have kept : 1 ≤ phase.copies serial + after.machine.copies serial := watched.kept pushed
  have exited (previous : Instance β) (departs : phase.departing? = some previous)
      (one : 1 ≤ previous.copies serial) : base.Exits after serial := by
    rw [Instance.copies] at one
    split at one
    next same => exact same ▸ watched.exits previous departs
    next => omega
  rw [gone, Nat.add_zero] at kept
  cases phase with
  | idle => exact absurd kept (by simp [Phase.copies])
  | reentering kind number entered => exact absurd kept (by simp [Phase.copies])
  | leaving previous => exact .inl (exited previous rfl kept)
  | swapping source previous next =>
      cases previous with
      | none => exact hooked.elim
      | some previous =>
          by_cases same : next.serial = serial
          · exact .inr ⟨next, rfl, same⟩
          · have other : next.copies serial = 0 := if_neg same
            have either : 1 ≤ previous.copies serial + next.copies serial := kept
            exact .inl (exited previous rfl (by omega))
  | _ => exact hooked.elim

end Stage

section Steps

variable {conduct : Conduct β D N} {deeds : List Deed} {before after : Stage β D N}
  {base : Run β D N} {serial : Serial}

/-- A state that leaves its place has exited in this step or was leaving before. -/
theorem Step.departing_cases
    (step : Step conduct deeds before after)
    {previous : Instance β}
    (departs : after.phase.departing? = some previous) :
    (before.phase.departing? = some previous ∧ after.run.calls = before.run.calls) ∨
      after.run.calls =
        before.run.calls ++ [(.exit, previous.kind, previous.serial)] := by
  cases step with
  | write entry quiet => exact .inl ⟨departs, Run.calls_write _ entry quiet⟩
  | take destination request taken =>
      refine .inl ⟨departs, ?_⟩
      rw [Run.calls, Run.take_journal]
      rfl
  | exit subject | leave subject =>
      cases departs
      exact .inr (Run.calls_reacted _ conduct .exit subject)
  | setData | pause | pauseHeld | enqueue | lose | draw | next | clear | giveBack =>
      exact .inl ⟨departs, rfl⟩
  | _ => cases departs

/-- A step keeps account of a state that is watched: it stays where it can be entered again, or has
just exited. -/
theorem Step.watched
    (step : Step conduct deeds before after)
    (watched : before.Watched base serial) :
    after.Watched base serial where
  orderly := step.orderly watched.orderly
  noted := step.noted watched.orderly watched.noted
  kept := step.kept watched.orderly.keyed serial watched.kept
  grown := by
    obtain ⟨early, grown⟩ := watched.grown
    obtain ⟨late, calls⟩ := step.goesOn.calls
    exact ⟨early ++ late, by rw [calls, grown, List.append_assoc]⟩
  exits previous departs := by
    obtain ⟨early, calls⟩ | calls := step.departing_cases departs
    · obtain ⟨kind, more, exited⟩ := watched.exits previous early
      exact ⟨kind, more, by rw [calls, exited]⟩
    · obtain ⟨more, grown⟩ := watched.grown
      exact ⟨previous.kind, more, by rw [calls, grown]⟩

/-- So does a whole call. -/
theorem Steps.watched
    (steps : Steps conduct deeds before after)
    (watched : before.Watched base serial) :
    after.Watched base serial :=
  steps.invariant (fun _ _ step => step.watched) watched

/-- A state on the stack is found only by a pop, or when the time of the pending transition has
come. -/
theorem Step.apart
    (step : Step conduct deeds before after)
    (neverPopped : .pop ∉ deeds)
    (neverResumed : .resume ∉ deeds)
    (noted : before.Noted)
    (apart : before.Apart serial) :
    after.Apart serial := by
  intro pushed next arrives
  have captured (on : serial ∈ before.run.machine.stack) : before.Captured serial :=
    noted.captured serial (noted.pushed serial on)
  cases step with
  | take destination request taken =>
      rw [Run.take_machine] at pushed
      exact apart pushed next arrives
  | make kind behavior concrete =>
      cases arrives
      exact (captured pushed).ne_newborn kind behavior
  | accept subject own =>
      cases arrives
      exact (captured pushed).ne_existing own
  | release source previous => exact apart (by rwa [Run.released_machine] at pushed) next arrives
  | pop key below transition rest top retrieved done => exact absurd done neverPopped
  | resume transition occupied done => exact absurd done neverResumed
  | write | setData | pause | pauseHeld | enqueue | lose | draw | next | clear | giveBack | urge
  | exit | vacant | record => exact apart pushed next arrives
  | _ => cases arrives

/-- A state that is not on its way gets there only by a pop or a resumed transition. -/
theorem Steps.apart
    (steps : Steps conduct deeds before after)
    (neverPopped : .pop ∉ deeds)
    (neverResumed : .resume ∉ deeds)
    (watched : before.Watched base serial)
    (apart : before.Apart serial) :
    after.Apart serial := by
  induction steps with
  | refl => exact apart
  | tail earlier step inductionHypothesis =>
      exact step.apart neverPopped neverResumed (Steps.watched earlier watched).noted
        inductionHypothesis

end Steps

/-! ## Programs -/

/-- A program that neither pops a state nor makes the pending transition loses a state on the stack
only when this state exits. -/
theorem Follows.exits
    {conduct : Conduct β D N}
    {deeds : List Deed}
    {program : Kernel β D N α}
    {run base after : Run β D N}
    {phase : α → Phase β}
    {held batch left : List (Request β)}
    {serial : Serial}
    {message : String}
    (follows : Follows conduct deeds program ⟨.idle, held, run⟩ phase batch left)
    (neverPopped : .pop ∉ deeds)
    (neverResumed : .resume ∉ deeds)
    (watched : Stage.Watched base serial ⟨.idle, held, run⟩)
    (breaks : program run = .error (.brokenOff message) after)
    (pushed : serial ∈ after.machine.stack)
    (gone : after.machine.copies serial = 0) :
    base.Exits after serial := by
  unfold Follows at follows
  dsimp only at follows
  rw [breaks] at follows
  obtain ⟨phase, batch, hooked, steps⟩ := follows
  have apart : Stage.Apart serial ⟨phase, batch, after⟩ :=
    steps.apart neverPopped neverResumed watched fun _ _ => nofun
  obtain exits | ⟨next, arrives, same⟩ := (steps.watched watched).departs hooked pushed gone
  · exact exits
  · exact absurd same (apart pushed next arrives)

namespace Kernel

variable {conduct : Conduct β D N} {run after : Run β D N} {message : String}

theorem of_ended_eq_error
    {breakdown : Option String}
    {value : α}
    {cause : Interruption}
    (ends : ended breakdown value run = .error cause after) :
    run = after := by
  cases breakdown with
  | none => nomatch ends
  | some told => exact (EStateM.Result.error.inj ends).2

/-- When the next state breaks off as it enters, it is current. -/
theorem arrive_broken
    {source : Option Kind}
    {name : String}
    {next : Instance β}
    {cause : Interruption}
    (breaks : arrive conduct source name next run = .error cause after) :
    after =
      ((run.recorded source (some next.kind) (some next.serial)).entering next).hooked conduct
        .enter next := by
  rw [arrive, bind_apply, addToHistory_apply] at breaks
  dsimp only at breaks
  rw [bind_apply] at breaks
  cases enters : enterNext conduct next
      (run.recorded source (some next.kind) (some next.serial)) with
  | ok value entered =>
      rw [enters] at breaks
      nomatch breaks
  | error stopped entered =>
      rw [enters] at breaks
      rw [enterNext_apply] at enters
      rw [of_ended_eq_error enters]
      exact (EStateM.Result.error.inj breaks).2.symm

/-- When a replacement breaks off, the current state has just exited and has left its place, or the
next one is current. -/
theorem replaceCurrent_broken
    {next : Instance β}
    (batch : List (Request β))
    (breaks : replaceCurrent conduct next run = .error (.brokenOff message) after) :
    (∃ subject, run.machine.current = some subject ∧
      after = (run.withCurrent none).reacted conduct .exit subject) ∨
    Steps conduct [] ⟨.due (.replace next), batch, run⟩ ⟨.idle, batch, after⟩ := by
  rw [replaceCurrent_eq, bind_apply, machine_apply] at breaks
  dsimp only at breaks
  rw [bind_apply] at breaks
  cases present : run.machine.current with
  | none =>
      have source : run.machine.currentKind = none := congrArg (Option.map Instance.kind) present
      rw [exitCurrent_apply_none conduct run present, source] at breaks
      rw [arrive_broken breaks]
      exact .inr (.head (.vacant next present) (.head (.record none next)
        (.single (.enter next present))))
  | some subject =>
      have source : run.machine.currentKind = some subject.kind :=
        congrArg (Option.map Instance.kind) present
      rw [exitCurrent_apply_some conduct run subject present, source] at breaks
      cases broke : ((run.withCurrent none).reaction conduct .exit subject).breakdown with
      | none =>
          rw [broke] at breaks
          dsimp only [ended] at breaks
          rw [bind_apply, release, parkOrDrop_apply] at breaks
          rw [arrive_broken breaks]
          refine .inr (.head (.exit subject next present) (.head (.release _ _ next)
            (.head (.record _ next) (.single (.enter next ?_)))))
          simp [Run.recorded, Run.reacted, Run.withCurrent]
      | some told =>
          rw [broke] at breaks
          exact .inl ⟨subject, rfl, (EStateM.Result.error.inj breaks).2.symm⟩

/-- When the current state breaks off as it exits in order to enter again, or as it enters again, it
is still current. -/
theorem reenterCurrent_broken
    {kind : Kind}
    {serial : Serial}
    (batch : List (Request β))
    (breaks : reenterCurrent conduct kind serial run = .error (.brokenOff message) after) :
    ∃ entered, Steps conduct [] ⟨.due (.reenter kind serial), batch, run⟩
      ⟨.reentering kind serial entered, batch, after⟩ := by
  rw [reenterCurrent, bind_apply, machine_apply] at breaks
  dsimp only at breaks
  by_cases here : run.machine.currentSerial = some serial
  · obtain ⟨subject, present, rfl⟩ := Option.map_eq_some_iff.mp here
    let exited := run.hooked conduct .exit subject
    let gone := run.settled conduct .exit subject
    have exits : Step conduct [] ⟨.due (.reenter kind subject.serial), batch, run⟩
        ⟨.reentering kind subject.serial false, batch, exited⟩ :=
      .exitInPlace kind subject present
    have enters : Step conduct [] ⟨.reentering kind subject.serial false, batch, exited⟩
        ⟨.reentering kind subject.serial true, batch, exited.hooked conduct .enter gone⟩ :=
      .enterAgain kind gone rfl
    rw [if_pos here, bind_apply, callCurrent_apply_some conduct .exit run subject present] at breaks
    cases broke : (run.reaction conduct .exit subject).breakdown with
    | some told =>
        rw [broke] at breaks
        cases breaks
        exact ⟨false, .single exits⟩
    | none =>
        rw [broke] at breaks
        dsimp only [ended] at breaks
        rw [bind_apply, callCurrent_apply_some conduct .enter _ gone rfl] at breaks
        cases brokeAgain : (exited.reaction conduct .enter gone).breakdown with
        | some told =>
            rw [brokeAgain] at breaks
            cases breaks
            exact ⟨true, .head exits (.single enters)⟩
        | none =>
            rw [brokeAgain] at breaks
            cases breaks
  · rw [if_neg here] at breaks
    cases breaks

variable {base : Run β D N} {serial : Serial} {batch : List (Request β)}

/-- A transition that breaks off loses a state on the stack only when this state exits, or when
another one exits as the first thing and this one was to enter next. -/
theorem carryOut_exits
    {transition : Transition β}
    (watched : Stage.Watched base serial ⟨.due transition, batch, run⟩)
    (breaks : carryOut conduct transition run = .error (.brokenOff message) after)
    (pushed : serial ∈ after.machine.stack)
    (gone : after.machine.copies serial = 0) :
    base.Exits after serial ∨
      transition.serial = serial ∧
        ∃ kind other, after.calls = run.calls ++ [(.exit, kind, other)] := by
  cases transition with
  | replace next =>
      obtain ⟨subject, present, rfl⟩ | steps := replaceCurrent_broken batch breaks
      · have exit : Step conduct [] ⟨.due (.replace next), batch, run⟩ _ :=
          .exit subject next present
        have departs := (exit.watched watched).departs trivial pushed gone
        refine departs.imp id fun ⟨arriving, arrives, same⟩ => ?_
        cases arrives
        exact ⟨same, subject.kind, subject.serial, Run.calls_reacted _ conduct .exit subject⟩
      · have departs := (steps.watched watched).departs trivial pushed gone
        exact departs.imp id fun ⟨_, arrives, _⟩ => nomatch arrives
  | reenter kind number =>
      obtain ⟨entered, steps⟩ := reenterCurrent_broken batch breaks
      have departs := (steps.watched watched).departs trivial pushed gone
      exact departs.imp id fun ⟨_, arrives, _⟩ => nomatch arrives

/-- A transition that is submitted is made at once or does not break off. -/
theorem submit_exits
    {transition : Transition β}
    (watched : Stage.Watched base serial ⟨.found transition, batch, run⟩)
    (breaks : submit conduct transition run = .error (.brokenOff message) after)
    (pushed : serial ∈ after.machine.stack)
    (gone : after.machine.copies serial = 0) :
    base.Exits after serial ∨
      transition.serial = serial ∧
        ∃ kind other, after.calls = run.calls ++ [(.exit, kind, other)] := by
  cases mode : run.machine.config.immediate with
  | false =>
      rw [submit_apply_deferred conduct transition run mode] at breaks
      nomatch breaks
  | true =>
      have urge : Step conduct [] ⟨.found transition, batch, run⟩ ⟨.due transition, batch, run⟩ :=
        .urge transition mode
      rw [submit_apply_immediate conduct transition run mode] at breaks
      cases made : carryOut conduct transition run with
      | ok value entered =>
          rw [made] at breaks
          nomatch breaks
      | error cause stopped =>
          rw [made] at breaks
          cases breaks
          exact carryOut_exits (urge.watched watched) made pushed gone

/-- Coming back to a state loses a state on the stack only when this state exits, or when another
one exits as the first thing and the call comes back to this one. -/
theorem popOwn_exits
    (watched : Stage.Watched base serial ⟨.idle, [], run⟩)
    (breaks : popOwn conduct run = .error (.brokenOff message) after)
    (pushed : serial ∈ after.machine.stack)
    (gone : after.machine.copies serial = 0) :
    base.Exits after serial ∨
      run.machine.stack.head? = some serial ∧
        ∃ kind other, after.calls = run.calls ++ [(.exit, kind, other)] := by
  rw [popOwn_apply] at breaks
  cases top : run.machine.stack with
  | nil =>
      rw [top] at breaks
      nomatch breaks
  | cons number below =>
      rw [top] at breaks
      dsimp only at breaks
      cases retrieved : { run.machine with stack := below }.retrieve number with
      | none =>
          rw [retrieved] at breaks
          nomatch breaks
      | some leads =>
          obtain ⟨transition, rest⟩ := leads
          rw [retrieved] at breaks
          dsimp only at breaks
          let found :=
            Run.write { run with machine := rest } (.logged (.popped number below.length))
          have same : transition.serial = number :=
            Machine.retrieve_serial watched.orderly.keyed retrieved
          have finds : Step conduct [.pop] ⟨.idle, [], run⟩ ⟨.found transition, [], found⟩ :=
            .pop number below transition rest top retrieved List.mem_cons_self
          have watchedFound := finds.watched watched
          obtain broke | ⟨outcome, middle, submits, serves⟩ := bind_error breaks
          · obtain exits | ⟨here, kind, other, calls⟩ :=
              submit_exits watchedFound broke pushed gone
            · exact .inl exits
            · refine .inr ⟨congrArg some (same.symm.trans here), kind, other, ?_⟩
              rw [calls, Run.calls_log]
              rfl
          · have steps : Steps conduct [] ⟨.found transition, [], found⟩ ⟨.idle, [], middle⟩ :=
              (submit_follows transition).steps_ok submits
            have serving : Follows conduct []
                (do
                  serveHooks conduct
                  pure (some outcome))
                ⟨.idle, [], middle⟩ (fun _ => .idle) [] [] :=
              serveHooks_follows.bind fun _ _ _ => .pure _
            exact .inl (serving.exits List.not_mem_nil List.not_mem_nil
              (steps.watched watchedFound) serves pushed gone)

/-- The pending transition loses a state on the stack only when this state exits, or when another
one exits as the first thing and this one was to enter next. -/
theorem carryOutPending_exits
    (watched : Stage.Watched base serial ⟨.idle, [], run⟩)
    (breaks : carryOutPending conduct run = .error (.brokenOff message) after)
    (pushed : serial ∈ after.machine.stack)
    (gone : after.machine.copies serial = 0) :
    base.Exits after serial ∨
      run.machine.pendingSerial = some serial ∧
        ∃ kind other, after.calls = run.calls ++ [(.exit, kind, other)] := by
  rw [carryOutPending, bind_apply, takePending_apply] at breaks
  dsimp only at breaks
  cases occupied : run.machine.pending with
  | none =>
      rw [occupied] at breaks
      cases breaks
  | some transition =>
      rw [occupied] at breaks
      have resumes : Step conduct [.resume] ⟨.idle, [], run⟩ ⟨.due transition, [], _⟩ :=
        .resume transition occupied List.mem_cons_self
      have watchedDue := resumes.watched watched
      obtain broke | ⟨_, entered, made, serves⟩ := bind_error breaks
      · refine (carryOut_exits watchedDue broke pushed gone).imp id ?_
        rintro ⟨here, calls⟩
        refine ⟨?_, calls⟩
        rw [Machine.pendingSerial, occupied]
        exact congrArg some here
      · have steps : Steps conduct [] ⟨.due transition, [], _⟩ ⟨.idle, [], entered⟩ :=
          (carryOut_follows transition).steps_ok made
        have serving : Follows conduct [] (serveHooks conduct) ⟨.idle, [], entered⟩
            (fun _ => .idle) [] [] :=
          serveHooks_follows
        exact .inl (serving.exits List.not_mem_nil List.not_mem_nil
          (steps.watched watchedDue) serves pushed gone)

/-- A tick loses a state on the stack only in its own exit or while it was pending. -/
theorem tickOwn_exits
    {delta : Single}
    (watched : Stage.Watched base serial ⟨.idle, [], run⟩)
    (breaks : tickOwn conduct delta run = .error (.brokenOff message) after)
    (pushed : serial ∈ after.machine.stack)
    (gone : after.machine.copies serial = 0) :
    base.Exits after serial ∨
      run.machine.pendingSerial = some serial ∧
        ∃ kind other, after.calls = run.calls ++ [(.exit, kind, other)] := by
  obtain broke | ⟨_, entered, carries, ticks⟩ := bind_error breaks
  · exact carryOutPending_exits watched broke pushed gone
  · have steps : Steps conduct [.resume] ⟨.idle, [], run⟩ ⟨.idle, [], entered⟩ :=
      (carryOutPending_follows List.mem_cons_self).steps_ok carries
    have ticking : Follows conduct [.tick]
        (do
          tickCurrent conduct delta
          serveHooks conduct)
        ⟨.idle, [], entered⟩ (fun _ => .idle) [] [] :=
      (tickCurrent_follows List.mem_cons_self delta).bind fun _ _ _ => serveHooks_follows
    exact .inl (ticking.exits (by decide) (by decide) (steps.watched watched) ticks pushed gone)

end Kernel

/-! ## Operations -/

/-- The state with a number was to enter next in an operation that has served what was posted: the
operation comes back to it, or its time has come with a tick. -/
def Operation.Brings (operation : Operation β D) (drained : Run β D N) (serial : Serial) : Prop :=
  operation = .pop ∧ drained.machine.stack.head? = some serial ∨
    (∃ delta, operation = .tick delta) ∧ drained.machine.pendingSerial = some serial

/-- An operation in which a hook breaks off loses a state on the stack only when this state exits,
or when another one exits as the first thing and this one was to enter next. -/
theorem Kernel.perform_exits
    {conduct : Conduct β D N}
    {operation : Operation β D}
    {base run after : Run β D N}
    {serial : Serial}
    {message : String}
    (watched : Stage.Watched base serial ⟨.idle, [], run⟩)
    (breaks : perform conduct operation run = .error (.brokenOff message) after)
    (pushed : serial ∈ after.machine.stack)
    (gone : after.machine.copies serial = 0) :
    base.Exits after serial ∨
      ∃ drained kind other,
        serveHandles conduct run = .ok () drained ∧
        after.calls = drained.calls ++ [(.exit, kind, other)] ∧
        operation.Brings drained serial := by
  have serving : Follows conduct [.serve] (serveHandles conduct) ⟨.idle, [], run⟩
      (fun _ => .idle) [] [] :=
    serveHandles_follows List.mem_cons_self
  have watchedThen (drained : Run β D N) (drains : serveHandles conduct run = .ok () drained) :
      Stage.Watched base serial ⟨.idle, [], drained⟩ :=
    (serving.steps_ok drains).watched watched
  cases operation with
  | pop =>
      obtain broke | ⟨_, _, _, answers⟩ := bind_error breaks
      · have parts : pop conduct = (do serveHandles conduct; popOwn conduct) := rfl
        rw [parts] at broke
        obtain stopped | ⟨_, drained, drains, works⟩ := bind_error broke
        · exact .inl (serving.exits (by decide) (by decide) watched stopped pushed gone)
        · refine (popOwn_exits (watchedThen drained drains) works pushed gone).imp id ?_
          rintro ⟨top, kind, other, calls⟩
          exact ⟨drained, kind, other, drains, calls, .inl ⟨rfl, top⟩⟩
      · cases answers
  | tick delta =>
      obtain broke | ⟨_, _, _, answers⟩ := bind_error breaks
      · cases valid : delta.isNaN || delta.isNegative with
        | true =>
            rw [tick, valid] at broke
            cases broke
        | false =>
            rw [tick_eq conduct delta valid] at broke
            obtain stopped | ⟨_, drained, drains, works⟩ := bind_error broke
            · exact .inl (serving.exits (by decide) (by decide) watched stopped pushed gone)
            · refine (tickOwn_exits (watchedThen drained drains) works pushed gone).imp id ?_
              rintro ⟨waiting, kind, other, calls⟩
              exact ⟨drained, kind, other, drains, calls, .inr ⟨⟨delta, rfl⟩, waiting⟩⟩
      · cases answers
  | _ =>
      exact .inl ((perform_follows _).exits (by simp [Operation.deeds]) (by simp [Operation.deeds])
        watched breaks pushed gone)

/-- At a moment a hook breaks off, and it is an exit hook.  Either the state with the number has
just exited, or nothing else was called since the requests that were posted had been served, and the
state with the number was to enter next. -/
def Moment.Loses (conduct : Conduct β D N) (serial : Serial) (moment : Moment β D N) : Prop :=
  (∃ message, moment.answer conduct = .error (.brokenOff message)) ∧
    (moment.run.Exits (moment.after conduct) serial ∨
      ∃ drained kind other,
        Kernel.serveHandles conduct { moment.run with now := moment.now } = .ok () drained ∧
        (moment.after conduct).calls = drained.calls ++ [(.exit, kind, other)] ∧
        moment.operation.Brings drained serial)

/-- A state on the stack that the machine still had is lost only at such a moment. -/
theorem Moment.loses
    {conduct : Conduct β D N}
    {serial : Serial}
    (moment : Moment β D N)
    (orderly : Stage.Orderly ⟨.idle, [], moment.run⟩)
    (noted : Stage.Noted ⟨.idle, [], moment.run⟩)
    (kept : serial ∈ moment.run.machine.stack → 1 ≤ moment.run.machine.copies serial)
    (pushed : serial ∈ (moment.after conduct).machine.stack)
    (gone : (moment.after conduct).machine.copies serial = 0) :
    moment.Loses conduct serial := by
  obtain ⟨run, now, operation⟩ := moment
  have watched : Stage.Watched run serial ⟨.idle, [], { run with now := now }⟩ :=
    .start orderly noted kept now
  have course := run.perform_course conduct now operation
  have stays (phase : Phase β) (none_moves : phase.copies serial = 0)
      (steps : Steps conduct operation.deeds ⟨.idle, [], { run with now := now }⟩
        ⟨phase, [], (run.perform conduct now operation).2⟩) : False := by
    have still : 1 ≤ phase.copies serial +
        (run.perform conduct now operation).2.machine.copies serial :=
      (steps.watched watched).kept pushed
    have left : (run.perform conduct now operation).2.machine.copies serial = 0 := gone
    omega
  cases answer : (run.perform conduct now operation).1 with
  | ok reply =>
      rw [answer] at course
      exact (stays .idle rfl course).elim
  | error cause =>
      rw [answer] at course
      cases cause with
      | refused refusal =>
          refine (stays refusal.phase ?_ course).elim
          cases refusal <;> rfl
      | brokenOff message =>
          have breaks : Kernel.perform conduct operation { run with now := now } =
              .error (.brokenOff message) (run.perform conduct now operation).2 := by
            rw [run.kernel_perform conduct now operation, answer]
          exact ⟨⟨message, answer⟩, Kernel.perform_exits watched breaks pushed gone⟩

/-- A state on the stack that is nowhere in the machine was lost at some moment in the past. -/
theorem Onward.lost
    {id : MachineId}
    {config : Config}
    {registry : Registry β}
    {data : D}
    {origin : Machine β D}
    {conduct : Conduct β D N}
    {past : List (Moment β D N)}
    {run : Run β D N}
    {start : Instant}
    (made : Machine.make id config registry data = .ok origin)
    (onward : Onward conduct ⟨origin, ∅, #[], start⟩ past run)
    {serial : Serial}
    (pushed : serial ∈ run.machine.stack)
    (gone : run.machine.copies serial = 0) :
    ∃ moment ∈ past, moment.Loses conduct serial := by
  induction onward with
  | stay =>
      rw [Machine.eq_idle_of_make made] at pushed
      nomatch pushed
  | @perform past run now operation onward inductionHypothesis =>
      by_cases before : serial ∈ run.machine.stack ∧ run.machine.copies serial = 0
      · obtain ⟨moment, member, loses⟩ := inductionHypothesis before.1 before.2
        exact ⟨moment, List.mem_append_left _ member, loses⟩
      · have reached : Reachable conduct (fun _ => True) origin run :=
          onward.reachable (fun _ _ => trivial) (.start start)
        obtain ⟨orderly, noted⟩ := (noted_lasting conduct (fun _ => True) made).reachable reached
        refine ⟨⟨run, now, operation⟩, List.mem_append_right _ List.mem_cons_self, ?_⟩
        refine Moment.loses _ orderly noted (fun on => ?_) pushed gone
        exact Nat.one_le_iff_ne_zero.mpr fun nowhere => before ⟨on, nowhere⟩
  | rearrange hands _ kept inductionHypothesis => exact inductionHypothesis pushed gone

end TickMachine
