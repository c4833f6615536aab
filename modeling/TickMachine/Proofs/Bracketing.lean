import TickMachine.Proofs.Reachable

/-!
# Bracketing of hooks

A journal tells which state is open: the one that has been entered last and has not exited since.
As long as no hook breaks off, a state is entered only when none is open, it is ticked, asked to
restart and exited only while it is the open one, and between two operations the open state is
the current one.
-/

namespace TickMachine

variable {β D N : Type}

/-- The state that is open after an entry of the journal, unless the entry is a call of a hook out
of order. -/
def Entry.bracket (opened : Option (Kind × Serial)) :
    Entry β N → Option (Option (Kind × Serial))
  | .called .enter kind serial =>
      if opened = none then some (some (kind, serial)) else none
  | .called .exit kind serial =>
      if opened = some (kind, serial) then some none else none
  | .called _ kind serial =>
      if opened = some (kind, serial) then some opened else none
  | _ => some opened

/-- The state that is open after a journal, unless some call of a hook in it is out of order. -/
def openAfter (journal : Array (Entry β N)) : Option (Option (Kind × Serial)) :=
  journal.toList.foldlM Entry.bracket none

@[simp] theorem openAfter_push (journal : Array (Entry β N)) (entry : Entry β N) :
    openAfter (journal.push entry) =
      (openAfter journal).bind fun opened => entry.bracket opened := by
  simp [openAfter]

/-- Only calls of hooks open and close states. -/
theorem Entry.bracket_of_not_isCall
    (entry : Entry β N)
    (quiet : ¬ entry.IsCall)
    (opened : Option (Kind × Serial)) :
    entry.bracket opened = some opened := by
  cases entry with
  | called hook kind serial => exact absurd trivial quiet
  | _ => rfl

/-- What hooks report does not open or close anything. -/
@[simp] theorem openAfter_append_noted (journal : Array (Entry β N)) (notes : List N) :
    openAfter (journal ++ (notes.map Entry.noted : List (Entry β N))) = openAfter journal := by
  induction notes generalizing journal with
  | nil => simp
  | cons note more inductionHypothesis =>
      rw [List.map_cons, Array.appendList_cons, inductionHypothesis, openAfter_push]
      cases openAfter journal <;> rfl

namespace Run

theorem openAfter_write
    (run : Run β D N)
    (entry : Entry β N)
    (quiet : ¬ entry.IsCall) :
    openAfter (run.write entry).journal = openAfter run.journal := by
  rw [write_journal, openAfter_push]
  have same : (fun opened => entry.bracket opened) = some :=
    funext (entry.bracket_of_not_isCall quiet)
  rw [same, Option.bind_fun_some]

theorem openAfter_log (run : Run β D N) (event : LogEvent) :
    openAfter (run.write (.logged event)).journal = openAfter run.journal :=
  run.openAfter_write (.logged event) not_false

@[simp] theorem openAfter_released (run : Run β D N) (subject : Instance β) :
    openAfter (run.released subject).journal = openAfter run.journal := by
  unfold released
  split
  · exact openAfter_log _ _
  · exact openAfter_log _ _

@[simp] theorem openAfter_counted (run : Run β D N) (kind : Kind) :
    openAfter (run.counted kind).journal = openAfter run.journal :=
  openAfter_log _ _

/-- A reaction opens or closes a state as its hook says, whatever it reports. -/
@[simp] theorem openAfter_reacted
    (run : Run β D N)
    (conduct : Conduct β D N)
    (hook : Hook)
    (subject : Instance β) :
    openAfter (run.reacted conduct hook subject).journal =
      (openAfter run.journal).bind fun opened =>
        (Entry.called hook subject.kind subject.serial : Entry β N).bracket opened := by
  rw [reacted, openAfter_append_noted, openAfter_push]

@[simp] theorem openAfter_hooked
    (run : Run β D N)
    (conduct : Conduct β D N)
    (hook : Hook)
    (subject : Instance β) :
    openAfter (run.hooked conduct hook subject).journal =
      (openAfter run.journal).bind fun opened =>
        (Entry.called hook subject.kind subject.serial : Entry β N).bracket opened :=
  run.openAfter_reacted conduct hook subject

end Run

/-! ## The open state of a stage -/

namespace Stage

/-- The state that is open at a stage.  It is the current one, unless this has exited in order to
enter again. -/
def openState (stage : Stage β D N) : Option (Kind × Serial) :=
  match stage.phase with
  | .reentering _ _ false => none
  | _ => stage.run.machine.current.map Instance.identity

/-- All calls of hooks up to a stage are in order and leave its open state open. -/
def Bracketed (stage : Stage β D N) : Prop :=
  openAfter stage.run.journal = some stage.openState

end Stage

/-- No step calls a hook out of order. -/
theorem Step.bracketed
    {conduct : Conduct β D N}
    {deeds : List Deed}
    {before after : Stage β D N}
    (step : Step conduct deeds before after)
    (bracketed : before.Bracketed) :
    after.Bracketed := by
  unfold Stage.Bracketed at bracketed ⊢
  cases step with
  | write entry quiet => rwa [Run.openAfter_write _ entry quiet]
  | make kind behavior concrete => rwa [Run.openAfter_counted]
  | create kind behavior slot => exact (Run.openAfter_counted _ kind).trans bracketed
  | letGo | release => simpa [Stage.openState] using bracketed
  | pause paused =>
      rw [Stage.openState] at bracketed ⊢
      rw [Run.withCurrent_current, Instance.map_identity_paused]
      exact bracketed
  | take destination request taken =>
      rw [Stage.openState] at bracketed ⊢
      rw [Run.take_machine, Run.take_journal]
      exact bracketed
  | pop serial below transition rest top retrieved =>
      obtain ⟨_, _, rfl⟩ := Machine.retrieve_frame retrieved
      exact (Run.openAfter_log _ _).trans bracketed
  | skip kind serial elsewhere => exact (Run.openAfter_log _ _).trans bracketed
  | tick subject _ present | restart subject present | exitInPlace _ subject present =>
      rw [Run.openAfter_hooked, bracketed, Stage.openState, present]
      exact if_pos rfl
  | exit subject _ present | leave subject present =>
      rw [Run.openAfter_reacted, Run.withCurrent_journal, bracketed, Stage.openState, present]
      exact if_pos rfl
  | enter next absent =>
      rw [Run.openAfter_hooked, Run.entering_journal, bracketed, Stage.openState, absent]
      rfl
  | enterAgain kind subject present =>
      rw [Run.openAfter_hooked, bracketed]
      rfl
  | _ => exact bracketed

/-- As long as no hook breaks off, the open state is the current one. -/
theorem bracketed_lasting
    (conduct : Conduct β D N)
    (origin : Machine β D)
    (vacant : origin.current = none) :
    Lasting conduct Unbroken origin Stage.Bracketed where
  start now := by
    rw [Stage.Bracketed, Stage.openState, vacant]
    rfl
  step _ _ step bracketed := step.bracketed bracketed
  clock _ _ bracketed := bracketed
  rearrange _ _ _ bracketed := bracketed
  refused _ _ bracketed := bracketed
  broken _ _ _ _ unbroken := unbroken.elim

/-- Hooks are well bracketed, and the current state is the open one.  This holds after all
operations of a machine, whatever they answered, as long as no hook broke off. -/
theorem hooks_bracketed
    {id : MachineId}
    {config : Config}
    {registry : Registry β}
    {data : D}
    {origin : Machine β D}
    {conduct : Conduct β D N}
    {run : Run β D N}
    (made : Machine.make id config registry data = .ok origin)
    (reached : Reachable conduct Unbroken origin run) :
    openAfter run.journal = some (run.machine.current.map Instance.identity) :=
  (bracketed_lasting conduct origin (by rw [Machine.eq_idle_of_make made]; rfl)).reachable reached

/-- The hooks of a relay that has been shut down. -/
theorem hooks_bracketed_relay :
    openAfter ((relayStarted true).perform Actor.conduct .epoch .shutdown).2.journal =
      some (some (⟨2⟩, ⟨2⟩)) := by
  have reached : Reachable Actor.conduct Unbroken (relay true)
      ((relayStarted true).perform Actor.conduct .epoch .shutdown).2 :=
    .perform _ _ (relayStarted_reachable true) (by decide +kernel)
  rw [hooks_bracketed (relay_made true) reached]
  decide +kernel

end TickMachine
