import TickMachine.Proofs.Chain
import TickMachine.Proofs.Queue

/-!
# Shutdown with a shutdown state

A machine with a shutdown state is shut down by a switch to this state.  A shutdown announces
itself in the journal before that, and it serves the inbox once more, in which nothing waits by
then.  Nothing that happens afterwards depends on either.
-/

namespace TickMachine

variable {β D N : Type}

/-! ## Announcements -/

/-- Whether a journal entry announces that a shutdown asks for the shutdown state. -/
def Entry.isAnnouncement : Entry β N → Bool
  | .logged (.shuttingDown _ _) => true
  | _ => false

/-- A journal without the announcements of shutdowns. -/
def unannounced (journal : Array (Entry β N)) : List (Entry β N) :=
  journal.toList.filter fun entry => !entry.isAnnouncement

theorem unannounced_push (journal : Array (Entry β N)) (entry : Entry β N) :
    unannounced (journal.push entry) = unannounced journal ++ unannounced #[entry] := by
  simp only [unannounced, Array.toList_push, List.filter_append]

/-- An announcement is no call of a hook. -/
theorem Entry.not_isCall_of_isAnnouncement
    (entry : Entry β N)
    (announcement : entry.isAnnouncement = true) :
    ¬ entry.IsCall := by
  cases entry with
  | called hook kind serial => nomatch announcement
  | _ => exact not_false

/-- Two runs are equal apart from announcements and from the times that their clocks tell. -/
structure Echoes (left right : Run β D N) : Prop where
  /-- If the journals were the same, the runs would be alike. -/
  alike : Alike .timeless left { right with journal := left.journal }
  journal : unannounced right.journal = unannounced left.journal

namespace Echoes

variable {left right : Run β D N}

/-- One run at two times. -/
theorem clocks (run : Run β D N) (now later : Instant) :
    Echoes { run with now := now } { run with now := later } where
  alike := (Alike.refl run).clock now later
  journal := rfl

theorem write
    (echoes : Echoes left right)
    (entry : Entry β N) :
    Echoes (left.write entry) (right.write entry) where
  alike := echoes.alike.write entry
  journal := by
    rw [Run.write_journal, Run.write_journal, unannounced_push, unannounced_push, echoes.journal]

/-- An announcement in one of the journals does not count. -/
theorem announced
    (echoes : Echoes left right)
    (kind : Kind) :
    Echoes left (right.announced kind) where
  alike := echoes.alike
  journal := by
    rw [Run.announced, Run.write_journal, unannounced_push, echoes.journal]
    exact List.append_nil _

/-- Runs that echo each other show the same to everything that operations are composed of. -/
theorem kinship (conduct : Conduct β D N) :
    Kinship conduct (Echoes : Run β D N → Run β D N → Prop) where
  shown echoes := by
    have shown := (Alike.bond .timeless).shown echoes.alike
    exact shown
  hands echoes := echoes.alike.hands
  write entry echoes := echoes.write entry
  change change isLocal echoes :=
    ⟨(Alike.bond .timeless).change change isLocal echoes.alike, echoes.journal⟩
  recorded source target subject echoes :=
    ⟨echoes.alike.recorded source target subject, echoes.journal⟩
  same echoes := by
    have same := (Alike.kinship Likeness.timeless_steady conduct).same echoes.alike
    exact same
  inner change isInner echoes :=
    ⟨(Alike.kinship Likeness.timeless_steady conduct).inner change isInner echoes.alike,
      echoes.journal⟩
  handle hands echoes :=
    ⟨(Alike.kinship Likeness.timeless_steady conduct).handle hands echoes.alike, echoes.journal⟩
  spared hook left right subject echoes := by
    have reaction : right.reaction conduct hook subject = left.reaction conduct hook subject :=
      (Alike.bond .timeless).reaction echoes.alike hook subject
    have reacted := Alike.spared .timeless conduct hook subject echoes.alike
    refine ⟨⟨reacted.machine, reacted.hands, rfl⟩, ?_⟩
    have journal := echoes.journal
    rw [Run.reacted, Run.reacted, reaction]
    simp only [unannounced, Array.toList_appendList, Array.toList_push, List.filter_append] at *
    rw [journal]

/-- Both machines call the same hooks. -/
theorem calls (echoes : Echoes left right) : right.calls = left.calls := by
  have known (run : Run β D N) : run.calls = (unannounced run.journal).filterMap Entry.call? :=
    run.calls_eq_filter Entry.isAnnouncement Entry.not_isCall_of_isAnnouncement
  rw [known, known, echoes.journal]

end Echoes

/-! ## The call -/

namespace Call

variable (conduct : Conduct β D N)

/-- When nothing was posted, a shutdown announces itself and then switches. -/
theorem work_shutdown
    {run : Run β D N}
    {kind : Kind}
    (terminal : run.machine.config.shutdown = some kind)
    (empty : run.machine.inbox = []) :
    shutdown.work conduct run = (switchTo (.fresh kind)).work conduct (run.announced kind) := by
  rw [work, work, ← bind_pure_comp, ← bind_pure_comp, Kernel.bind_apply, Kernel.bind_apply,
    Kernel.shutdownOwn_apply_some conduct terminal empty, ← bind_pure_comp, Kernel.bind_apply]
  cases Kernel.switchOwn conduct (.fresh kind) (run.announced kind) <;> rfl

/-- A shutdown ends like a switch to the shutdown state. -/
theorem shutdown_echoes
    {left right : Run β D N}
    {kind : Kind}
    (terminal : right.machine.config.shutdown = some kind)
    (echoes : Echoes left right) :
    Ends Echoes ((switchTo (.fresh kind)).perform conduct left)
      (shutdown.perform conduct right) := by
  have kinship := Echoes.kinship conduct
  have serves := Kernel.Composed.serveHandles.parallel kinship echoes
  rw [perform_eq, perform_eq, Kernel.bind_apply, Kernel.bind_apply]
  generalize Kernel.serveHandles conduct left = ended,
    served : Kernel.serveHandles conduct right = other at serves ⊢
  cases serves with
  | error cause together => exact .error cause together
  | @ok _ drained final together =>
      have config := (Kernel.Composed.serveHandles.fixing served).2
      have terminalStill : final.machine.config.shutdown = some kind := by rw [config, terminal]
      dsimp only
      rw [work_shutdown conduct terminalStill (Kernel.serveHandles_ok conduct served)]
      exact (Kernel.Composed.work (.switchTo (.fresh kind))).parallel kinship
        (together.announced kind)

end Call

/-- At whatever times, a shutdown and a switch to the shutdown state give the same answer. -/
theorem perform_shutdown_echoes
    (conduct : Conduct β D N)
    (run : Run β D N)
    (now later : Instant)
    {kind : Kind}
    (terminal : run.machine.config.shutdown = some kind) :
    (run.perform conduct later .shutdown).1 =
        (run.perform conduct now (.switchTo (.fresh kind))).1 ∧
      Echoes (run.perform conduct now (.switchTo (.fresh kind))).2
        (run.perform conduct later .shutdown).2 := by
  have ends : Ends Echoes (Kernel.perform conduct (.switchTo (.fresh kind)) { run with now := now })
      (Kernel.perform conduct .shutdown { run with now := later }) := by
    rw [(Kernel.perform_of_call conduct rfl).1, (Kernel.perform_of_call conduct rfl).1]
    exact Call.shutdown_echoes conduct terminal (Echoes.clocks run now later)
  unfold Run.perform
  generalize Kernel.perform conduct (.switchTo (.fresh kind)) { run with now := now } = ended,
    Kernel.perform conduct .shutdown { run with now := later } = other at ends ⊢
  cases ends with
  | ok reply echoes => exact ⟨rfl, echoes⟩
  | error cause echoes => exact ⟨rfl, echoes⟩

/-! ## The request for the shutdown state -/

/-- A machine can only be made with a shutdown state that has a prototype. -/
theorem Machine.prototype_of_make
    {id : MachineId}
    {config : Config}
    {registry : Registry β}
    {data : D}
    {origin : Machine β D}
    {kind : Kind}
    (made : make id config registry data = .ok origin)
    (configured : config.shutdown = some kind) :
    ∃ behavior, registry.prototype kind = .ok behavior := by
  rw [← registry.isConcrete_iff_prototype]
  unfold make Config.accept at made
  split at made
  · nomatch made
  next accepted judged =>
    split at judged
    · nomatch judged
    · cases judged
      split at made
      · nomatch made
      next unfiltered =>
        by_contra abstract
        rw [configured, Option.filter_some, if_pos (by simpa using abstract)] at unfiltered
        nomatch unfiltered

/-- The request for a kind with a prototype is never refused. -/
theorem Request.refusal?_of_prototype
    {machine : Machine β D}
    {kind : Kind}
    {behavior : β}
    (known : machine.registry.prototype kind = .ok behavior) :
    (Request.fresh kind).refusal? machine = none := by
  rw [refusal?, known]

/-- A machine with a shutdown state is shut down by a switch to this state, whatever waits in the
inbox or is pending: the answers are the same, the same hooks are called in the same order, and the
machines are equal up to the times in their histories.  The request for the shutdown state can be
taken up, both as the machine is and when what was posted through handles has been served. -/
theorem shutdown_is_switch
    {conduct : Conduct β D N}
    {permitted : Except Interruption Reply → Prop}
    {id : MachineId}
    {config : Config}
    {registry : Registry β}
    {data : D}
    {origin : Machine β D}
    {run : Run β D N}
    {kind : Kind}
    (made : Machine.make id config registry data = .ok origin)
    (configured : config.shutdown = some kind)
    (reached : Reachable conduct permitted origin run)
    (now later : Instant) :
    let switched := run.perform conduct now (.switchTo (.fresh kind))
    let stopped := run.perform conduct later .shutdown
    stopped.1 = switched.1 ∧
      stopped.2.calls = switched.2.calls ∧
      unannounced stopped.2.journal = unannounced switched.2.journal ∧
      Likeness.timeless.Machines switched.2.machine stopped.2.machine ∧
      stopped.2.hands = switched.2.hands ∧
      (∀ asker, ∃ transition after,
        Kernel.takeUp asker (.fresh kind) run = .ok transition after) ∧
      (∀ served, Kernel.serveHandles conduct { run with now := later } = .ok () served →
        ∃ transition after, Kernel.takeUp .caller (.fresh kind) served = .ok transition after) := by
  intro switched stopped
  obtain ⟨-, sameConfig, sameRegistry⟩ := (fixed_lasting conduct permitted made).reachable reached
  have terminal : run.machine.config.shutdown = some kind := by rw [sameConfig, configured]
  obtain ⟨behavior, known⟩ := Machine.prototype_of_make made configured
  obtain ⟨answer, echoes⟩ := perform_shutdown_echoes conduct run now later terminal
  refine ⟨answer, echoes.calls, echoes.journal, echoes.alike.machine, echoes.alike.hands,
    fun asker => ?_, fun served serves => ?_⟩
  · rw [← sameRegistry] at known
    exact Kernel.takeUp_resolved asker (Request.refusal?_of_prototype known)
  · have steps : Steps conduct [.serve] ⟨.idle, [], { run with now := later }⟩
        ⟨.idle, [], served⟩ :=
      (Kernel.serveHandles_follows List.mem_cons_self).steps_ok serves
    have registryThen : served.machine.registry = registry :=
      steps.fixed.2.2.trans sameRegistry
    rw [← registryThen] at known
    exact Kernel.takeUp_resolved .caller (Request.refusal?_of_prototype known)

/-- A relay that is shut down into its second kind. -/
def farewell : Machine Actor Meter :=
  .idle ⟨1⟩ { immediate := true, shutdown := some ⟨2⟩ } (relay true).registry .zero

/-- The run of a farewell on which a state of the first kind was entered and another one has been
posted. -/
def farewellPosted : Run Actor Meter Note :=
  (Run.performAll Actor.conduct ⟨farewell, ∅, #[], .epoch⟩
    [(.epoch, .switchTo (.fresh ⟨1⟩)), (.epoch, .post (.fresh ⟨1⟩))]).2

/-- A farewell that is shut down serves what was posted and ends in a state of its second kind, as
if it had been asked for. -/
theorem shutdown_is_switch_farewell :
    farewellPosted.machine.inbox.length = 1 ∧
      (farewellPosted.perform Actor.conduct .epoch .shutdown).2.machine.currentKind = some ⟨2⟩ ∧
      (farewellPosted.perform Actor.conduct .epoch .shutdown).1 =
        (farewellPosted.perform Actor.conduct .epoch (.switchTo (.fresh ⟨2⟩))).1 ∧
      (farewellPosted.perform Actor.conduct .epoch .shutdown).2.calls =
        (farewellPosted.perform Actor.conduct .epoch (.switchTo (.fresh ⟨2⟩))).2.calls := by
  have made : Machine.make ⟨1⟩ { immediate := true, shutdown := some ⟨2⟩ } (relay true).registry
      .zero = .ok farewell := rfl
  have reached : Reachable Actor.conduct (fun _ => True) farewell farewellPosted :=
    (Reachable.start .epoch).performAll _
  obtain ⟨answer, calls, -⟩ := shutdown_is_switch made rfl reached .epoch .epoch
  exact ⟨by decide +kernel, by decide +kernel, answer, calls⟩

end TickMachine
