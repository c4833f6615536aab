import TickMachine.Proofs.Deferral

/-!
# Transitions in the journal

The journal tells of each exit hook and each enter hook that is called, and of the end of each
transition.  A transition in which no hook breaks off adds one of three scores of such beats: a
state is replaced by another one or enters again, or a state is entered where none was current, or
the current state exits for good.  If a hook breaks off, the score stops there.
-/

namespace TickMachine

variable {β D N α γ : Type}

/-! ## Beats -/

/-- What the journal tells of a transition. -/
inductive Beat where
  /-- An exit hook is called. -/
  | exit
  /-- An enter hook is called. -/
  | enter
  /-- The transition is over. -/
  | over
deriving DecidableEq

/-- The beat that the call of a hook is. -/
def Hook.beat? : Hook → Option Beat
  | .exit => some .exit
  | .enter => some .enter
  | _ => none

/-- The beat that an entry tells of. -/
def Entry.beat? : Entry β N → Option Beat
  | .called hook _ _ => hook.beat?
  | .logged (.entered _ _ _) | .logged (.reentered _ _) | .logged (.shutDown _ _) => some .over
  | _ => none

namespace Beat

/-- The beats of a transition: a state is replaced by another one or enters again, or a state is
entered where none was current, or the current state exits for good. -/
def scores : List (List Beat) :=
  [[.exit, .enter, .over], [.enter, .over], [.exit, .over]]

end Beat

namespace Run

/-- What the journal tells of transitions. -/
def beats (run : Run β D N) : List Beat :=
  run.journal.toList.filterMap Entry.beat?

theorem beats_write (run : Run β D N) (entry : Entry β N) :
    (run.write entry).beats = run.beats ++ entry.beat?.toList := by
  cases told : entry.beat? <;> simp [beats, told]

/-- An entry that tells of no transition. -/
theorem beats_write_none
    (run : Run β D N)
    {entry : Entry β N}
    (silent : entry.beat? = none) :
    (run.write entry).beats = run.beats := by
  rw [beats_write, silent]
  exact List.append_nil _

theorem beats_released (run : Run β D N) (subject : Instance β) :
    (run.released subject).beats = run.beats := by
  unfold released
  split
  · exact run.beats_write_none rfl
  · exact run.beats_write_none rfl

theorem beats_letGone (run : Run β D N) (transition : Transition β) :
    (run.letGone transition).beats = run.beats := by
  cases transition with
  | replace next => exact run.beats_released next
  | reenter kind serial => rfl

theorem beats_pendingDropped (run : Run β D N) : run.pendingDropped.beats = run.beats := by
  unfold pendingDropped
  split
  · rfl
  · rw [beats_letGone]
    exact beats_write_none _ rfl

theorem beats_deferred (run : Run β D N) (transition : Transition β) :
    (run.deferred transition).beats = run.beats := by
  unfold deferred
  dsimp only
  rw [beats_write_none _ rfl]
  split
  · rfl
  · split
    · exact beats_letGone _ _
    · rw [beats_write_none _ rfl]
      exact beats_letGone _ _

/-- What a hook reports tells of no transition. -/
theorem beats_reacted
    (run : Run β D N)
    (conduct : Conduct β D N)
    (hook : Hook)
    (subject : Instance β) :
    (run.reacted conduct hook subject).beats = run.beats ++ hook.beat?.toList := by
  have notes (reported : List N) :
      (reported.map (Entry.noted : N → Entry β N)).filterMap Entry.beat? = [] := by
    simp [List.filterMap_map, Entry.beat?, Function.comp_def]
  cases told : hook.beat? <;> simp [beats, reacted, notes, Entry.beat?, told]

end Run

/-! ## What programs add to the journal -/

namespace Kernel

/-- A program adds the beats of a score to the journal, or the first ones of them if it is
interrupted. -/
def Plays (score : List Beat) (program : Kernel β D N α) (run : Run β D N) : Prop :=
  match program run with
  | .ok _ after => after.beats = run.beats ++ score
  | .error _ after => ∃ part, part <+: score ∧ after.beats = run.beats ++ part

namespace Plays

variable {score : List Beat} {program : Kernel β D N α} {run : Run β D N}

/-- A program that ends with a hook has played its score, even if the hook broke off. -/
theorem of_ended
    {value : α}
    {breakdown : Option String}
    {after : Run β D N}
    (ends : program run = ended breakdown value after)
    (played : after.beats = run.beats ++ score) :
    Plays score program run := by
  unfold Plays
  rw [ends]
  cases breakdown with
  | none => exact played
  | some message => exact ⟨score, List.prefix_rfl, played⟩

theorem of_ok
    {value : α}
    {after : Run β D N}
    (ends : program run = .ok value after)
    (played : after.beats = run.beats ++ score) :
    Plays score program run := by
  unfold Plays
  rw [ends]
  exact played

theorem log (event : LogEvent) :
    Plays (Entry.logged event : Entry β N).beat?.toList (Kernel.log event) run :=
  .of_ok rfl (run.beats_write _)

/-- However the program ends, it tells of no transition. -/
theorem quiet (same : (program.final run).beats = run.beats) : Plays [] program run := by
  unfold final at same
  unfold Plays
  cases ends : program run with
  | ok value after =>
      rw [ends] at same
      rw [List.append_nil]
      exact same
  | error cause after =>
      rw [ends] at same
      refine ⟨[], List.prefix_rfl, ?_⟩
      rw [List.append_nil]
      exact same

theorem pure (value : α) : Plays [] (Pure.pure value : Kernel β D N α) run :=
  .quiet rfl

/-- A program that starts with a look at the machine. -/
theorem machine
    {next : Machine β D → Kernel β D N α}
    (plays : Plays score (next run.machine) run) :
    Plays score (Kernel.machine >>= next) run :=
  plays

/-- One program after another plays one score after the other. -/
theorem bind
    {next : α → Kernel β D N γ}
    {late : List Beat}
    (first : Plays score program run)
    (rest : ∀ value after, program run = .ok value after → Plays late (next value) after) :
    Plays (score ++ late) (program >>= next) run := by
  unfold Plays at first ⊢
  rw [bind_apply]
  cases ends : program run with
  | error cause after =>
      rw [ends] at first
      obtain ⟨part, begins, played⟩ := first
      exact ⟨part, begins.trans (List.prefix_append score late), played⟩
  | ok value middle =>
      rw [ends] at first
      have goes := rest value middle ends
      unfold Plays at goes
      dsimp only at first ⊢
      cases endsThen : next value middle with
      | ok value after =>
          rw [endsThen] at goes
          dsimp only at goes ⊢
          rw [goes, first, List.append_assoc]
      | error cause after =>
          rw [endsThen] at goes
          obtain ⟨part, begins, played⟩ := goes
          refine ⟨score ++ part, (List.prefix_append_right_inj score).mpr begins, ?_⟩
          rw [played, first, List.append_assoc]

/-- A program that goes on as another program does from a run with the same beats. -/
theorem advance
    {start : Run β D N}
    {rest : Kernel β D N α}
    (plays : Plays score rest start)
    (same : program run = rest start)
    (idle : start.beats = run.beats) :
    Plays score program run := by
  unfold Plays at plays ⊢
  rw [same, ← idle]
  exact plays

end Plays

/-! ## Single transitions -/

section Transitions

variable (conduct : Conduct β D N) (run : Run β D N)

theorem release_quiet (previous : Option (Instance β)) :
    Plays [] (release previous : Kernel β D N Unit) run := by
  cases previous with
  | none => exact .pure ()
  | some previous =>
      refine .of_ok (parkOrDrop_apply previous run) ?_
      rw [Run.beats_released, List.append_nil]

theorem addToHistory_quiet (source target : Option Kind) (subject : Option Serial) :
    Plays [] (addToHistory source target subject : Kernel β D N Unit) run :=
  .of_ok rfl (List.append_nil _).symm

/-- A hook of the current state is one beat, if it belongs to a transition. -/
theorem callCurrent_plays
    (hook : Hook)
    {subject : Instance β}
    (present : run.machine.current = some subject) :
    Plays hook.beat?.toList (callCurrent conduct hook) run :=
  .of_ended (callCurrent_apply_some conduct hook run subject present)
    (run.beats_reacted conduct hook subject)

theorem exitCurrent_plays
    {subject : Instance β}
    (present : run.machine.current = some subject) :
    Plays [.exit] (exitCurrent conduct) run :=
  .of_ended (exitCurrent_apply_some conduct run subject present)
    ((run.withCurrent none).beats_reacted conduct .exit subject)

/-- The enter hook is called before the transition is over. -/
theorem arrive_plays (source : Option Kind) (name : String) (next : Instance β) :
    Plays [.enter, .over] (arrive conduct source name next) run := by
  have enters (run : Run β D N) : Plays [.enter] (enterNext conduct next) run :=
    .of_ended (enterNext_apply conduct next run)
      ((run.entering next).beats_reacted conduct .enter next)
  exact (addToHistory_quiet run _ _ _).bind fun _ _ _ => (enters _).bind fun _ _ _ => .log _

/-- A replacement plays one of the scores of a transition. -/
theorem replaceCurrent_plays (next : Instance β) :
    ∃ score ∈ Beat.scores, Plays score (replaceCurrent conduct next) run := by
  rw [replaceCurrent_eq]
  have goes (previous : Option (Instance β)) (middle : Run β D N) :
      Plays [.enter, .over]
        (do
          release previous
          arrive conduct run.machine.currentKind (run.machine.shownName next.kind) next)
        middle :=
    (release_quiet middle previous).bind fun _ after _ => arrive_plays conduct after _ _ next
  cases present : run.machine.current with
  | none =>
      have stays : Plays [] (exitCurrent conduct) run :=
        .of_ok (exitCurrent_apply_none conduct run present) (List.append_nil _).symm
      exact ⟨_, by decide, .machine (stays.bind fun previous after _ => goes previous after)⟩
  | some subject =>
      have exits := exitCurrent_plays conduct run present
      exact ⟨_, by decide, .machine (exits.bind fun previous after _ => goes previous after)⟩

/-- A state that is not current any more does not enter again. -/
theorem reenterCurrent_plays (kind : Kind) (serial : Serial) :
    ∃ score ∈ [] :: Beat.scores, Plays score (reenterCurrent conduct kind serial) run := by
  by_cases here : run.machine.currentSerial = some serial
  · obtain ⟨subject, present, rfl⟩ := Option.map_eq_some_iff.mp here
    have plays : Plays [.exit, .enter, .over] (do
        callCurrent conduct .exit
        callCurrent conduct .enter
        addToHistory run.machine.currentKind (some kind) (some subject.serial)
        log (.reentered kind subject.serial) : Kernel β D N Unit) run := by
      refine (callCurrent_plays conduct run .exit present).bind fun _ after ends => ?_
      rw [callCurrent_apply_some conduct .exit run subject present] at ends
      obtain ⟨-, rfl⟩ := of_ended_eq_ok ends
      exact (callCurrent_plays conduct _ .enter rfl).bind fun _ _ _ =>
        (addToHistory_quiet _ _ _ _).bind fun _ _ _ => .log _
    refine ⟨_, by decide, plays.advance ?_ rfl⟩
    rw [reenterCurrent, bind_apply, machine_apply]
    dsimp only
    rw [if_pos here]
  · refine ⟨[], List.mem_cons_self, .machine ?_⟩
    rw [if_neg here]
    exact .log (.reenterSkipped serial)

/-- To carry out a transition makes one, or none if the state to enter again has gone. -/
theorem carryOut_plays (transition : Transition β) :
    ∃ score ∈ [] :: Beat.scores, Plays score (carryOut conduct transition) run := by
  cases transition with
  | replace next =>
      obtain ⟨score, known, plays⟩ := replaceCurrent_plays conduct run next
      exact ⟨score, List.mem_cons_of_mem [] known, plays⟩
  | reenter kind serial => exact reenterCurrent_plays conduct run kind serial

/-- The last exit is a transition to no state. -/
theorem exitForGood_plays :
    ∃ score ∈ [] :: Beat.scores, Plays score (exitForGood conduct) run := by
  cases present : run.machine.current with
  | none =>
      refine ⟨[], List.mem_cons_self, .advance (.pure ()) ?_ rfl⟩
      rw [exitForGood, bind_apply, exitCurrent_apply_none conduct run present]
  | some subject =>
      refine ⟨[.exit, .over], by decide, ?_⟩
      refine (exitCurrent_plays conduct run present).bind fun found after ends => ?_
      rw [exitCurrent_apply_some conduct run subject present] at ends
      obtain ⟨rfl, -⟩ := of_ended_eq_ok ends
      exact (addToHistory_quiet _ _ _ _).bind fun _ _ _ => (Plays.log _).bind fun _ _ _ =>
        release_quiet _ (some _)

/-- A tick makes no transition by itself. -/
theorem tickCurrent_quiet (delta : Single) : Plays [] (tickCurrent conduct delta) run := by
  refine .machine ?_
  cases present : run.machine.current with
  | none => exact .pure ()
  | some subject =>
      dsimp only
      split
      · exact .log (.tickSkipped subject.serial)
      · exact callCurrent_plays conduct run (.tick delta) present

theorem defer_quiet (transition : Transition β) :
    Plays [] (defer transition : Kernel β D N Outcome) run := by
  refine .of_ok (defer_apply transition run) ?_
  rw [Run.beats_deferred, List.append_nil]

/-- A request is taken up before any transition. -/
theorem takeUp_quiet (origin : Origin) (request : Request β) :
    Plays [] (takeUp origin request : Kernel β D N (Transition β)) run := by
  apply Plays.quiet
  have taken := (run.beats_write_none rfl :
    (run.write (.taken origin request.label)).beats = run.beats)
  cases request with
  | fresh kind =>
      unfold final
      rw [takeUp_fresh]
      cases run.machine.registry.prototype kind with
      | error refusal => exact taken
      | ok behavior =>
          dsimp only
          rw [Run.counted, Run.beats_write_none _ rfl]
          exact ((run.write _).beats_write_none rfl).trans taken
  | existing subject =>
      unfold final
      rw [takeUp_existing]
      by_cases own : subject.owner = run.machine.id
      · rw [if_pos own]
        exact taken
      · rw [if_neg own]
        exact taken

end Transitions

end Kernel
end TickMachine
