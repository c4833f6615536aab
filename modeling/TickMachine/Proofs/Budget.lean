import TickMachine.Proofs.Beats
import TickMachine.Proofs.Chain
import TickMachine.Proofs.Composed
import TickMachine.Proofs.Posting

/-!
# How many transitions a call makes

Hooks can ask for more transitions whenever they are called, and still a call comes to its end.  In
immediate mode each request that was posted through a handle, and the request of the call itself,
leads to no more transitions than one for the request and one for each link of the chain that
follows.  In deferred mode a request makes no transition, and a tick or a shutdown makes one at
most.
-/

namespace TickMachine

variable {β D N α γ : Type}

/-! ## Transitions in a row -/

namespace Beat

/-- The beats of so many transitions, one after the other. -/
inductive Whole : Nat → List Beat → Prop where
  /-- No transition. -/
  | none : Whole 0 []
  /-- One transition before others. -/
  | more {count : Nat} {score later : List Beat} (known : score ∈ scores)
      (rest : Whole count later) : Whole (count + 1) (score ++ later)

/-- The beats of so many transitions, one after the other, of which the last one may have been
broken off. -/
inductive Begun : Nat → List Beat → Prop where
  /-- No transition has been broken off. -/
  | whole {count : Nat} {beats : List Beat} (whole : Whole count beats) : Begun count beats
  /-- The last transition has been broken off. -/
  | broken {count : Nat} {early score part : List Beat} (earlier : Whole count early)
      (known : score ∈ scores) (begins : part <+: score) : Begun (count + 1) (early ++ part)

theorem Whole.single {score : List Beat} (known : score ∈ scores) : Whole 1 score := by
  have one := Whole.more known .none
  rwa [List.append_nil] at one

theorem Whole.append
    {first second : Nat}
    {early late : List Beat}
    (earlier : Whole first early)
    (later : Whole second late) :
    Whole (first + second) (early ++ late) := by
  induction earlier with
  | none => rwa [Nat.zero_add]
  | more known _ inductionHypothesis =>
      rw [List.append_assoc, Nat.add_right_comm]
      exact .more known inductionHypothesis

/-- Only the last transition of all may have been broken off. -/
theorem Begun.after
    {first second : Nat}
    {early late : List Beat}
    (earlier : Whole first early)
    (later : Begun second late) :
    Begun (first + second) (early ++ late) := by
  cases later with
  | whole later => exact .whole (earlier.append later)
  | broken between known begins =>
      rw [← List.append_assoc, ← Nat.add_assoc]
      exact .broken (earlier.append between) known begins

end Beat

namespace Run

/-- Between two runs at most so many transitions have been made. -/
def Makes (bound : Nat) (before after : Run β D N) : Prop :=
  ∃ count ≤ bound, ∃ beats, after.beats = before.beats ++ beats ∧ Beat.Whole count beats

/-- Between two runs at most so many transitions have begun. -/
def Begins (bound : Nat) (before after : Run β D N) : Prop :=
  ∃ count ≤ bound, ∃ beats, after.beats = before.beats ++ beats ∧ Beat.Begun count beats

namespace Makes

variable {bound more : Nat} {before middle after : Run β D N}

theorem begins (makes : before.Makes bound after) : before.Begins bound after := by
  obtain ⟨count, within, beats, grown, whole⟩ := makes
  exact ⟨count, within, beats, grown, .whole whole⟩

/-- Transitions that are made add up. -/
theorem trans
    (first : before.Makes bound middle)
    (second : middle.Makes more after) :
    before.Makes (bound + more) after := by
  obtain ⟨count, within, early, grown, whole⟩ := first
  obtain ⟨others, withinThen, late, grownThen, wholeThen⟩ := second
  refine ⟨count + others, Nat.add_le_add within withinThen, early ++ late, ?_,
    whole.append wholeThen⟩
  rw [grownThen, grown, List.append_assoc]

theorem trans_begins
    (first : before.Makes bound middle)
    (second : middle.Begins more after) :
    before.Begins (bound + more) after := by
  obtain ⟨count, within, early, grown, whole⟩ := first
  obtain ⟨others, withinThen, late, grownThen, begun⟩ := second
  refine ⟨count + others, Nat.add_le_add within withinThen, early ++ late, ?_,
    .after whole begun⟩
  rw [grownThen, grown, List.append_assoc]

end Makes

end Run

/-! ## What programs spend -/

namespace Kernel

/-- A program makes at most so many transitions.  If it is interrupted, the last of them may have
been broken off. -/
def Spends (bound : Nat) (program : Kernel β D N α) (run : Run β D N) : Prop :=
  match program run with
  | .ok _ after => run.Makes bound after
  | .error _ after => run.Begins bound after

namespace Spends

variable {bound more : Nat} {program : Kernel β D N α} {run : Run β D N}

/-- A program that plays nothing makes no transition, and one that plays a score makes one. -/
theorem of_plays
    {score : List Beat}
    (known : score ∈ [] :: Beat.scores)
    (plays : Plays score program run) :
    Spends 1 program run := by
  unfold Plays at plays
  unfold Spends
  cases ends : program run with
  | ok value after =>
      rw [ends] at plays
      rcases List.mem_cons.mp known with rfl | known
      · exact ⟨0, Nat.zero_le 1, [], plays, .none⟩
      · exact ⟨1, Nat.le_refl 1, score, plays, .single known⟩
  | error cause after =>
      rw [ends] at plays
      obtain ⟨part, begins, played⟩ := plays
      rcases List.mem_cons.mp known with rfl | known
      · cases List.prefix_nil.mp begins
        exact ⟨0, Nat.zero_le 1, [], played, .whole .none⟩
      · exact ⟨1, Nat.le_refl 1, part, played, .broken .none known begins⟩

theorem of_quiet (bound : Nat) (quiet : Plays [] program run) : Spends bound program run := by
  unfold Plays at quiet
  unfold Spends
  cases ends : program run with
  | ok value after =>
      rw [ends] at quiet
      exact ⟨0, Nat.zero_le bound, [], quiet, .none⟩
  | error cause after =>
      rw [ends] at quiet
      obtain ⟨part, begins, played⟩ := quiet
      cases List.prefix_nil.mp begins
      exact ⟨0, Nat.zero_le bound, [], played, .whole .none⟩

theorem mono (spends : Spends bound program run) (less : bound ≤ more) :
    Spends more program run := by
  unfold Spends at spends ⊢
  cases ends : program run with
  | ok value after =>
      rw [ends] at spends
      obtain ⟨count, within, makes⟩ := spends
      exact ⟨count, Nat.le_trans within less, makes⟩
  | error cause after =>
      rw [ends] at spends
      obtain ⟨count, within, begins⟩ := spends
      exact ⟨count, Nat.le_trans within less, begins⟩

theorem begins (spends : Spends bound program run) : run.Begins bound (program.final run) := by
  unfold Spends at spends
  unfold final
  cases ends : program run with
  | ok value after =>
      rw [ends] at spends
      exact spends.begins
  | error cause after =>
      rw [ends] at spends
      exact spends

/-- A program that goes on as another program does from a run with the same beats. -/
theorem advance
    {start : Run β D N}
    {rest : Kernel β D N α}
    (spends : Spends bound rest start)
    (same : program run = rest start)
    (idle : start.beats = run.beats) :
    Spends bound program run := by
  unfold Spends Run.Makes Run.Begins at *
  rw [same, ← idle]
  exact spends

/-- One program after another one. -/
theorem bind_of_ok
    {next : α → Kernel β D N γ}
    (first : Spends bound program run)
    (rest : ∀ value after, program run = .ok value after → Spends more (next value) after) :
    Spends (bound + more) (program >>= next) run := by
  unfold Spends at first ⊢
  rw [bind_apply]
  cases ends : program run with
  | error cause after =>
      rw [ends] at first
      obtain ⟨count, within, begins⟩ := first
      exact ⟨count, Nat.le_add_right_of_le within, begins⟩
  | ok value middle =>
      rw [ends] at first
      have goes := rest value middle ends
      unfold Spends at goes
      dsimp only at first ⊢
      cases endsThen : next value middle with
      | ok value after =>
          rw [endsThen] at goes
          exact first.trans goes
      | error cause after =>
          rw [endsThen] at goes
          exact first.trans_begins goes

/-- One program after another one that keeps the configuration. -/
theorem bind
    {next : α → Kernel β D N γ}
    (fixing : Fixing program)
    (first : Spends bound program run)
    (rest : ∀ value after, after.machine.config = run.machine.config →
      Spends more (next value) after) :
    Spends (bound + more) (program >>= next) run :=
  first.bind_of_ok fun value after ends => rest value after (fixing ends).2

/-- What comes after a program that makes no transition. -/
theorem bind_quiet
    {next : α → Kernel β D N γ}
    (fixing : Fixing program)
    (quiet : Plays [] program run)
    (rest : ∀ value after, after.machine.config = run.machine.config →
      Spends bound (next value) after) :
    Spends bound (program >>= next) run := by
  have spends := Spends.bind fixing (of_quiet 0 quiet) rest
  rwa [Nat.zero_add] at spends

theorem map (spends : Spends bound program run) (change : α → γ) :
    Spends bound (change <$> program) run := by
  rw [map_eq_pure_bind]
  unfold Spends at spends ⊢
  rw [bind_apply]
  cases ends : program run with
  | ok value after =>
      rw [ends] at spends
      exact spends
  | error cause after =>
      rw [ends] at spends
      exact spends

theorem orMend
    (spends : Spends bound program run)
    (mend : Machine β D → Machine β D) :
    Spends bound (Kernel.orMend program mend) run := by
  unfold Spends Kernel.orMend at *
  cases ends : program run with
  | ok value after =>
      rw [ends] at spends
      exact spends
  | error cause after =>
      rw [ends] at spends
      cases cause <;> exact spends

end Spends

theorem takeUp_fixing (origin : Origin) (request : Request β) :
    Fixing (takeUp origin request : Kernel β D N (Transition β)) := by
  intro run after transition taken
  obtain ⟨made, -, machine⟩ := takeUp_machine taken
  rw [machine]
  exact ⟨rfl, rfl⟩

end Kernel

namespace Config

/-- How many transitions are made when one is submitted. -/
def pace (config : Config) : Nat :=
  if config.immediate then 1 else 0

/-- How many transitions the links of a chain make. -/
def reach (config : Config) : Nat :=
  config.chainLimit.toNat * config.pace

/-- How many transitions the own work of a call makes. -/
def share (config : Config) : Nat :=
  if config.immediate then config.chainLimit.toNat + 1 else 1

/-- A transition that is submitted and its chain stay within the share of a call. -/
theorem pace_add_reach_le (config : Config) : config.pace + config.reach ≤ config.share := by
  unfold reach pace share
  split <;> omega

/-- So do the pending transition and its chain. -/
theorem one_add_reach_le (config : Config) : 1 + config.reach ≤ config.share := by
  unfold reach pace share
  split <;> omega

/-- What the requests that were posted and the own work of a call make together. -/
theorem posted_add_share (config : Config) (posted : Nat) :
    posted * (config.pace + config.reach) + config.share =
      if config.immediate then (posted + 1) * (config.chainLimit.toNat + 1) else 1 := by
  unfold reach pace share
  split
  · rw [Nat.mul_one, Nat.add_comm 1, Nat.succ_mul]
  · simp

end Config

/-! ## Requests and chains -/

namespace Kernel

section Requests

variable (conduct : Conduct β D N) {run : Run β D N}

/-- To carry out a transition makes one at most. -/
theorem carryOut_spends (transition : Transition β) :
    Spends 1 (carryOut conduct transition) run := by
  obtain ⟨score, known, plays⟩ := carryOut_plays conduct run transition
  exact .of_plays known plays

/-- To submit a transition makes it in immediate mode only. -/
theorem submit_spends (transition : Transition β) :
    Spends run.machine.config.pace (submit conduct transition) run := by
  cases mode : run.machine.config.immediate with
  | true =>
      rw [Config.pace, mode]
      have makes : Spends 1 (carryOut conduct transition) run := carryOut_spends conduct transition
      refine (makes.map fun _ => Outcome.applied transition.kind transition.serial).advance ?_ rfl
      rw [submit_apply_immediate conduct transition run mode, ← bind_pure_comp, bind_apply]
      cases carryOut conduct transition run <;> rfl
  | false =>
      refine .of_quiet _ ((defer_quiet run transition).advance ?_ rfl)
      rw [submit_apply_deferred conduct transition run mode, defer_apply]

/-- A transition is submitted, and the chain that follows it is served. -/
theorem submit_chain_spends
    (transition : Transition β)
    {next : Outcome → Kernel β D N α}
    (chain : ∀ outcome run, Spends run.machine.config.reach (next outcome) run) :
    Spends (run.machine.config.pace + run.machine.config.reach)
      (submit conduct transition >>= next) run := by
  refine .bind (Composed.submit transition).fixing (submit_spends conduct transition)
    fun outcome after config => ?_
  rw [← config]
  exact chain outcome after

/-- To serve a request of a hook makes one transition in immediate mode, and none in deferred
mode. -/
theorem serveAsked_spends (asked : Request β) :
    Spends run.machine.config.pace (serveAsked conduct asked) run := by
  have mended : Spends 0 (orMend (takeUp .hook asked) emptied) run :=
    .orMend (.of_quiet 0 (takeUp_quiet run .hook asked)) emptied
  have fixing : Fixing (orMend (takeUp .hook asked) emptied : Kernel β D N (Transition β)) :=
    fun _ _ _ taken => takeUp_fixing .hook asked (orMend_ok taken)
  rw [← Nat.zero_add run.machine.config.pace]
  refine .bind fixing mended fun transition after config => ?_
  rw [← config, bind_pure_comp]
  exact (submit_spends conduct transition).map _

/-- Each link of a chain makes one transition at most. -/
theorem serveWithin_spends (budget : Nat) :
    Spends (budget * run.machine.config.pace) (serveWithin conduct budget) run := by
  induction budget generalizing run with
  | zero =>
      by_cases empty : run.machine.inbox = []
      · exact .of_quiet _ (.advance (.pure ()) (serveWithin_apply_empty conduct 0 run empty) rfl)
      · refine .of_quiet _ (.quiet ?_)
        unfold final
        rw [serveWithin_zero_apply run empty]
        exact Run.beats_write_none _ rfl
  | succ budget inductionHypothesis =>
      cases waiting : run.machine.inbox with
      | nil =>
          exact .of_quiet _
            (.advance (.pure ()) (serveWithin_apply_empty conduct (budget + 1) run waiting) rfl)
      | cons asked more =>
          rw [Nat.succ_mul, Nat.add_comm]
          have serves : Spends run.machine.config.pace (serveAsked conduct asked)
              (run.withInbox more) :=
            serveAsked_spends conduct asked
          have goes : Spends _ (do serveAsked conduct asked; serveWithin conduct budget)
              (run.withInbox more) :=
            serves.bind (Composed.serveAsked asked).fixing fun _ after config =>
              config ▸ inductionHypothesis
          exact goes.advance (serveWithin_succ_waiting conduct budget waiting) rfl

/-- A chain makes at most as many transitions as the chain limit says. -/
theorem serveHooks_spends :
    Spends run.machine.config.reach (serveHooks conduct) run := by
  have serves : Spends (chainBudget run.machine * run.machine.config.pace)
      (serveWithin conduct (chainBudget run.machine)) run :=
    serveWithin_spends conduct _
  refine Spends.mono serves ?_
  unfold chainBudget Config.reach Config.pace
  split
  · exact Nat.le_refl _
  · exact Nat.zero_le _

/-- A posted request makes its own transition and those of its chain. -/
theorem servePosted_spends (posted : Request β) :
    Spends (run.machine.config.pace + run.machine.config.reach) (servePosted conduct posted)
      run := by
  refine .bind_quiet (takeUp_fixing .handle posted) (takeUp_quiet run .handle posted)
    fun transition after config => ?_
  rw [← config]
  exact submit_chain_spends conduct transition fun _ _ => serveHooks_spends conduct

/-- Each posted request has a chain of its own. -/
theorem serveInOrder_spends (queued : List (Request β)) :
    Spends (queued.length * (run.machine.config.pace + run.machine.config.reach))
      (serveInOrder conduct queued) run := by
  induction queued generalizing run with
  | nil => exact .of_quiet _ (.pure ())
  | cons posted more inductionHypothesis =>
      rw [List.length_cons, Nat.succ_mul, Nat.add_comm]
      refine .bind (fun _ _ _ served => (Composed.servePosted posted).fixing (orMend_ok served))
        (.orMend (servePosted_spends conduct posted) _) fun _ after config => ?_
      rw [← config]
      exact inductionHypothesis

/-- The requests that wait when a call begins set the bound for serving them. -/
theorem serveHandles_spends :
    Spends (run.machine.inbox.length * (run.machine.config.pace + run.machine.config.reach))
      (serveHandles conduct) run := by
  have serves : Spends (run.machine.inbox.length * _) (serveInOrder conduct run.machine.inbox)
      (run.mapMachine emptied) :=
    serveInOrder_spends conduct run.machine.inbox
  exact serves.advance (serveHandles_apply conduct run) rfl

end Requests

/-! ## Calls -/

section Calls

variable (conduct : Conduct β D N) {run : Run β D N}

/-- A requested transition and its chain are the share of the call. -/
theorem switchOwn_spends (wanted : Request β) :
    Spends run.machine.config.share (switchOwn conduct wanted) run := by
  refine Spends.mono ?_ run.machine.config.pace_add_reach_le
  refine .bind_quiet (takeUp_fixing .caller wanted) (takeUp_quiet run .caller wanted)
    fun transition after config => ?_
  rw [← config]
  refine submit_chain_spends conduct transition fun outcome middle => ?_
  rw [bind_pure_comp]
  exact (serveHooks_spends conduct).map _

/-- The pending transition is made, and the chain that follows it is served. -/
theorem carryOutPending_spends :
    Spends (if run.machine.pending = none then 0 else 1 + run.machine.config.reach)
      (carryOutPending conduct) run := by
  cases waiting : run.machine.pending with
  | none =>
      refine .of_quiet _ (.advance (.pure ()) ?_ rfl)
      rw [carryOutPending, bind_apply, takePending_apply, waiting, mapMachine_free run waiting]
  | some transition =>
      rw [if_neg (Option.some_ne_none transition)]
      let start := run.mapMachine fun machine => { machine with pending := none }
      have goes : Spends (1 + run.machine.config.reach)
          (do carryOut conduct transition; serveHooks conduct) start := by
        refine .bind (Composed.carryOut transition).fixing (carryOut_spends conduct transition)
          fun _ after config => ?_
        have links : Spends after.machine.config.reach (serveHooks conduct) after :=
          serveHooks_spends conduct
        rw [config] at links
        exact links
      refine goes.advance ?_ rfl
      rw [carryOutPending, bind_apply, takePending_apply, waiting]

/-- A tick makes the transition that is pending.  In immediate mode none is. -/
theorem tickOwn_spends
    (delta : Single)
    (free : run.machine.config.immediate = true → run.machine.pending = none) :
    Spends run.machine.config.share (tickOwn conduct delta) run := by
  have ticks (after : Run β D N) :
      Spends after.machine.config.reach
        (do tickCurrent conduct delta; serveHooks conduct) after := by
    refine .bind_quiet (Composed.tickCurrent delta).fixing (tickCurrent_quiet conduct after delta)
      fun _ final config => ?_
    rw [← config]
    exact serveHooks_spends conduct
  have spends : Spends (_ + run.machine.config.reach) (tickOwn conduct delta) run :=
    .bind Composed.carryOutPending.fixing (carryOutPending_spends conduct)
      fun _ after config => config ▸ ticks after
  refine spends.mono ?_
  cases mode : run.machine.config.immediate with
  | true =>
      rw [if_pos (free mode), Nat.zero_add]
      exact Nat.le_trans (Nat.le_add_left _ _) run.machine.config.one_add_reach_le
  | false =>
      rw [Config.reach, Config.pace, Config.share, mode]
      split <;> simp

theorem popOwn_spends : Spends run.machine.config.share (popOwn conduct) run := by
  have applied := popOwn_apply conduct run
  split at applied
  next =>
    refine .of_quiet _ (.of_ok applied ?_)
    rw [Run.beats_write_none _ rfl, List.append_nil]
  next serial below top =>
    split at applied
    next =>
      refine .of_quiet _ (.quiet ?_)
      unfold final
      rw [applied]
      rfl
    next transition rest retrieved =>
      obtain ⟨_, _, machine⟩ := Machine.retrieve_frame retrieved
      have config : rest.config = run.machine.config := by
        rw [machine]
      have goes : Spends (rest.config.pace + rest.config.reach)
          (do
            let outcome ← submit conduct transition
            serveHooks conduct
            pure (some outcome))
          (Run.write { run with machine := rest } (.logged (.popped serial below.length))) := by
        refine submit_chain_spends conduct transition fun outcome middle => ?_
        rw [bind_pure_comp]
        exact (serveHooks_spends conduct).map _
      rw [config] at goes
      refine (goes.mono run.machine.config.pace_add_reach_le).advance applied ?_
      exact Run.beats_write_none _ rfl

/-- A restart makes no transition but those of the chain that it starts. -/
theorem restartOwn_spends : Spends run.machine.config.share (restartOwn conduct) run := by
  cases present : run.machine.current with
  | none =>
      have applied : restartOwn conduct run = log .restartIgnored run := by
        rw [restartOwn, bind_apply, machine_apply]
        dsimp only
        rw [present]
      have ignores : Plays [] (log .restartIgnored : Kernel β D N Unit) run :=
        .log .restartIgnored
      exact .of_quiet _ (ignores.advance applied rfl)
  | some subject =>
      have applied : restartOwn conduct run =
          (do callCurrent conduct .restart; serveHooks conduct) run := by
        rw [restartOwn, bind_apply, machine_apply]
        dsimp only
        rw [present]
      have asks : Spends run.machine.config.reach
          (do callCurrent conduct .restart; serveHooks conduct) run := by
        refine .bind_quiet (Composed.callCurrent .restart).fixing
          (callCurrent_plays conduct run .restart present) fun _ after config => ?_
        rw [← config]
        exact serveHooks_spends conduct
      refine (asks.mono ?_).advance applied rfl
      exact Nat.le_trans (Nat.le_add_left _ _) run.machine.config.one_add_reach_le

/-- A shutdown makes one transition, either to the shutdown state or out of the current one. -/
theorem shutdownOwn_spends (empty : run.machine.inbox = []) :
    Spends run.machine.config.share (shutdownOwn conduct) run := by
  cases terminal : run.machine.config.shutdown with
  | some kind =>
      have switches : Spends run.machine.config.share (switchOwn conduct (.fresh kind))
          (run.announced kind) := switchOwn_spends conduct (.fresh kind)
      exact (switches.map some).advance (shutdownOwn_apply_some conduct terminal empty)
        (run.beats_write_none rfl)
  | none =>
      have exits (after : Run β D N) :
          Spends (1 + after.machine.config.reach)
            (do
              exitForGood conduct
              serveHooks conduct
              pure none : Kernel β D N (Option Outcome)) after := by
        obtain ⟨score, known, plays⟩ := exitForGood_plays conduct after
        refine .bind Composed.exitForGood.fixing (.of_plays known plays) fun _ final config => ?_
        rw [← config, bind_pure_comp]
        exact (serveHooks_spends conduct).map _
      have drops : Plays [] (dropPending : Kernel β D N Unit) run := by
        refine .of_ok (dropPending_apply run) ?_
        rw [Run.beats_pendingDropped, List.append_nil]
      have goes := Spends.bind_quiet (Composed.dropPending : Composed conduct _).fixing drops
        fun _ after config => config ▸ exits after
      refine (goes.mono run.machine.config.one_add_reach_le).advance ?_ rfl
      rw [shutdownOwn, bind_apply, machine_apply]
      dsimp only
      rw [terminal]

end Calls

end Kernel

/-- The own work of every call stays within its share. -/
theorem Call.work_spends
    (conduct : Conduct β D N)
    {run : Run β D N}
    (call : Call β)
    (empty : run.machine.inbox = [])
    (free : run.machine.config.immediate = true → run.machine.pending = none) :
    Kernel.Spends run.machine.config.share (call.work conduct) run := by
  cases call with
  | switchTo wanted => exact (Kernel.switchOwn_spends conduct wanted).map _
  | tick delta valid =>
      rw [work, bind_pure_comp]
      exact (Kernel.tickOwn_spends conduct delta free).map _
  | pop => exact (Kernel.popOwn_spends conduct).map _
  | restart =>
      rw [work, bind_pure_comp]
      exact (Kernel.restartOwn_spends conduct).map _
  | shutdown => exact (Kernel.shutdownOwn_spends conduct empty).map _

/-- A call that is made when nothing is pending in immediate mode, now or after the requests that
were posted have been served. -/
theorem Call.perform_spends
    (conduct : Conduct β D N)
    {run : Run β D N}
    (call : Call β)
    (orderly : Stage.Orderly ⟨.idle, call.requests, run⟩) :
    Kernel.Spends
      (run.machine.inbox.length * (run.machine.config.pace + run.machine.config.reach) +
        run.machine.config.share)
      (call.perform conduct) run := by
  rw [Call.perform_eq]
  refine (Kernel.serveHandles_spends conduct).bind_of_ok fun _ drained drains => ?_
  have steps : Steps conduct [.serve] ⟨.idle, call.requests, run⟩
      ⟨.idle, call.requests, drained⟩ := by
    have serving : Follows conduct [.serve] (Kernel.serveHandles conduct)
        ⟨.idle, call.requests, run⟩ (fun _ => .idle) call.requests call.requests :=
      Kernel.serveHandles_follows List.mem_cons_self
    exact serving.steps_ok drains
  have orderlyThen := steps.invariant (fun _ _ step => step.orderly) orderly
  have config : drained.machine.config = run.machine.config := steps.fixed.2.1
  rw [← config]
  exact call.work_spends conduct (Kernel.serveHandles_ok conduct drains) fun immediate =>
    orderlyThen.free (.inl immediate)

namespace Run

/-- The transitions that one call makes, begun ones included. -/
theorem perform_begins
    {run : Run β D N}
    (conduct : Conduct β D N)
    (now : Instant)
    (operation : Operation β D)
    (call : operation.isCall = true)
    (orderly : Stage.Orderly ⟨.idle, [], run⟩) :
    run.Begins
      (if run.machine.config.immediate then
        (run.machine.inbox.length + 1) * (run.machine.config.chainLimit.toNat + 1)
      else 1)
      (run.perform conduct now operation).2 := by
  rw [run.perform_final]
  cases calls : operation.call? { run with now := now } with
  | none =>
      rw [Kernel.perform_idle conduct call calls]
      exact ⟨0, Nat.zero_le _, [], (List.append_nil _).symm, .whole .none⟩
  | some made =>
      obtain ⟨made, start⟩ := made
      obtain ⟨same, hands, began⟩ := Kernel.perform_of_call conduct calls
      have steps : Steps conduct [] ⟨.idle, [], { run with now := now }⟩
          ⟨.idle, made.requests, start⟩ :=
        Call.steps_of_call? calls
      have orderlyThen := steps.invariant (fun _ _ step => step.orderly) (orderly.clock now)
      have spends := made.perform_spends conduct orderlyThen
      subst began
      rw [Config.posted_add_share] at spends
      have goes := spends.begins
      unfold Kernel.final at goes ⊢
      rw [same]
      exact goes

end Run

/-- Whatever hooks ask for, a chain of requests comes to its end after finitely many of them. -/
theorem Kernel.serveHooks_halts
    (conduct : Conduct β D N)
    (start : Run β D N) :
    ∃ count middle,
      start.serveTimes conduct count = some middle ∧
        if start.machine.config.immediate then
          ∃ rest, count + rest = start.machine.config.chainLimit.toNat ∧
            middle.Ends conduct rest (serveHooks conduct start)
        else
          middle.machine.inbox = [] ∧ serveHooks conduct start = .ok () middle ∨
            ∃ refusal after, middle.StuckAt refusal after ∧
              serveHooks conduct start = .error (.refused refusal) after := by
  cases mode : start.machine.config.immediate with
  | true =>
      obtain ⟨count, rest, middle, sum, served, ends⟩ :=
        exists_ends conduct start.machine.config.chainLimit.toNat start
      refine ⟨count, middle, served, ?_⟩
      rw [if_pos rfl, serveHooks_immediate_apply conduct mode]
      exact ⟨rest, sum, ends⟩
  | false =>
      obtain ⟨count, middle, served, ends⟩ :=
        (serveHooks_patient_iff mode).mp (Eq.refl (serveHooks conduct start))
      refine ⟨count, middle, served, ?_⟩
      rw [if_neg Bool.false_ne_true]
      exact ends

/-- Every call comes to its end with few transitions.  In immediate mode there are at most as many
as the chain limit and one more for each request that was posted and for the call itself, and in
deferred mode there is at most one.  Wherever a chain of requests is served, it stops after
finitely many of them: in immediate mode at the limit at the latest, and in deferred mode by itself,
when none is left or one cannot be taken up. -/
theorem transitions_within_budget
    {id : MachineId}
    {config : Config}
    {registry : Registry β}
    {data : D}
    {origin : Machine β D}
    {conduct : Conduct β D N}
    {permitted : Except Interruption Reply → Prop}
    {run : Run β D N}
    (made : Machine.make id config registry data = .ok origin)
    (reached : Reachable conduct permitted origin run)
    (now : Instant)
    (operation : Operation β D)
    (call : operation.isCall = true) :
    run.Begins
        (if config.immediate then
          (run.machine.inbox.length + 1) * (config.chainLimit.toNat + 1)
        else 1)
        (run.perform conduct now operation).2 ∧
      ∀ start : Run β D N, start.machine.config = config →
        ∃ count middle,
          start.serveTimes conduct count = some middle ∧
          if config.immediate then
            ∃ rest, count + rest = config.chainLimit.toNat ∧
              middle.Ends conduct rest (Kernel.serveHooks conduct start)
          else
            middle.machine.inbox = [] ∧ Kernel.serveHooks conduct start = .ok () middle ∨
              ∃ refusal after, middle.StuckAt refusal after ∧
                Kernel.serveHooks conduct start = .error (.refused refusal) after := by
  have orderly := (orderly_lasting conduct permitted made).reachable reached
  have fixed := (fixed_lasting conduct permitted made).reachable reached
  constructor
  · rw [← fixed.2.1]
    exact run.perform_begins conduct now operation call orderly
  · intro start same
    rw [← same]
    exact Kernel.serveHooks_halts conduct start

/-- A relay in immediate mode that has nothing to serve makes at most thirty-three transitions when
a state is requested. -/
theorem transitions_within_budget_relay :
    (relayStarted true).Begins 33
      ((relayStarted true).perform Actor.conduct .epoch (.switchTo (.fresh ⟨2⟩))).2 := by
  have idle : (relayStarted true).machine.inbox.length = 0 := by decide +kernel
  have limit : (relay true).config.chainLimit.toNat = 32 := by decide +kernel
  have begins := (transitions_within_budget (relay_made true) (relayStarted_reachable true) .epoch
    (.switchTo (.fresh ⟨2⟩)) rfl).1
  rw [idle, limit] at begins
  exact begins

end TickMachine
