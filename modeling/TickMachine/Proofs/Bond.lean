import TickMachine.Proofs.Effect

/-!
# Bonds between runs

Two machines can be compared while they do the same side by side.  A bond is a relation between runs
on which both machines show the same to the programs that take up requests and make transitions, and
it survives what these programs do to a run.  So such a program has equal results on runs that are
bound, and leaves them bound, provided that the bond survives the hooks that the program calls.
-/

namespace TickMachine

variable {β D N α γ : Type}

/-- A change that has nothing to do with the configuration, the history, the inbox and the pending
transition of a machine. -/
def Machine.IsLocal (change : Machine β D → Machine β D) : Prop :=
  ∀ machine config history inbox pending,
    change { machine with
        config := config, history := history, inbox := inbox, pending := pending } =
      { change machine with
        config := config, history := history, inbox := inbox, pending := pending }

theorem Machine.IsLocal.frame
    {change : Machine β D → Machine β D}
    (isLocal : IsLocal change)
    (machine : Machine β D) :
    (change machine).config = machine.config ∧ (change machine).history = machine.history ∧
      (change machine).inbox = machine.inbox ∧ (change machine).pending = machine.pending := by
  have same := isLocal machine machine.config machine.history machine.inbox machine.pending
  exact ⟨(congrArg config same :), (congrArg history same :), (congrArg inbox same :),
    (congrArg pending same :)⟩

/-- Configuration and history can be exchanged before or after the change. -/
theorem Machine.IsLocal.exchange
    {change : Machine β D → Machine β D}
    (isLocal : IsLocal change)
    (machine : Machine β D)
    (config : Config)
    (history : History) :
    change { machine with config := config, history := history } =
      { change machine with config := config, history := history } := by
  obtain ⟨-, -, inbox, pending⟩ := isLocal.frame machine
  refine (isLocal machine config history machine.inbox machine.pending).trans ?_
  rw [← inbox, ← pending]

/-- A relation between runs that survives what programs do to them. -/
structure Bond (bound : Run β D N → Run β D N → Prop) : Prop where
  /-- Both machines show the same. -/
  shown {left right : Run β D N} :
    bound left right → ∃ config history inbox pending, right.machine =
      { left.machine with
        config := config, history := history, inbox := inbox, pending := pending }
  /-- Callers hold the same. -/
  hands {left right : Run β D N} : bound left right → right.hands = left.hands
  /-- Something is written into both journals. -/
  write {left right : Run β D N} (entry : Entry β N) :
    bound left right → bound (left.write entry) (right.write entry)
  /-- Both machines change in the same way. -/
  change {left right : Run β D N} (change : Machine β D → Machine β D) :
    Machine.IsLocal change → bound left right →
      bound (left.mapMachine change) (right.mapMachine change)
  /-- The same transition is added to both histories. -/
  recorded {left right : Run β D N} (source target : Option Kind) (subject : Option Serial) :
    bound left right →
      bound (left.recorded source target subject) (right.recorded source target subject)

/-- A relation between runs survives that a hook is called. -/
def Spared
    (conduct : Conduct β D N)
    (bound : Run β D N → Run β D N → Prop)
    (hook : Hook) : Prop :=
  ∀ ⦃left right : Run β D N⦄ (subject : Instance β), bound left right →
    bound (left.reacted conduct hook subject) (right.reacted conduct hook subject)

/-- Two results are equal, and the runs with which they come are bound. -/
inductive Ends (bound : Run β D N → Run β D N → Prop) :
    EStateM.Result Interruption (Run β D N) α →
      EStateM.Result Interruption (Run β D N) α → Prop where
  | ok (value : α) {left right : Run β D N} (together : bound left right) :
      Ends bound (.ok value left) (.ok value right)
  | error (cause : Interruption) {left right : Run β D N} (together : bound left right) :
      Ends bound (.error cause left) (.error cause right)

/-- Two programs have equal results on runs that are bound, and leave them bound. -/
def Parallel
    (bound : Run β D N → Run β D N → Prop)
    (first second : Kernel β D N α) : Prop :=
  ∀ ⦃left right : Run β D N⦄, bound left right → Ends bound (first left) (second right)

namespace Parallel

variable {bound : Run β D N → Run β D N → Prop}

theorem pure (value : α) : Parallel bound (Pure.pure value : Kernel β D N α) (Pure.pure value) :=
  fun _ _ together => .ok value together

theorem refuse (refusal : Refusal) :
    Parallel bound (Kernel.refuse refusal : Kernel β D N α) (Kernel.refuse refusal) :=
  fun _ _ together => .error (.refused refusal) together

/-- One program after the other. -/
theorem bind
    {first second : Kernel β D N α}
    {next rest : α → Kernel β D N γ}
    (start : Parallel bound first second)
    (continue_ : ∀ value, Parallel bound (next value) (rest value)) :
    Parallel bound (first >>= next) (second >>= rest) := by
  intro left right together
  have ends := start together
  rw [Kernel.bind_apply, Kernel.bind_apply]
  generalize first left = ended, second right = other at ends ⊢
  cases ends with
  | ok value together => exact continue_ value together
  | error cause together => exact .error cause together

/-- Programs that are mended in the same way where they are refused. -/
theorem orMend
    {first second : Kernel β D N α}
    {mend heal : Machine β D → Machine β D}
    (programs : Parallel bound first second)
    (mended : ∀ ⦃left right : Run β D N⦄, bound left right →
      bound (left.mapMachine mend) (right.mapMachine heal)) :
    Parallel bound (Kernel.orMend first mend) (Kernel.orMend second heal) := by
  intro left right together
  have ends := programs together
  unfold Kernel.orMend
  generalize first left = ended, second right = other at ends ⊢
  cases ends with
  | ok value together => exact .ok value together
  | error cause together =>
      cases cause with
      | refused refusal => exact .error _ (mended together)
      | brokenOff message => exact .error _ together

end Parallel

namespace Bond

variable {conduct : Conduct β D N} {bound : Run β D N → Run β D N → Prop} {left right : Run β D N}
  (bond : Bond bound)
include bond

/-! ## Runs -/

theorem current (together : bound left right) :
    right.machine.current = left.machine.current := by
  obtain ⟨_, _, _, _, shown⟩ := bond.shown together
  rw [shown]

/-- Hooks see the same in both runs, and react alike. -/
theorem reaction
    (together : bound left right)
    (hook : Hook)
    (subject : Instance β) :
    right.reaction conduct hook subject = left.reaction conduct hook subject := by
  obtain ⟨_, _, _, _, shown⟩ := bond.shown together
  have view : right.view subject = left.view subject := by
    simp only [Run.view, bond.hands together, shown]
  rw [Run.reaction, Run.reaction, view]

theorem settled
    (together : bound left right)
    (hook : Hook)
    (subject : Instance β) :
    right.settled conduct hook subject = left.settled conduct hook subject := by
  rw [Run.settled, Run.settled, bond.reaction together]

theorem withCurrent
    (together : bound left right)
    (current : Option (Instance β)) :
    bound (left.withCurrent current) (right.withCurrent current) :=
  bond.change _ (fun _ _ _ _ _ => rfl) together

theorem hooked
    (together : bound left right)
    (hook : Hook)
    (subject : Instance β)
    (called : Spared conduct bound hook) :
    bound (left.hooked conduct hook subject) (right.hooked conduct hook subject) := by
  rw [Run.hooked, Run.hooked, bond.settled together]
  exact bond.withCurrent (called subject together) _

/-- A state that is let go has the same fate in both runs, since the stacks are equal. -/
theorem released
    (together : bound left right)
    (subject : Instance β) :
    bound (left.released subject) (right.released subject) := by
  obtain ⟨_, _, _, _, shown⟩ := bond.shown together
  have stack : right.machine.stack = left.machine.stack := by rw [shown]
  unfold Run.released
  rw [stack]
  split
  · exact bond.change _ (fun _ _ _ _ _ => rfl) (bond.write _ together)
  · exact bond.write _ together

omit bond in
/-- Hooks that break off in the same way. -/
theorem ended
    (together : bound left right)
    (breakdown : Option String)
    (value : α) :
    Ends bound (Kernel.ended breakdown value left) (Kernel.ended breakdown value right) := by
  cases breakdown with
  | none => exact .ok value together
  | some message => exact .error _ together

/-! ## Programs -/

theorem log (event : LogEvent) :
    Parallel bound (Kernel.log event : Kernel β D N Unit) (Kernel.log event) :=
  fun _ _ together => .ok () (bond.write _ together)

/-- A program starts with a look at the machine. -/
theorem machine
    {next rest : Machine β D → Kernel β D N α}
    (continue_ : ∀ machine config history inbox pending,
      Parallel bound (next machine)
        (rest { machine with
          config := config, history := history, inbox := inbox, pending := pending })) :
    Parallel bound (Kernel.machine >>= next) (Kernel.machine >>= rest) := by
  intro left right together
  obtain ⟨config, history, inbox, pending, shown⟩ := bond.shown together
  rw [Kernel.bind_apply, Kernel.bind_apply, Kernel.machine_apply, Kernel.machine_apply, shown]
  exact continue_ left.machine config history inbox pending together

theorem callCurrent (hook : Hook) (called : Spared conduct bound hook) :
    Parallel bound (Kernel.callCurrent conduct hook) (Kernel.callCurrent conduct hook) := by
  intro left right together
  have current := bond.current together
  cases present : left.machine.current with
  | none =>
      rw [Kernel.callCurrent_apply_none conduct hook left present,
        Kernel.callCurrent_apply_none conduct hook right (current.trans present)]
      exact .ok () together
  | some subject =>
      rw [Kernel.callCurrent_apply_some conduct hook left subject present,
        Kernel.callCurrent_apply_some conduct hook right subject (current.trans present),
        bond.reaction together]
      exact ended (bond.hooked together hook subject called) _ ()

theorem exitCurrent (called : Spared conduct bound .exit) :
    Parallel bound (Kernel.exitCurrent conduct) (Kernel.exitCurrent conduct) := by
  intro left right together
  have current := bond.current together
  cases present : left.machine.current with
  | none =>
      rw [Kernel.exitCurrent_apply_none conduct left present,
        Kernel.exitCurrent_apply_none conduct right (current.trans present)]
      exact .ok none together
  | some subject =>
      have vacated := bond.withCurrent together none
      rw [Kernel.exitCurrent_apply_some conduct left subject present,
        Kernel.exitCurrent_apply_some conduct right subject (current.trans present),
        bond.settled vacated, bond.reaction vacated]
      exact ended (called subject vacated) _ _

theorem parkOrDrop (subject : Instance β) :
    Parallel bound (Kernel.parkOrDrop subject : Kernel β D N Unit) (Kernel.parkOrDrop subject) := by
  intro left right together
  rw [Kernel.parkOrDrop_apply, Kernel.parkOrDrop_apply]
  exact .ok () (bond.released together subject)

theorem addToHistory (source target : Option Kind) (subject : Option Serial) :
    Parallel bound (Kernel.addToHistory source target subject : Kernel β D N Unit)
      (Kernel.addToHistory source target subject) :=
  fun _ _ together => .ok () (bond.recorded source target subject together)

theorem release (previous : Option (Instance β)) :
    Parallel bound (Kernel.release previous : Kernel β D N Unit) (Kernel.release previous) := by
  cases previous with
  | none => exact .pure ()
  | some previous => exact bond.parkOrDrop previous

theorem arrive (source : Option Kind) (name : String) (next : Instance β)
    (called : Spared conduct bound .enter) :
    Parallel bound (Kernel.arrive conduct source name next)
      (Kernel.arrive conduct source name next) := by
  refine .bind (bond.addToHistory source _ _) fun _ => .bind (.bind ?_ fun _ => ?_) fun _ =>
    bond.log _
  · exact fun _ _ together => .ok () (bond.change _ (fun _ _ _ _ _ => rfl) together)
  · exact bond.callCurrent .enter called

/-- Both runs make the same transition. -/
theorem replaceCurrent (next : Instance β)
    (exits : Spared conduct bound .exit)
    (enters : Spared conduct bound .enter) :
    Parallel bound (Kernel.replaceCurrent conduct next) (Kernel.replaceCurrent conduct next) := by
  rw [Kernel.replaceCurrent_eq]
  exact bond.machine fun machine _ _ _ _ =>
    .bind (bond.exitCurrent exits) fun previous => .bind (bond.release previous) fun _ =>
      bond.arrive machine.currentKind (machine.shownName next.kind) next enters

theorem reenterCurrent (kind : Kind) (serial : Serial)
    (exits : Spared conduct bound .exit)
    (enters : Spared conduct bound .enter) :
    Parallel bound (Kernel.reenterCurrent conduct kind serial)
      (Kernel.reenterCurrent conduct kind serial) := by
  refine bond.machine fun machine config history inbox pending => ?_
  have same : Machine.currentSerial { machine with
      config := config, history := history, inbox := inbox, pending := pending } =
    machine.currentSerial := rfl
  rw [same]
  split
  · exact .bind (bond.callCurrent .exit exits) fun _ =>
      .bind (bond.callCurrent .enter enters) fun _ =>
        .bind (bond.addToHistory _ _ _) fun _ => bond.log _
  · exact bond.log _

/-- A transition that leads both runs to the same state keeps them bound. -/
theorem carryOut (transition : Transition β)
    (exits : Spared conduct bound .exit)
    (enters : Spared conduct bound .enter) :
    Parallel bound (Kernel.carryOut conduct transition) (Kernel.carryOut conduct transition) := by
  cases transition with
  | replace next => exact bond.replaceCurrent next exits enters
  | reenter kind serial => exact bond.reenterCurrent kind serial exits enters

/-- The current state is paused in both runs or in neither. -/
theorem tickCurrent (delta : Single) (called : Spared conduct bound (.tick delta)) :
    Parallel bound (Kernel.tickCurrent conduct delta) (Kernel.tickCurrent conduct delta) := by
  refine bond.machine fun machine _ _ _ _ => ?_
  dsimp only
  cases machine.current with
  | none => exact .pure ()
  | some subject =>
      dsimp only
      split
      · exact bond.log _
      · exact bond.callCurrent (.tick delta) called

theorem exitForGood (called : Spared conduct bound .exit) :
    Parallel bound (Kernel.exitForGood conduct) (Kernel.exitForGood conduct) := by
  refine .bind (bond.exitCurrent called) fun found => ?_
  cases found with
  | none => exact .pure ()
  | some previous =>
      exact .bind (bond.addToHistory _ _ _) fun _ => .bind (bond.log _) fun _ =>
        bond.parkOrDrop previous

theorem copyPrototype (kind : Kind) :
    Parallel bound (Kernel.copyPrototype kind : Kernel β D N β) (Kernel.copyPrototype kind) := by
  refine bond.machine fun machine _ _ _ _ => ?_
  dsimp only
  cases machine.registry.prototype kind with
  | error refusal => exact .refuse refusal
  | ok behavior =>
      exact .bind (fun _ _ together => .ok () (bond.write _ together)) fun _ => .pure behavior

theorem makeState (kind : Kind) (behavior : β) :
    Parallel bound (Kernel.makeState kind behavior : Kernel β D N (Instance β))
      (Kernel.makeState kind behavior) := by
  refine bond.machine fun machine _ _ _ _ => .bind ?_ fun _ => .bind (bond.log _) fun _ => .pure _
  exact fun _ _ together => .ok () (bond.change _ (fun _ _ _ _ _ => rfl) together)

theorem makeOfKind (kind : Kind) :
    Parallel bound (Kernel.makeOfKind kind : Kernel β D N (Instance β)) (Kernel.makeOfKind kind) :=
  .bind (bond.copyPrototype kind) fun behavior => bond.makeState kind behavior

/-- To take up a request is the same for both machines as far as its entry in the journal is. -/
theorem takeUp
    (first second : Origin)
    (request : Request β)
    (taken : Parallel bound
      (Kernel.write (.taken first request.label) : Kernel β D N Unit)
      (Kernel.write (.taken second request.label))) :
    Parallel bound (Kernel.takeUp first request : Kernel β D N (Transition β))
      (Kernel.takeUp second request) := by
  refine .bind taken fun _ => ?_
  cases request with
  | fresh kind => exact .bind (bond.makeOfKind kind) fun subject => .pure _
  | existing subject =>
      refine bond.machine fun machine _ _ _ _ => ?_
      dsimp only
      split
      · exact .pure _
      · exact .refuse _

end Bond
end TickMachine
