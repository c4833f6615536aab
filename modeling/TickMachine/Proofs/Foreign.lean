import TickMachine.Proofs.Composed
import TickMachine.Proofs.Worlds

/-!
# States of other machines

Anybody can hand a state of one machine to another: a caller who requests a transition, the holder
of a handle, or a hook.  The machine finds out when it takes the request up.  The call ends there
with a refusal that names the state, and the machine is as it was just before, except for the
requests that it still has to serve.  So a machine never has a state that it has not made.
-/

namespace TickMachine

variable {β D N α γ : Type}

namespace Kernel

/-! ## Taking up requests -/

/-- On a run, a program takes up a request after all that it does before, when it has come to the
run `just`. -/
inductive TakesUp (conduct : Conduct β D N) (origin : Origin) (request : Request β)
    (just : Run β D N) : {α : Type} → Kernel β D N α → Run β D N → Prop where
  /-- The program does nothing else. -/
  | here : TakesUp conduct origin request just (takeUp origin request) just
  /-- The program looks at the machine first. -/
  | look {α : Type} {next : Machine β D → Kernel β D N α} {run : Run β D N}
      (rest : TakesUp conduct origin request just (next run.machine) run) :
      TakesUp conduct origin request just (machine >>= next) run
  /-- The first part of the program takes the request up. -/
  | first {α γ : Type} {program : Kernel β D N α} {next : α → Kernel β D N γ} {run : Run β D N}
      (start : TakesUp conduct origin request just program run) :
      TakesUp conduct origin request just (program >>= next) run
  /-- The first part of the program comes to an end, and the rest takes the request up. -/
  | later {α γ : Type} {program : Kernel β D N α} {next : α → Kernel β D N γ}
      {run middle : Run β D N} {value : α} (composed : Composed conduct program)
      (began : program run = .ok value middle)
      (rest : TakesUp conduct origin request just (next value) middle) :
      TakesUp conduct origin request just (program >>= next) run
  /-- The inbox is mended if the program is refused. -/
  | mended {α : Type} {program : Kernel β D N α} {run : Run β D N}
      (start : TakesUp conduct origin request just program run)
      (mend : List (Request β) → List (Request β)) :
      TakesUp conduct origin request just
        (orMend program fun machine => { machine with inbox := mend machine.inbox }) run

namespace TakesUp

variable {conduct : Conduct β D N} {origin : Origin} {request : Request β} {subject : Instance β}
  {program : Kernel β D N α} {just run : Run β D N}

/-- The machine that takes the request up is that of the run. -/
theorem id_eq (takes : TakesUp conduct origin request just program run) :
    just.machine.id = run.machine.id := by
  induction takes with
  | here => rfl
  | look _ inductionHypothesis => exact inductionHypothesis
  | first _ inductionHypothesis => exact inductionHypothesis
  | later composed began _ inductionHypothesis =>
      obtain ⟨id, -⟩ := composed.fixing began
      exact inductionHypothesis.trans id
  | mended _ _ inductionHypothesis => exact inductionHypothesis

/-- A program that takes up a request for a state of another machine is refused at once. -/
theorem foreign
    (takes : TakesUp conduct origin (.existing subject) just program run)
    (other : subject.owner ≠ just.machine.id) :
    ∃ inbox, program run = .error (.refused (.foreign subject.serial))
      ((just.write (.taken origin (Request.existing subject).label)).mapMachine fun machine =>
        { machine with inbox := inbox }) := by
  induction takes with
  | here =>
      refine ⟨just.machine.inbox, ?_⟩
      rw [takeUp_existing, if_neg other]
      rfl
  | look _ inductionHypothesis => exact inductionHypothesis
  | first _ inductionHypothesis =>
      obtain ⟨inbox, refused⟩ := inductionHypothesis
      refine ⟨inbox, ?_⟩
      rw [bind_apply, refused]
  | later _ began _ inductionHypothesis =>
      obtain ⟨inbox, refused⟩ := inductionHypothesis
      refine ⟨inbox, ?_⟩
      rw [bind_apply, began]
      exact refused
  | mended _ mend inductionHypothesis =>
      obtain ⟨inbox, refused⟩ := inductionHypothesis
      refine ⟨mend inbox, ?_⟩
      unfold orMend
      rw [refused]
      rfl

end TakesUp

/-- A state that a caller hands to a machine with nothing in its inbox is taken up at once. -/
theorem switchTo_takesUp
    (conduct : Conduct β D N)
    {run : Run β D N}
    {slot : Slot}
    {subject : Instance β}
    (held : run.hands[slot]? = some subject)
    (empty : run.machine.inbox = []) :
    TakesUp conduct .caller (.existing subject) { run with hands := run.hands.erase slot }
      (perform conduct (.switchTo (.held slot))) run := by
  let handed : Run β D N := { run with hands := run.hands.erase slot }
  have taken : (takeTarget (.held slot) : Kernel β D N (Option (Request β))) run =
      .ok (some (.existing subject)) handed := by
    rw [takeTarget_apply, Run.take, held]
  have served : serveHandles conduct handed = .ok () handed :=
    serveHandles_apply_empty conduct handed empty
  exact .later (.takeTarget _) taken (.first (.later .serveHandles served (.first .here)))

end Kernel

/-! ## What the journal tells -/

theorem prefix_split
    {early before rest : List α}
    {element : α}
    (initial : early <+: before ++ element :: rest)
    (longer : before.length < early.length) :
    ∃ between, early = before ++ element :: between := by
  obtain ⟨extra, size⟩ := Nat.exists_eq_add_of_lt longer
  refine ⟨rest.take extra, ?_⟩
  have taken := List.prefix_iff_eq_take.mp initial
  rw [size, Nat.add_assoc, List.take_length_add_append, List.take_succ_cons] at taken
  exact taken

namespace Kernel

/-- Whatever the journal of a program tells to be taken up is taken up by the program, when the
journal has come to this point. -/
structure Tells (conduct : Conduct β D N) (program : Kernel β D N α) : Prop where
  continues (run : Run β D N) : run.journal.toList <+: (program.final run).journal.toList
  told {run : Run β D N} {before rest : List (Entry β N)} {origin : Origin} {label : RequestLabel} :
    (program.final run).journal.toList = before ++ .taken origin label :: rest →
      run.journal.toList.length ≤ before.length →
      ∃ request just, Request.label request = label ∧ just.journal.toList = before ∧
        TakesUp conduct origin request just program run

namespace Tells

variable {conduct : Conduct β D N}

/-- A program that writes of nothing that is taken up. -/
theorem of_quiet
    {program : Kernel β D N α}
    (quiet : ∀ run, ∃ added : List (Entry β N),
      (program.final run).journal.toList = run.journal.toList ++ added ∧
        ∀ origin label, .taken origin label ∉ added) :
    Tells conduct program where
  continues run := by
    obtain ⟨added, wrote, -⟩ := quiet run
    exact ⟨added, wrote.symm⟩
  told {run before rest origin label} tells within := by
    obtain ⟨added, wrote, silent⟩ := quiet run
    have listed : added = before.drop run.journal.toList.length ++ .taken origin label :: rest := by
      rw [tells] at wrote
      have dropped := congrArg (List.drop run.journal.toList.length) wrote
      rwa [List.drop_left, List.drop_append_of_le_length within, eq_comm] at dropped
    refine absurd ?_ (silent origin label)
    rw [listed]
    exact List.mem_append_right _ List.mem_cons_self

/-- A program that writes nothing. -/
theorem of_silent
    {program : Kernel β D N α}
    (silent : ∀ run, (program.final run).journal = run.journal) :
    Tells conduct program :=
  .of_quiet fun run => ⟨[], by rw [silent, List.append_nil], fun _ _ => List.not_mem_nil⟩

theorem bind
    {program : Kernel β D N α}
    {next : α → Kernel β D N γ}
    (composed : Composed conduct program)
    (first : Tells conduct program)
    (rest : ∀ value, Tells conduct (next value)) :
    Tells conduct (program >>= next) where
  continues run := by
    cases ended : program run with
    | ok value middle =>
        have start := first.continues run
        rw [final_bind_ok ended]
        unfold final at start
        rw [ended] at start
        exact start.trans ((rest value).continues middle)
    | error cause after =>
        rw [final_bind_error ended]
        exact first.continues run
  told {run before others origin label} tells within := by
    cases ended : program run with
    | error cause after =>
        rw [final_bind_error ended] at tells
        obtain ⟨request, just, named, here, takes⟩ := first.told tells within
        exact ⟨request, just, named, here, .first takes⟩
    | ok value middle =>
        rw [final_bind_ok ended] at tells
        by_cases early : before.length < middle.journal.toList.length
        · have initial := (rest value).continues middle
          rw [tells] at initial
          obtain ⟨between, split⟩ := prefix_split initial early
          have start : (program.final run).journal.toList =
              before ++ .taken origin label :: between := by
            unfold final
            rw [ended]
            exact split
          obtain ⟨request, just, named, here, takes⟩ := first.told start within
          exact ⟨request, just, named, here, .first takes⟩
        · obtain ⟨request, just, named, here, takes⟩ :=
            (rest value).told tells (Nat.le_of_not_lt early)
          exact ⟨request, just, named, here, .later composed ended takes⟩

theorem look
    {next : Machine β D → Kernel β D N α}
    (rest : ∀ machine, Tells conduct (next machine)) :
    Tells conduct (machine >>= next) where
  continues run := (rest run.machine).continues run
  told {run _ _ _ _} tells within := by
    obtain ⟨request, just, named, here, takes⟩ := (rest run.machine).told tells within
    exact ⟨request, just, named, here, .look takes⟩

theorem orMend
    {program : Kernel β D N α}
    (tells : Tells conduct program)
    (mend : List (Request β) → List (Request β)) :
    Tells conduct
      (Kernel.orMend program fun machine => { machine with inbox := mend machine.inbox }) := by
  have same (run : Run β D N) :
      ((Kernel.orMend program fun machine =>
        { machine with inbox := mend machine.inbox }).final run).journal =
        (program.final run).journal := by
    unfold final Kernel.orMend
    cases program run with
    | ok value after => rfl
    | error cause after => cases cause <;> rfl
  constructor
  · intro run
    rw [same]
    exact tells.continues run
  · intro run before rest origin label wrote within
    rw [same] at wrote
    obtain ⟨request, just, named, here, takes⟩ := tells.told wrote within
    exact ⟨request, just, named, here, .mended takes mend⟩

/-- What is taken up is written down first. -/
theorem takeUp_written (origin : Origin) (request : Request β) (run : Run β D N) :
    ∃ others : List (Entry β N),
      ((Kernel.takeUp origin request).final run).journal.toList =
        run.journal.toList ++ .taken origin request.label :: others ∧
      ∀ origin label, .taken origin label ∉ others := by
  unfold final
  cases request with
  | fresh kind =>
      rw [takeUp_fresh]
      cases run.machine.registry.prototype kind with
      | error refusal => exact ⟨[], Array.toList_push, fun _ _ => List.not_mem_nil⟩
      | ok behavior =>
          let event : LogEvent :=
            .made kind (run.machine.shownName kind) ⟨run.machine.made + 1⟩
          refine ⟨[.copied kind behavior, .logged event], ?_, by simp⟩
          simp only [Run.counted, Run.write_journal, Run.mapMachine_journal, Array.toList_push,
            List.append_assoc, List.cons_append, List.nil_append]
          rfl
  | existing subject =>
      rw [takeUp_existing]
      by_cases own : subject.owner = run.machine.id
      · rw [if_pos own]
        exact ⟨[], Array.toList_push, fun _ _ => List.not_mem_nil⟩
      · rw [if_neg own]
        exact ⟨[], Array.toList_push, fun _ _ => List.not_mem_nil⟩

/-- To take up a request shows in the journal before it is done. -/
theorem takeUp (origin : Origin) (request : Request β) :
    Tells conduct (Kernel.takeUp origin request : Kernel β D N (Transition β)) where
  continues run := by
    obtain ⟨others, wrote, -⟩ := takeUp_written origin request run
    exact ⟨_, wrote.symm⟩
  told {run before rest found label} tells within := by
    obtain ⟨others, wrote, silent⟩ := takeUp_written origin request run
    rw [wrote] at tells
    obtain ⟨between, rfl⟩ := List.prefix_of_prefix_length_le ⟨_, tells⟩ ⟨_, rfl⟩ within
    rw [List.append_assoc] at tells
    have listed := List.append_cancel_left tells
    cases between with
    | nil =>
        rw [List.nil_append] at listed
        cases listed
        exact ⟨request, run, rfl, (List.append_nil _).symm, .here⟩
    | cons entry more =>
        rw [List.cons_append] at listed
        cases listed
        exact absurd (List.mem_append_right _ List.mem_cons_self) (silent found label)

end Tells

/-- What a chain takes up shows in the journal, for any budget. -/
theorem serveWithin_tells
    {conduct : Conduct β D N}
    (found : Composed conduct (nextRequest : Kernel β D N (Option (Request β))))
    (served : ∀ asked, Composed conduct (serveAsked conduct asked))
    (next : Tells conduct (nextRequest : Kernel β D N (Option (Request β))))
    (each : ∀ asked, Tells conduct (serveAsked conduct asked))
    (budget : Nat) :
    Tells conduct (serveWithin conduct budget) := by
  induction budget with
  | zero =>
      refine .look fun machine => ?_
      split
      · exact .of_silent fun _ => rfl
      · exact .of_quiet fun run => ⟨[.logged _], Array.toList_push, by simp⟩
  | succ budget inductionHypothesis =>
      refine .bind found next fun asked => ?_
      cases asked with
      | none => exact .of_silent fun _ => rfl
      | some asked => exact .bind (served asked) (each asked) fun _ => inductionHypothesis

/-- The journal of what operations are composed of tells of all that is taken up. -/
theorem Composed.tells
    {conduct : Conduct β D N}
    {program : Kernel β D N α}
    (composed : Composed conduct program) :
    Tells conduct program := by
  induction composed with
  | pure value => exact .of_silent fun _ => rfl
  | refuse refusal => exact .of_silent fun _ => rfl
  | bind composed _ first rest => exact .bind composed first rest
  | look _ _ rest => exact .look rest
  | change change => exact .of_silent fun _ => rfl
  | write entry other =>
      refine .of_quiet fun run => ⟨[entry], Array.toList_push, ?_⟩
      intro origin label member
      exact other origin label (List.mem_singleton.mp member).symm
  | record source target subject => exact .of_silent fun _ => rfl
  | react hook subject =>
      refine .of_quiet fun run => ?_
      unfold final
      rw [modifyGet_apply, Run.react_eq]
      let notes := (run.reaction conduct hook subject).notes
      refine ⟨.called hook subject.kind subject.serial :: notes.map .noted, ?_, by simp⟩
      simp [Run.reacted, notes]
  | breakOff breakdown => exact .of_silent fun _ => by cases breakdown <;> rfl
  | handle move => exact .of_silent fun _ => rfl
  | takeUp origin request => exact .takeUp origin request
  | orMend _ mend tells => exact .orMend tells mend
  | serveHooks found served next each =>
      exact .look fun machine => serveWithin_tells found served next each (chainBudget machine)

end Kernel

/-! ## Machines and their states -/

/-- A state that a machine can enter without another request, or has entered. -/
def Machine.Admits (machine : Machine β D) (subject : Instance β) : Prop :=
  machine.current = some subject ∨ machine.pending = some (.replace subject) ∨
    ∃ serial : Serial, machine.parked[serial]? = some subject

theorem Machine.Admits.mem_states
    {machine : Machine β D}
    {subject : Instance β}
    (admits : machine.Admits subject) :
    subject ∈ machine.states := by
  unfold states
  rcases admits with current | pending | ⟨serial, parked⟩
  · simp [current]
  · simp [pending, Transition.subject?]
  · have listed := Std.TreeMap.mem_toList_iff_getElem?_eq_some.mpr parked
    have present := List.mem_map_of_mem (f := Prod.snd) listed
    exact List.mem_append_left _ (List.mem_append_right _ present)

namespace World

variable {annals : Annals β N} {world after : World β D} {name : String} {machine : Machine β D}

/-- The number of every state in a world is in the ledger of the machine that made it. -/
theorem Settled.numbered
    (settled : Settled annals world)
    {subject : Instance β}
    (here : subject ∈ world.states) :
    subject.serial ∈ numbersIn (annals.ledger subject.owner) := by
  have present := (settled.tally_pos_iff _ _).mpr (List.mem_map_of_mem here)
  exact List.count_pos_iff.mp (Nat.lt_of_lt_of_le present (settled.once _ _))

/-- A machine has made the states that it can enter. -/
theorem Settled.admitted
    (settled : Settled annals world)
    (named : world.machines[name]? = some machine)
    {subject : Instance β}
    (admits : machine.Admits subject) :
    subject.owner = machine.id ∧ subject.serial ∈ numbersIn (annals.ledger machine.id) := by
  have owned := (settled.kept name machine named).owned
  have own : subject.owner = machine.id := by
    rcases admits with current | pending | ⟨serial, parked⟩
    · exact owned.current subject current
    · exact owned.pending _ subject pending List.mem_cons_self
    · exact owned.parked serial subject parked
  have listed := Std.TreeMap.mem_toList_iff_getElem?_eq_some.mpr named
  have here : subject ∈ world.states :=
    List.mem_append_left _ (List.mem_flatMap.mpr ⟨_, listed, admits.mem_states⟩)
  have numbered := settled.numbered here
  rw [own] at numbered
  exact ⟨own, numbered⟩

/-- Nothing has happened in a machine that has just been built, and no state is of its making. -/
theorem Settled.built_fresh
    (settled : Settled annals world)
    {make : MachineId → Except Rejection (Machine β D)}
    (fresh : ∀ id machine, make id = .ok machine → machine.IsNew id)
    (done : world.build name make = .ok after)
    (named : after.machine? name = .ok machine) :
    annals.about machine.id = [] ∧ ∀ subject ∈ world.states, subject.owner ≠ machine.id := by
  unfold World.build at done
  split at done
  · nomatch done
  next made maker =>
  cases done
  have found := machine?_eq_ok.mp named
  rw [Std.TreeMap.getElem?_insert_self] at found
  cases found
  have unbuilt : world.built < machine.id.number := by
    obtain ⟨config, registry, data, same⟩ := (fresh _ _ maker).eq_idle
    rw [same]
    exact Nat.lt_succ_self _
  refine ⟨settled.about_unbuilt _ unbuilt, fun subject here own => ?_⟩
  have numbered := settled.numbered here
  rw [own, settled.ledger_unbuilt _ unbuilt] at numbered
  cases numbered

/-- What becomes of a machine whose operation takes up a request for a state of another machine. -/
theorem operate_foreign
    {conduct : Conduct β D N}
    (named : world.machines[name]? = some machine)
    {now : Instant}
    {operation : Operation β D}
    {origin : Origin}
    {subject : Instance β}
    {just : Run β D N}
    (takes : Kernel.TakesUp conduct origin (.existing subject) just
      (Kernel.perform conduct operation) ⟨machine, world.hands, #[], now⟩)
    (foreign : subject.owner ≠ machine.id) :
    ∃ inbox, world.operate conduct now name operation =
      (.error (.interrupted (.refused (.foreign subject.serial))),
        just.journal.push (.taken origin (Request.existing subject).label),
        { world with
          machines := world.machines.insert name { just.machine with inbox := inbox }
          hands := just.hands }) := by
  obtain ⟨inbox, refused⟩ := takes.foreign (takes.id_eq ▸ foreign)
  refine ⟨inbox, ?_⟩
  unfold World.operate Run.perform
  rw [machine?_eq_ok.mpr named]
  dsimp only
  rw [refused]
  rfl

end World

/-- Every state that a machine has entered or can enter was made by it, and neither by another
machine nor by one that is gone.  Where an operation takes up a request for a state of another
machine, be it from the caller, from a handle or from a hook, it is refused with the number of the
state.  Nothing else happens then, and the machine stays as it was just before except for its
inbox. -/
theorem foreign_states_stay_out
    {conduct : Conduct β D N}
    {annals : Annals β N}
    {world : World β D}
    (reached : World.Reachable conduct annals world) :
    (∀ name machine subject, world.machine? name = .ok machine → machine.Admits subject →
      subject.owner = machine.id ∧ subject.serial ∈ numbersIn (annals.ledger machine.id)) ∧
    (∀ first second machine other, world.machine? first = .ok machine →
      world.machine? second = .ok other → machine.id = other.id → first = second) ∧
    (∀ name make after machine, (∀ id made, make id = .ok made → Machine.IsNew made id) →
      world.build name make = .ok after → after.machine? name = .ok machine →
      annals.about machine.id = [] ∧ ∀ subject ∈ world.states, subject.owner ≠ machine.id) ∧
    ∀ name machine now operation, world.machine? name = .ok machine →
      let program : Kernel β D N Reply := .perform conduct operation
      let run : Run β D N := ⟨machine, world.hands, #[], now⟩
      (∀ origin subject just, Kernel.TakesUp conduct origin (.existing subject) just program run →
        subject.owner ≠ machine.id →
        ∃ inbox, world.operate conduct now name operation =
          (.error (.interrupted (.refused (.foreign subject.serial))),
            just.journal.push (.taken origin (Request.existing subject).label),
            { world with
              machines := world.machines.insert name { just.machine with inbox := inbox }
              hands := just.hands })) ∧
      ∀ before origin label rest,
        (world.operate conduct now name operation).2.1.toList =
          before ++ .taken origin label :: rest →
        ∃ request just, Request.label request = label ∧ just.journal.toList = before ∧
          Kernel.TakesUp conduct origin request just program run := by
  have settled := reached.settled
  refine ⟨fun name machine subject named admits => ?_,
    fun first second machine other one two => ?_,
    fun name make after machine fresh done named => settled.built_fresh fresh done named,
    fun name machine now operation named => ?_⟩
  · exact settled.admitted (World.machine?_eq_ok.mp named) admits
  · exact settled.apart first second machine other (World.machine?_eq_ok.mp one)
      (World.machine?_eq_ok.mp two)
  have found := World.machine?_eq_ok.mp named
  refine ⟨fun origin subject just takes foreign => World.operate_foreign found takes foreign,
    fun before origin label rest wrote => ?_⟩
  have composed : Kernel.Composed conduct (Kernel.perform conduct operation) := .perform operation
  rw [World.operate_eq conduct found now operation] at wrote
  dsimp only at wrote
  rw [Run.perform_final] at wrote
  exact composed.tells.told wrote (Nat.zero_le _)

/-- The neighbours after a caller has asked the brittle machine for a state. -/
def neighboursWithSpare : World Actor Meter :=
  neighboursAfter [("brittle", .create ⟨2⟩ "spare")]

/-- The plain machine refuses the state of the brittle one. -/
theorem foreign_states_stay_out_neighbours :
    (neighboursWithSpare.operate Actor.conduct .epoch "plain" (.switchTo (.held "spare"))).1 =
      .error (.interrupted (.refused (.foreign ⟨1⟩))) := by
  obtain ⟨annals, reached⟩ := neighboursAfter_reachable [("brittle", .create ⟨2⟩ "spare")]
  obtain ⟨-, -, -, operations⟩ := foreign_states_stay_out reached
  have held : neighboursWithSpare.hands["spare"]?.map Instance.address = some (⟨1⟩, ⟨1⟩) := by
    decide +kernel
  have here : neighboursWithSpare.machines["plain"]?.map
      (fun machine => (machine.id, machine.inbox.isEmpty)) = some (⟨2⟩, true) := by
    decide +kernel
  obtain ⟨subject, found, address⟩ := Option.map_eq_some_iff.mp held
  obtain ⟨machine, named, shape⟩ := Option.map_eq_some_iff.mp here
  have owner : subject.owner = ⟨1⟩ := congrArg Prod.fst address
  have serial : subject.serial = ⟨1⟩ := congrArg Prod.snd address
  have id : machine.id = ⟨2⟩ := congrArg Prod.fst shape
  have empty : machine.inbox = [] := List.isEmpty_iff.mp (congrArg Prod.snd shape)
  have foreign : subject.owner ≠ machine.id := by
    rw [owner, id]
    decide
  let run : Run Actor Meter Note := ⟨machine, neighboursWithSpare.hands, #[], .epoch⟩
  have inHands : run.hands["spare"]? = some subject := found
  have takes := Kernel.switchTo_takesUp Actor.conduct inHands empty
  obtain ⟨refused, -⟩ := operations "plain" machine .epoch (.switchTo (.held "spare"))
    (World.machine?_eq_ok.mpr named)
  obtain ⟨inbox, answer⟩ := refused .caller subject _ takes foreign
  rw [serial] at answer
  exact congrArg Prod.fst answer

end TickMachine
