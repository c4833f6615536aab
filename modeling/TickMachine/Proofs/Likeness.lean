import TickMachine.Proofs.Kinship

/-!
# Likeness

Two runs can be alike although their clocks differ, and with them the times in the histories of
their machines.  A likeness says how much the histories, and what the configurations say about
them, may differ.  No program of the kernel looks at the history, so a program that starts on runs
that are alike gives equal results and ends on runs that are alike.
-/

namespace TickMachine

variable {β D N α γ : Type}

/-- A way in which configurations and histories of two machines can be alike. -/
structure Likeness where
  same : Config → History → Config → History → Prop
  /-- Both machines take transitions in the same mode. -/
  immediate {config other : Config} {history record : History} :
    same config history other record → other.immediate = config.immediate
  /-- Both machines have the same shutdown state. -/
  shutdown {config other : Config} {history record : History} :
    same config history other record → other.shutdown = config.shutdown
  /-- The histories stay alike when a transition is recorded in both, at whatever times. -/
  record {config other : Config} {history record : History}
      (source target : Option Kind) (subject : Option Serial) (now later : Instant) :
    same config history other record →
      same config (history.record ⟨source, target, subject, now⟩)
        other (record.record ⟨source, target, subject, later⟩)

/-- Whether a journal entry is about the handing over of requests. -/
def Entry.isClerical : Entry β N → Bool
  | .posted _ | .taken _ _ => true
  | _ => false

/-- A journal without the handing over of requests. -/
def substance (journal : Array (Entry β N)) : List (Entry β N) :=
  journal.toList.filter fun entry => !entry.isClerical

/-- Two machines are equal apart from what a likeness leaves open. -/
def Likeness.Machines (likeness : Likeness) (first second : Machine β D) : Prop :=
  ∃ config history, second = { first with config := config, history := history } ∧
    likeness.same first.config first.history config history

/-- Two runs are equal apart from their clocks, from the handing over of requests and from what a
likeness leaves open. -/
structure Alike (likeness : Likeness) (first second : Run β D N) : Prop where
  machine : likeness.Machines first.machine second.machine
  hands : second.hands = first.hands
  journal : substance second.journal = substance first.journal

/-- Two results are equal, and the runs with which they come are alike. -/
inductive Matches (likeness : Likeness) :
    EStateM.Result Interruption (Run β D N) α →
      EStateM.Result Interruption (Run β D N) α → Prop where
  | ok (value : α) {first second : Run β D N} (alike : Alike likeness first second) :
      Matches likeness (.ok value first) (.ok value second)
  | error (cause : Interruption) {first second : Run β D N} (alike : Alike likeness first second) :
      Matches likeness (.error cause first) (.error cause second)

/-- Two programs have equal results on runs that are alike, and keep them alike. -/
def Agree (likeness : Likeness) (first second : Kernel β D N α) : Prop :=
  ∀ ⦃left right : Run β D N⦄, Alike likeness left right →
    Matches likeness (first left) (second right)

namespace Alike

variable {likeness : Likeness} {left right : Run β D N}

theorem write
    (alike : Alike likeness left right)
    (entry : Entry β N) :
    Alike likeness (left.write entry) (right.write entry) where
  machine := alike.machine
  hands := alike.hands
  journal := by
    have journal := alike.journal
    simp only [substance, Run.write_journal, Array.toList_push, List.filter_append] at journal ⊢
    rw [journal]

/-- The handing over of a request leaves runs alike. -/
theorem write_clerical
    (alike : Alike likeness left right)
    (first second : Entry β N)
    (firstClerical : first.isClerical = true)
    (secondClerical : second.isClerical = true) :
    Alike likeness (left.write first) (right.write second) where
  machine := alike.machine
  hands := alike.hands
  journal := by
    have journal := alike.journal
    simp only [substance, Run.write_journal, Array.toList_push, List.filter_append] at journal ⊢
    rw [journal]
    simp [firstClerical, secondClerical]

/-- Machines that are alike are changed in the same way. -/
theorem mapMachine
    (alike : Alike likeness left right)
    (first second : Machine β D → Machine β D)
    (machines : ∀ ⦃machine other⦄, likeness.Machines machine other →
      likeness.Machines (first machine) (second other)) :
    Alike likeness (left.mapMachine first) (right.mapMachine second) where
  machine := machines alike.machine
  hands := alike.hands
  journal := alike.journal

theorem recorded
    (alike : Alike likeness left right)
    (source target : Option Kind)
    (subject : Option Serial) :
    Alike likeness (left.recorded source target subject)
      (right.recorded source target subject) := by
  refine alike.mapMachine _ _ ?_
  rintro machine _ ⟨config, history, rfl, same⟩
  exact ⟨config, _, rfl, likeness.record source target subject left.now right.now same⟩

/-- Runs that are alike are bound. -/
theorem bond (likeness : Likeness) :
    Bond (Alike likeness : Run β D N → Run β D N → Prop) where
  shown {left _} alike := by
    obtain ⟨config, history, shared, -⟩ := alike.machine
    exact ⟨config, history, left.machine.inbox, left.machine.pending, shared⟩
  hands alike := alike.hands
  write entry alike := alike.write entry
  change change isLocal alike := by
    refine alike.mapMachine change change ?_
    rintro machine _ ⟨config, history, rfl, same⟩
    obtain ⟨sameConfig, sameHistory, _, _⟩ := isLocal.frame machine
    refine ⟨config, history, isLocal.exchange machine config history, ?_⟩
    rw [sameConfig, sameHistory]
    exact same
  recorded source target subject alike := alike.recorded source target subject

/-- Runs stay alike whatever hooks are called. -/
theorem spared (likeness : Likeness) (conduct : Conduct β D N) (hook : Hook) :
    Spared conduct (Alike likeness) hook := by
  intro left right subject alike
  have reaction : right.reaction conduct hook subject = left.reaction conduct hook subject :=
    (bond likeness).reaction alike hook subject
  obtain ⟨config, history, shared, same⟩ := alike.machine
  refine ⟨?_, ?_, ?_⟩
  · rw [Run.reacted, Run.reacted, Run.asked, Run.asked, reaction, alike.hands, shared]
    exact ⟨config, history, rfl, same⟩
  · rw [Run.reacted, Run.reacted, reaction, alike.hands]
  · have journal := alike.journal
    rw [Run.reacted, Run.reacted, reaction]
    simp only [substance, Array.toList_appendList, Array.toList_push, List.filter_append] at *
    rw [journal]

end Alike

/-! ## Rules -/

namespace Agree

variable {likeness : Likeness}

/-- Programs agree where they have equal results on runs that are bound by likeness. -/
theorem of_parallel
    {first second : Kernel β D N α}
    (parallel : Parallel (Alike likeness) first second) :
    Agree likeness first second := by
  intro left right alike
  have ends := parallel alike
  generalize first left = ended, second right = other at ends ⊢
  cases ends with
  | ok value alike => exact .ok value alike
  | error cause alike => exact .error cause alike

theorem parallel
    {first second : Kernel β D N α}
    (agree : Agree likeness first second) :
    Parallel (Alike likeness) first second := by
  intro left right alike
  have matched := agree alike
  generalize first left = ended, second right = other at matched ⊢
  cases matched with
  | ok value alike => exact .ok value alike
  | error cause alike => exact .error cause alike

/-- One program after the other. -/
theorem bind
    {first second : Kernel β D N α}
    {next rest : α → Kernel β D N γ}
    (start : Agree likeness first second)
    (continue_ : ∀ value, Agree likeness (next value) (rest value)) :
    Agree likeness (first >>= next) (second >>= rest) :=
  of_parallel (start.parallel.bind fun value => (continue_ value).parallel)

end Agree

/-! ## Programs -/

namespace Likeness

variable {likeness : Likeness}

/-- Machines that are alike differ in the limits of their configurations and in their histories
only. -/
theorem withLimits
    {machine : Machine β D}
    {config : Config}
    {history : History}
    (same : likeness.same machine.config machine.history config history) :
    { machine with config := config, history := history } =
      machine.withLimits config.chainLimit config.historyLimit history := by
  obtain ⟨immediate, shutdown, chainLimit, historyLimit⟩ := config
  obtain rfl : immediate = machine.config.immediate := likeness.immediate same
  obtain rfl : shutdown = machine.config.shutdown := likeness.shutdown same
  rfl

end Likeness

namespace Kernel

variable {likeness : Likeness} {conduct : Conduct β D N}

/-- It does not matter who asked for a request. -/
theorem takeUp_agrees (first second : Origin) (request : Request β) :
    Agree likeness (takeUp first request : Kernel β D N (Transition β))
      (takeUp second request) := by
  refine .of_parallel ((Alike.bond likeness).takeUp first second request ?_)
  exact fun _ _ alike => .ok () (alike.write_clerical _ _ rfl rfl)

/-- Machines that are alike allow chains of the same length. -/
def Steady (likeness : Likeness) : Prop :=
  ∀ ⦃config other : Config⦄ ⦃history record : History⦄,
    likeness.same config history other record → other.chainLimit = config.chainLimit

end Kernel

/-- Runs that are alike are akin if the machines allow chains of the same length. -/
theorem Alike.kinship
    {likeness : Likeness}
    (steady : Kernel.Steady likeness)
    (conduct : Conduct β D N) :
    Kinship conduct (Alike likeness) where
  toBond := Alike.bond likeness
  same {left right} alike := by
    obtain ⟨config, history, shared, same⟩ := alike.machine
    refine ⟨config.historyLimit, history, ?_⟩
    rw [shared, Likeness.withLimits same, steady same]
  inner change inner alike := by
    refine alike.mapMachine change change ?_
    rintro machine _ ⟨config, history, rfl, same⟩
    obtain ⟨-, sameConfig, sameHistory⟩ := inner.frame machine
    refine ⟨config, history, inner.exchange machine config history, ?_⟩
    rw [sameConfig, sameHistory]
    exact same
  handle _ alike := ⟨alike.machine, rfl, alike.journal⟩
  spared hook := Alike.spared likeness conduct hook

/-- What operations are composed of does the same on machines that are alike. -/
theorem Kernel.Composed.agrees
    {likeness : Likeness}
    {conduct : Conduct β D N}
    {program : Kernel β D N α}
    (composed : Composed conduct program)
    (steady : Steady likeness) :
    Agree likeness program program :=
  .of_parallel (composed.parallel (Alike.kinship steady conduct))

end TickMachine
