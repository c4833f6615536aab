import TickMachine.Builder
import TickMachine.Proofs.Registering

/-!
# The order of building steps

A builder may be told about the configuration and about kinds in any order.  What it makes depends
only on the last word about each field of the configuration and on the registrations in their order:
the first kind that was given twice is reported before anything else, then a chain limit of zero,
then a shutdown kind that is not concrete.  The direct way, which stops at the first refusal, ends
alike.
-/

namespace TickMachine

/-! ## The last word about each field -/

/-- What a change tells about the fields of a configuration. -/
def ConfigChange.tells : ConfigChange → Config.Draft
  | .all config =>
      ⟨some config.immediate, some config.shutdown, some config.chainLimit,
        some config.historyLimit⟩
  | .text source =>
      match Config.ofText source with
      | .ok config =>
          ⟨some config.immediate, some config.shutdown, some config.chainLimit,
            some config.historyLimit⟩
      | .error _ => {}
  | .immediate value => { immediate := some value }
  | .shutdown kind => { shutdown := some (some kind) }
  | .chainLimit limit => { chainLimit := some limit }
  | .historyLimit limit => { historyLimit := some limit }

/-- A change can be made: if it is a text, then one of a configuration. -/
def ConfigChange.Readable (change : ConfigChange) : Prop :=
  ∀ source, change = .text source → ∃ config, Config.ofText source = .ok config

namespace Config

/-- The last that changes tell about each field. -/
def lastTold (changes : List ConfigChange) : Draft where
  immediate := (changes.filterMap fun change => change.tells.immediate).getLast?
  shutdown := (changes.filterMap fun change => change.tells.shutdown).getLast?
  chainLimit := (changes.filterMap fun change => change.tells.chainLimit).getLast?
  historyLimit := (changes.filterMap fun change => change.tells.historyLimit).getLast?

/-- The configuration that changes settle: the last that they tell about each field, or its default
value. -/
def settled (changes : List ConfigChange) : Config :=
  (lastTold changes).complete

/-- A draft that is laid over a configuration: its fields replace those of the configuration. -/
def Draft.over (draft : Draft) (config : Config) : Config where
  immediate := draft.immediate.getD config.immediate
  shutdown := draft.shutdown.getD config.shutdown
  chainLimit := draft.chainLimit.getD config.chainLimit
  historyLimit := draft.historyLimit.getD config.historyLimit

/-- The configuration is the default one with the last change of each setting over it. -/
theorem settled_eq_over (changes : List ConfigChange) :
    settled changes = (lastTold changes).over {} :=
  rfl

/-- A change replaces the fields that it tells something about. -/
theorem change_eq_over (config : Config) {change : ConfigChange} (readable : change.Readable) :
    config.change change = .ok (change.tells.over config) := by
  cases change with
  | text source =>
      obtain ⟨next, reads⟩ := readable source rfl
      simp [Config.change, ConfigChange.tells, reads, Draft.over]
  | all | immediate | shutdown | chainLimit | historyLimit => rfl

theorem getLast?_filterMap_cons
    {α γ : Type}
    (tell : α → Option γ)
    (first : α)
    (more : List α)
    (default : γ) :
    ((first :: more).filterMap tell).getLast?.getD default =
      (more.filterMap tell).getLast?.getD ((tell first).getD default) := by
  cases told : tell first with
  | none => rw [List.filterMap_cons_none told, Option.getD_none]
  | some value => rw [List.filterMap_cons_some told, List.getLast?_cons, Option.getD_some,
      Option.getD_some]

/-- The last word may be taken before or after the first change is made. -/
theorem over_lastTold_cons (config : Config) (change : ConfigChange) (more : List ConfigChange) :
    (lastTold (change :: more)).over config = (lastTold more).over (change.tells.over config) := by
  simp only [lastTold, Draft.over, getLast?_filterMap_cons]

end Config

/-! ## Steps -/

namespace BuildStep

variable {β : Type}

/-- The change that a step makes to the configuration, if it makes one. -/
def configures? : BuildStep β → Option ConfigChange
  | .configure change => some change
  | .register _ _ => none

/-- What a step registers, if anything. -/
def registers? : BuildStep β → Option (Kind × Registration β)
  | .configure _ => none
  | .register kind registration => some (kind, registration)

/-- The changes of the configuration, in order. -/
def changes (steps : List (BuildStep β)) : List ConfigChange :=
  steps.filterMap configures?

/-- The registrations, in order. -/
def registrations (steps : List (BuildStep β)) : List (Kind × Registration β) :=
  steps.filterMap registers?

/-- The kinds that are registered, in order. -/
def kinds (steps : List (BuildStep β)) : List Kind :=
  (registrations steps).map Prod.fst

/-- Every text among the steps is that of a configuration. -/
def AllReadable (steps : List (BuildStep β)) : Prop :=
  ∀ change ∈ changes steps, change.Readable

/-- Steps are readable if there is no text among them. -/
theorem allReadable_of_no_text
    {steps : List (BuildStep β)}
    (noText : ∀ source, .text source ∉ changes steps) :
    AllReadable steps :=
  fun _ member source text => absurd (text ▸ member) (noText source)

/-- Why steps make no machine.  A repeated kind is a reason whatever the configuration, and the
configuration is judged by what it is in the end. -/
inductive Refused (steps : List (BuildStep β)) : Rejection → Prop where
  | duplicateKind
      {kind : Kind}
      (again : RepeatsFirst (kinds steps) kind) :
      Refused steps (.duplicateKind kind)
  | zeroChainLimit
      (once : (kinds steps).Nodup)
      (zero : (Config.settled (changes steps)).chainLimit = 0) :
      Refused steps .zeroChainLimit
  | shutdownNotConcrete
      {kind : Kind}
      (once : (kinds steps).Nodup)
      (positive : (Config.settled (changes steps)).chainLimit ≠ 0)
      (named : (Config.settled (changes steps)).shutdown = some kind)
      (bare : ∀ registration, (kind, registration) ∈ registrations steps →
        registration.prototype = none) :
      Refused steps (.shutdownNotConcrete kind)

end BuildStep

open BuildStep

variable {β D : Type}

/-! ## Builders -/

namespace Builder

/-- The registry of a builder, unless a registration was refused. -/
def outcome (builder : Builder β D) : Except Rejection (Registry β) :=
  match builder.fault with
  | some rejection => .error rejection
  | none => .ok builder.registry

/-- A builder that remembers a refusal does not get over it, and one without goes on as its registry
does. -/
theorem outcome_register
    (builder : Builder β D)
    (kind : Kind)
    (registration : Registration β) :
    (builder.register kind registration).outcome =
      builder.outcome.bind fun registry => registry.insert kind registration := by
  obtain ⟨config, registry, data, fault⟩ := builder
  cases inserts : registry.insert kind registration <;>
    cases fault <;>
    simp [register, outcome, inserts, Except.bind]

theorem config_register
    (builder : Builder β D)
    (kind : Kind)
    (registration : Registration β) :
    (builder.register kind registration).config = builder.config := by
  rw [register]
  split <;> rfl

theorem data_register
    (builder : Builder β D)
    (kind : Kind)
    (registration : Registration β) :
    (builder.register kind registration).data = builder.data := by
  rw [register]
  split <;> rfl

/-- What a builder becomes when it takes steps: the configuration hears the changes only, and the
registry the registrations only. -/
theorem takeAll_eq
    (builder : Builder β D)
    {steps : List (BuildStep β)}
    (readable : AllReadable steps) :
    ∃ last, builder.takeAll steps = .ok last ∧
      last.config = (Config.lastTold (changes steps)).over builder.config ∧
      last.data = builder.data ∧
      last.outcome = builder.outcome.bind fun registry =>
        registry.insertAll (registrations steps) := by
  induction steps generalizing builder with
  | nil =>
      refine ⟨builder, rfl, rfl, rfl, ?_⟩
      cases builder.outcome <;> rfl
  | cons step more inductionHypothesis =>
      cases step with
      | configure change =>
          obtain ⟨first, others⟩ := List.forall_mem_cons.mp readable
          obtain ⟨last, takes, config, data, outcome⟩ :=
            inductionHypothesis { builder with config := change.tells.over builder.config } others
          refine ⟨last, ?_, ?_, data, outcome⟩
          · rw [takeAll, take, configure, Config.change_eq_over builder.config first]
            exact takes
          · exact config.trans (Config.over_lastTold_cons builder.config change _).symm
      | register kind registration =>
          obtain ⟨last, takes, config, data, outcome⟩ :=
            inductionHypothesis (builder.register kind registration) readable
          rw [config_register] at config
          rw [data_register] at data
          refine ⟨last, takes, config, data, outcome.trans ?_⟩
          rw [outcome_register]
          cases builder.outcome <;> rfl

/-- A builder makes a machine of its registry and its configuration. -/
theorem build_eq (builder : Builder β D) (id : MachineId) :
    builder.build id = builder.outcome.bind fun registry =>
      Machine.make id builder.config registry builder.data := by
  rw [build, outcome]
  cases builder.fault <;> rfl

end Builder

/-! ## Machines -/

namespace Machine

variable {id : MachineId} {data : D} {steps : List (BuildStep β)}

/-- To build a machine is to register all kinds, up to the first that is refused, and to make a
machine with the configuration that was settled. -/
theorem ofSteps_eq (readable : AllReadable steps) :
    ofSteps id data steps =
      (Registry.empty.insertAll (registrations steps)).bind fun registry =>
        make id (Config.settled (changes steps)) registry data := by
  obtain ⟨last, takes, config, sameData, outcome⟩ := (Builder.start data).takeAll_eq readable
  rw [ofSteps, takes]
  change last.build id = _
  rw [last.build_eq, config, sameData, outcome]
  rfl

/-- The direct way comes to the same end. -/
theorem ofStepsDirectly_eq
    (readable : AllReadable steps)
    (config : Config)
    (registry : Registry β) :
    ofStepsDirectly id data config registry steps =
      (registry.insertAll (registrations steps)).bind fun registry =>
        make id ((Config.lastTold (changes steps)).over config) registry data := by
  induction steps generalizing config registry with
  | nil => rfl
  | cons step more inductionHypothesis =>
      cases step with
      | configure change =>
          obtain ⟨first, others⟩ := List.forall_mem_cons.mp readable
          have goesOn := inductionHypothesis others (change.tells.over config) registry
          rw [← Config.over_lastTold_cons] at goesOn
          rw [ofStepsDirectly, stepDirectly, config.change_eq_over first]
          exact goesOn
      | register kind registration =>
          have goesOn := inductionHypothesis readable config
          rw [ofStepsDirectly, stepDirectly]
          have shape : registrations (.register kind registration :: more) =
              (kind, registration) :: registrations more := rfl
          rw [shape, Registry.insertAll]
          cases registry.insert kind registration with
          | error rejection => rfl
          | ok next => exact goesOn next

/-! ## Verdicts -/

section Making

variable {config : Config} {registry : Registry β} {kind : Kind}

/-- A chain limit of zero is refused before anything else. -/
theorem make_of_zero (zero : config.chainLimit = 0) :
    make id config registry data = .error .zeroChainLimit := by
  rw [make, Config.accept, if_pos zero]

/-- A shutdown kind without states is refused. -/
theorem make_of_bare
    (positive : config.chainLimit ≠ 0)
    (named : config.shutdown = some kind)
    (bare : registry.isConcrete kind = false) :
    make id config registry data = .error (.shutdownNotConcrete kind) := by
  have found : config.shutdown.filter (fun kind => !registry.isConcrete kind) = some kind := by
    simp [named, bare]
  simp [make, Config.accept, positive, found]

/-- Any other configuration makes a machine without states. -/
theorem make_of_concrete
    (positive : config.chainLimit ≠ 0)
    (concrete : ∀ kind ∈ config.shutdown, registry.isConcrete kind = true) :
    make id config registry data = .ok (idle id config registry data) := by
  have willing : config.shutdown.filter (fun kind => !registry.isConcrete kind) = none := by
    simpa [Option.filter_eq_none_iff] using concrete
  simp [make, Config.accept, positive, willing]

end Making

/-- A reason why steps make no machine is what is reported. -/
theorem ofSteps_of_refused
    {rejection : Rejection}
    (readable : AllReadable steps)
    (refused : Refused steps rejection) :
    ofSteps id data steps = .error rejection := by
  rw [ofSteps_eq readable]
  cases refused with
  | duplicateKind again => rw [Registry.insertAll_of_repeatsFirst again]; rfl
  | zeroChainLimit once zero =>
      obtain ⟨registry, inserts, -⟩ := Registry.insertAll_of_nodup once
      rw [inserts]
      exact make_of_zero zero
  | @shutdownNotConcrete kind once positive named bare =>
      obtain ⟨registry, inserts, holds⟩ := Registry.insertAll_of_nodup once
      rw [inserts]
      refine make_of_bare positive named (Bool.eq_false_iff.mpr fun concrete => ?_)
      obtain ⟨registration, isGiven, hasPrototype⟩ := holds.isConcrete_iff.mp concrete
      rw [bare registration isGiven] at hasPrototype
      exact Bool.false_ne_true hasPrototype

/-- Steps make a machine, unless there is a reason why they do not. -/
theorem refused_or_made (id : MachineId) (data : D) (readable : AllReadable steps) :
    (∃ rejection, Refused steps rejection) ∨
      ∃ registry : Registry β, registry.Holds (registrations steps) ∧
        ofSteps id data steps =
          .ok (idle id (Config.settled (changes steps)) registry data) := by
  obtain once | ⟨kind, again⟩ := nodup_or_repeatsFirst (kinds steps)
  · by_cases zero : (Config.settled (changes steps)).chainLimit = 0
    · exact .inl ⟨_, .zeroChainLimit once zero⟩
    · obtain ⟨registry, inserts, holds⟩ := Registry.insertAll_of_nodup once
      by_cases concrete : ∀ kind ∈ (Config.settled (changes steps)).shutdown,
          registry.isConcrete kind = true
      · refine .inr ⟨registry, holds, ?_⟩
        rw [ofSteps_eq readable, inserts]
        exact make_of_concrete zero concrete
      · push Not at concrete
        obtain ⟨kind, named, bare⟩ := concrete
        refine .inl ⟨_, .shutdownNotConcrete once zero named fun registration isGiven => ?_⟩
        by_contra hasPrototype
        exact bare (holds.isConcrete_iff.mpr
          ⟨registration, isGiven, Option.isSome_iff_ne_none.mpr hasPrototype⟩)
  · exact .inl ⟨_, .duplicateKind again⟩

/-- What steps make depends on their registrations and on the configuration that they settle, and
not on how the two are mixed.  They are refused for the first kind that repeats an earlier one; else
for a chain limit of zero; else for a shutdown kind that was not registered as concrete; and
otherwise they make a machine without states that has the settled configuration and knows exactly
what was registered.  The same comes of the direct ways: step by step up to the first refusal, or
registering first and making the machine then. -/
theorem ofSteps_order_insensitive
    (id : MachineId)
    (data : D)
    (steps : List (BuildStep β))
    (readable : AllReadable steps) :
    (∀ rejection, ofSteps id data steps = .error rejection ↔ Refused steps rejection) ∧
    ((∀ rejection, ¬ Refused steps rejection) →
      ∃ registry : Registry β, registry.Holds (registrations steps) ∧
        ofSteps id data steps =
          .ok (idle id (Config.settled (changes steps)) registry data)) ∧
    ofSteps id data steps = ofStepsDirectly id data {} .empty steps ∧
    (ofSteps id data steps =
      (Registry.empty.insertAll (registrations steps)).bind fun registry =>
        make id (Config.settled (changes steps)) registry data) ∧
    ∀ others, registrations others = registrations steps → changes others = changes steps →
      ofSteps id data others = ofSteps id data steps := by
  refine ⟨fun rejection => ⟨fun rejects => ?_, ofSteps_of_refused readable⟩, fun fit => ?_,
    ?_, ofSteps_eq readable, fun others sameRegistrations sameChanges => ?_⟩
  · obtain ⟨reason, refused⟩ | ⟨registry, -, made⟩ := refused_or_made id data readable
    · rw [ofSteps_of_refused readable refused] at rejects
      exact Except.error.inj rejects ▸ refused
    · rw [made] at rejects
      nomatch rejects
  · obtain ⟨reason, refused⟩ | made := refused_or_made id data readable
    · exact absurd refused (fit reason)
    · exact made
  · rw [ofSteps_eq readable, ofStepsDirectly_eq readable, Config.settled_eq_over]
  · have readableOthers : AllReadable others := by
      rw [AllReadable, sameChanges]
      exact readable
    rw [ofSteps_eq readable, ofSteps_eq readableOthers, sameRegistrations, sameChanges]

/-- Steps that name the shutdown kind before it is registered, and that set the chain limit to zero
and then replace the whole configuration. -/
def scrambled : List (BuildStep Unit) :=
  [.configure (.chainLimit 0), .register ⟨1⟩ ⟨"Idle", some ()⟩,
    .configure (.all { shutdown := some ⟨9⟩ }), .configure (.immediate true),
    .register ⟨2⟩ ⟨"Base", none⟩, .configure (.shutdown ⟨3⟩), .configure (.historyLimit 0),
    .register ⟨3⟩ ⟨"Done", some ()⟩, .configure (.immediate false)]

/-- The same steps, and after them the two first kinds again in the other order. -/
def overdone : List (BuildStep Unit) :=
  scrambled ++ [.register ⟨2⟩ ⟨"Base", some ()⟩, .configure (.chainLimit 0),
    .register ⟨1⟩ ⟨"Idle", none⟩]

/-- The steps make a machine whose configuration has the last word on each field.  If they go on,
the first repeated kind is reported, although the second and the chain limit are wrong as well. -/
theorem ofSteps_order_insensitive_scrambled :
    (∃ registry, registry.Holds (registrations scrambled) ∧
      ofSteps ⟨0⟩ () scrambled =
        .ok (idle ⟨0⟩ { shutdown := some ⟨3⟩, historyLimit := 0 } registry ())) ∧
    ofSteps ⟨0⟩ () overdone = .error (.duplicateKind ⟨2⟩) := by
  constructor
  · have readable : AllReadable scrambled :=
      allReadable_of_no_text fun source => by simp [changes, scrambled, configures?]
    obtain ⟨-, made, -⟩ := ofSteps_order_insensitive ⟨0⟩ () scrambled readable
    refine made fun rejection refused => ?_
    cases refused with
    | duplicateKind again => exact again.not_nodup (by decide)
    | zeroChainLimit once zero => exact absurd zero (by decide)
    | shutdownNotConcrete once positive named bare =>
        cases named
        nomatch bare ⟨"Done", some ()⟩ (by simp [registrations, scrambled, registers?])
  · have readable : AllReadable overdone :=
      allReadable_of_no_text fun source => by simp [changes, overdone, scrambled, configures?]
    refine ((ofSteps_order_insensitive ⟨0⟩ () overdone readable).1 _).mpr (.duplicateKind ?_)
    exact ⟨[⟨1⟩, ⟨2⟩, ⟨3⟩], [⟨1⟩], rfl, by decide, by decide⟩

end Machine
end TickMachine
