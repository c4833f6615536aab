import TickMachine.Proofs.Registering

/-!
# The first registration of a kind

Kinds are registered call by call, and a call that is refused does not end the work.  A call is
refused exactly if an earlier one named its kind, and then it changes nothing.  So a registry knows
of every kind what the first call for it said, and whatever can be asked about a kind follows from
that call alone.
-/

namespace TickMachine

variable {β : Type}

/-- A call that registers a kind. -/
inductive Enrolment (β : Type) where
  /-- The kind has states, and they start with a prototype. -/
  | concrete (kind : Kind) (name : String) (prototype : β)
  /-- The kind has a name only. -/
  | abstract (kind : Kind) (name : String)

namespace Enrolment

/-- The kind that a call names. -/
def kind : Enrolment β → Kind
  | .concrete kind _ _ => kind
  | .abstract kind _ => kind

/-- What a call says of its kind. -/
def registration : Enrolment β → Registration β
  | .concrete _ name prototype => ⟨name, some prototype⟩
  | .abstract _ name => ⟨name, none⟩

/-- A kind is named by one of the calls. -/
def Named (calls : List (Enrolment β)) (kind : Kind) : Prop :=
  ∃ call ∈ calls, call.kind = kind

instance (calls : List (Enrolment β)) (kind : Kind) : Decidable (Named calls kind) :=
  inferInstanceAs (Decidable (∃ call ∈ calls, call.kind = kind))

/-- The first call that names a kind. -/
def firstFor (calls : List (Enrolment β)) (kind : Kind) : Option (Enrolment β) :=
  calls.find? fun call => call.kind = kind

variable {calls : List (Enrolment β)} {call : Enrolment β} {kind : Kind}

theorem firstFor_isSome_iff : (firstFor calls kind).isSome = true ↔ Named calls kind := by
  simp [firstFor, Named]

theorem firstFor_eq_none_iff : firstFor calls kind = none ↔ ¬ Named calls kind := by
  rw [← firstFor_isSome_iff, Option.not_isSome_iff_eq_none]

/-- A later call is the first for its kind only if no earlier one names it. -/
theorem firstFor_concat (calls : List (Enrolment β)) (call : Enrolment β) (kind : Kind) :
    firstFor (calls ++ [call]) kind =
      (firstFor calls kind).or (if call.kind = kind then some call else none) := by
  rw [firstFor, List.find?_append, List.find?_singleton]
  simp only [decide_eq_true_eq, firstFor]

/-- One more call for a kind that is named already is the first one for no kind. -/
theorem firstFor_concat_of_named
    (named : Named calls call.kind)
    (kind : Kind) :
    firstFor (calls ++ [call]) kind = firstFor calls kind := by
  rw [firstFor_concat]
  split
  next same =>
    obtain ⟨first, found⟩ := Option.isSome_iff_exists.mp (firstFor_isSome_iff.mpr (same ▸ named))
    rw [found, Option.some_or]
  next => exact Option.or_none

/-- One more call for a new kind is the first one for this kind, and for no other. -/
theorem firstFor_concat_of_new
    (new : ¬ Named calls call.kind)
    (kind : Kind) :
    firstFor (calls ++ [call]) kind =
      if call.kind = kind then some call else firstFor calls kind := by
  rw [firstFor_concat]
  split
  next same => rw [firstFor_eq_none_iff.mpr (same ▸ new), Option.none_or]
  next => exact Option.or_none

end Enrolment

namespace Registry

open Enrolment

variable {registry : Registry β} {calls : List (Enrolment β)} {call : Enrolment β} {kind : Kind}

/-! ## Calls in order -/

/-- The registry with one more kind, unless the kind is refused. -/
def register (registry : Registry β) : Enrolment β → Except Rejection (Registry β)
  | .concrete kind name prototype => registry.insertConcrete kind name prototype
  | .abstract kind name => registry.insertAbstract kind name

/-- Makes a call: what it answers, and the registry after it. -/
def enrol (registry : Registry β) (call : Enrolment β) : Except Rejection Unit × Registry β :=
  match registry.register call with
  | .ok next => (.ok (), next)
  | .error rejection => (.error rejection, registry)

/-- Makes calls in order, whatever each of them answers. -/
def enrolAll (registry : Registry β) :
    List (Enrolment β) → List (Except Rejection Unit) × Registry β
  | [] => ([], registry)
  | call :: more =>
      let (answer, next) := registry.enrol call
      let (answers, last) := next.enrolAll more
      (answer :: answers, last)

theorem register_eq_insert (registry : Registry β) (call : Enrolment β) :
    registry.register call = registry.insert call.kind call.registration := by
  cases call with
  | concrete kind name prototype => rfl
  | abstract kind name => rfl

theorem enrolAll_append (registry : Registry β) (calls more : List (Enrolment β)) :
    registry.enrolAll (calls ++ more) =
      ((registry.enrolAll calls).1 ++ ((registry.enrolAll calls).2.enrolAll more).1,
        ((registry.enrolAll calls).2.enrolAll more).2) := by
  induction calls generalizing registry with
  | nil => rfl
  | cons call others inductionHypothesis =>
      simp only [List.cons_append, enrolAll, inductionHypothesis]

theorem length_enrolAll (registry : Registry β) (calls : List (Enrolment β)) :
    (registry.enrolAll calls).1.length = calls.length := by
  induction calls generalizing registry with
  | nil => rfl
  | cons call others inductionHypothesis =>
      exact congrArg Nat.succ (inductionHypothesis (registry.enrol call).2)

/-- A call is answered by the registry that the calls before it have left. -/
theorem enrolAll_answers (registry : Registry β) (before after : List (Enrolment β)) :
    (registry.enrolAll (before ++ call :: after)).1[before.length]? =
      some ((registry.enrolAll before).2.enrol call).1 := by
  have position := length_enrolAll registry before
  simp only [enrolAll_append, enrolAll, ← position]
  rw [List.getElem?_append_right (Nat.le_refl _), Nat.sub_self, List.getElem?_cons_zero]

/-! ## What a registry knows -/

/-- A registry knows of every kind what the first call for it said. -/
def Recalls (registry : Registry β) (calls : List (Enrolment β)) : Prop :=
  ∀ kind, registry.entries[kind]? = (firstFor calls kind).map registration

theorem recalls_empty : (empty : Registry β).Recalls [] :=
  fun _ => Std.TreeMap.getElem?_emptyc

/-- A kind is known if and only if some call names it. -/
theorem Recalls.contains_iff (recalls : registry.Recalls calls) :
    registry.contains kind = true ↔ Named calls kind := by
  rw [contains_eq_isSome, recalls, Option.isSome_map, firstFor_isSome_iff]

/-- A call for a kind that was named before is refused. -/
theorem Recalls.enrol_of_named
    (recalls : registry.Recalls calls)
    (named : Named calls call.kind) :
    registry.enrol call = (.error (.duplicateKind call.kind), registry) := by
  rw [enrol, register_eq_insert, insert_of_known (recalls.contains_iff.mpr named)]

/-- A call for a new kind is accepted, and all that was known stays as it is. -/
theorem Recalls.enrol_of_new
    (recalls : registry.Recalls calls)
    (new : ¬ Named calls call.kind) :
    ∃ next : Registry β, registry.enrol call = (.ok (), next) ∧
      ∀ other, next.entries[other]? =
        if call.kind = other then some call.registration else registry.entries[other]? := by
  have unknown : registry.contains call.kind = false :=
    Bool.eq_false_iff.mpr fun known => new (recalls.contains_iff.mp known)
  obtain ⟨next, inserts, entries⟩ := insert_of_new unknown call.registration
  exact ⟨next, by rw [enrol, register_eq_insert, inserts], entries⟩

/-- One call more keeps the first call for every kind. -/
theorem Recalls.enrol (recalls : registry.Recalls calls) (call : Enrolment β) :
    (registry.enrol call).2.Recalls (calls ++ [call]) := by
  intro kind
  by_cases named : Named calls call.kind
  · rw [recalls.enrol_of_named named, firstFor_concat_of_named named]
    exact recalls kind
  · obtain ⟨next, enrols, entries⟩ := recalls.enrol_of_new named
    rw [enrols, entries, firstFor_concat_of_new named, recalls kind]
    split
    next => rfl
    next => rfl

/-- After any calls, the first one for every kind is known. -/
theorem Recalls.enrolAll
    (recalls : registry.Recalls calls)
    (more : List (Enrolment β)) :
    (registry.enrolAll more).2.Recalls (calls ++ more) := by
  induction more generalizing registry calls with
  | nil => exact calls.append_nil.symm ▸ recalls
  | cons call others inductionHypothesis =>
      rw [List.append_cons]
      exact inductionHypothesis (recalls.enrol call)

/-- After any calls, a registry knows each kind as the first call for it said. -/
theorem recalls_enrolAll (calls : List (Enrolment β)) : (empty.enrolAll calls).2.Recalls calls :=
  recalls_empty.enrolAll calls

/-! ## Queries -/

/-- The name of a kind is the one that its first call gave. -/
theorem Recalls.name?_eq (recalls : registry.Recalls calls) :
    registry.name? kind = (firstFor calls kind).map fun first => first.registration.name := by
  rw [name?, recalls, Option.map_map, Function.comp_def]

/-- A kind has states if and only if its first call gave a prototype. -/
theorem Recalls.isConcrete_eq (recalls : registry.Recalls calls) :
    registry.isConcrete kind =
      (firstFor calls kind).any fun first => first.registration.prototype.isSome := by
  rw [isConcrete, recalls, Option.any_map]

/-- States of a kind start with the prototype that the first call for the kind gave. -/
theorem Recalls.prototype_eq_ok_iff (recalls : registry.Recalls calls) {behavior : β} :
    registry.prototype kind = .ok behavior ↔
      ∃ first, firstFor calls kind = some first ∧ first.registration.prototype = some behavior := by
  have known := recalls kind
  cases found : firstFor calls kind with
  | none => simp [prototype, known, found]
  | some first =>
      cases first with
      | concrete kind name prototype => simp [Registry.prototype, known, found, registration]
      | abstract kind name => simp [prototype, known, found, registration]

/-- A kind that is not concrete has no prototype, and whether it is known tells why. -/
theorem prototype_of_bare (bare : registry.isConcrete kind = false) :
    registry.prototype kind =
      .error (.unavailable kind (if registry.contains kind then .abstract else .unregistered)) := by
  refine prototype_eq_error_iff.mpr ⟨_, ?_, rfl⟩
  split
  next known => exact .abstract known bare
  next unknown => exact .unregistered (Bool.eq_false_iff.mpr unknown)

/-- The kinds are listed with ascending tags. -/
theorem tags_ascending (registry : Registry β) :
    registry.kinds.Pairwise fun first second => first.tag < second.tag :=
  registry.kinds_ascending.imp Kind.compare_eq_lt_iff.mp

/-! ## Any sequence of calls -/

/-- Calls that register kinds are answered one by one.  A call is refused exactly if an earlier one
named its kind; it then leaves the registry as it was, and every other call is accepted.  After the
calls the kinds that were named are known, each with the name and with the prototype that the first
call for it gave.  A kind has a prototype exactly if it is concrete; otherwise the reason tells
whether it is known.  The list of kinds is strictly ascending, it holds just the known ones, and its
length is the size of the registry. -/
theorem first_enrolments_stay (calls : List (Enrolment β)) :
    ∃ answers registry, empty.enrolAll calls = (answers, registry) ∧
      answers.length = calls.length ∧
      (∀ before call after, calls = before ++ call :: after →
        (answers[before.length]? = some (.error (.duplicateKind call.kind)) ↔
          Named before call.kind) ∧
        (answers[before.length]? = some (.ok ()) ↔ ¬ Named before call.kind) ∧
        (Named before call.kind →
          (empty.enrolAll (before ++ [call])).2 = (empty.enrolAll before).2)) ∧
      (∀ kind,
        (registry.contains kind = true ↔ Named calls kind) ∧
        registry.name? kind = ((firstFor calls kind).map fun first => first.registration.name) ∧
        registry.isConcrete kind =
          ((firstFor calls kind).any fun first => first.registration.prototype.isSome) ∧
        (∀ behavior, registry.prototype kind = .ok behavior ↔
          ∃ first, firstFor calls kind = some first ∧
            first.registration.prototype = some behavior) ∧
        ((∃ behavior, registry.prototype kind = .ok behavior) ↔ registry.isConcrete kind = true) ∧
        (registry.isConcrete kind = false →
          registry.prototype kind = .error (.unavailable kind
            (if registry.contains kind then .abstract else .unregistered)))) ∧
      registry.kinds.Pairwise (fun first second => first.tag < second.tag) ∧
      (∀ kind, kind ∈ registry.kinds ↔ registry.contains kind = true) ∧
      registry.kinds.length = registry.size := by
  have recalls := recalls_enrolAll calls
  refine ⟨_, _, rfl, length_enrolAll empty calls, ?_, fun kind => ?_, tags_ascending _,
    mem_kinds _, length_kinds _⟩
  · rintro before call after rfl
    have recallsBefore := recalls_enrolAll before
    rw [enrolAll_answers, enrolAll_append]
    by_cases named : Named before call.kind
    · simp [recallsBefore.enrol_of_named named, named, Registry.enrolAll]
    · obtain ⟨next, enrols, -⟩ := recallsBefore.enrol_of_new named
      simp [enrols, named]
  · exact ⟨recalls.contains_iff, recalls.name?_eq, recalls.isConcrete_eq,
      fun behavior => recalls.prototype_eq_ok_iff, (isConcrete_iff_prototype _ kind).symm,
      prototype_of_bare⟩

/-- Two kinds, and then each of them again with another name and of the other sort. -/
def contested : List (Enrolment Nat) :=
  [.concrete ⟨3⟩ "Idle" 7, .abstract ⟨1⟩ "Base", .abstract ⟨3⟩ "Other", .concrete ⟨1⟩ "Late" 8]

/-- The second call for each kind is refused, and the first one stays. -/
theorem first_enrolments_stay_contested :
    ∃ answers registry, empty.enrolAll contested = (answers, registry) ∧
      answers[1]? = some (.ok ()) ∧
      answers[2]? = some (.error (.duplicateKind ⟨3⟩)) ∧
      answers[3]? = some (.error (.duplicateKind ⟨1⟩)) ∧
      registry.name? ⟨3⟩ = some "Idle" ∧
      registry.prototype ⟨3⟩ = .ok 7 ∧
      registry.name? ⟨1⟩ = some "Base" ∧
      registry.prototype ⟨1⟩ = .error (.unavailable ⟨1⟩ .abstract) ∧
      registry.prototype ⟨2⟩ = .error (.unavailable ⟨2⟩ .unregistered) := by
  obtain ⟨answers, registry, made, -, answered, known, -⟩ := first_enrolments_stay contested
  obtain ⟨-, nameThree, -, prototypeThree, -, -⟩ := known ⟨3⟩
  obtain ⟨knownOne, nameOne, concreteOne, -, -, bareOne⟩ := known ⟨1⟩
  obtain ⟨knownTwo, -, concreteTwo, -, -, bareTwo⟩ := known ⟨2⟩
  refine ⟨answers, registry, made, (answered [_] _ _ rfl).2.1.mpr ?_,
    (answered [_, _] _ _ rfl).1.mpr ?_, (answered [_, _, _] _ _ rfl).1.mpr ?_, nameThree,
    (prototypeThree 7).mpr ⟨_, rfl, rfl⟩, nameOne, ?_, ?_⟩
  · decide
  · decide
  · decide
  · rw [bareOne concreteOne, if_pos (knownOne.mpr (by decide))]
  · rw [bareTwo concreteTwo, if_neg fun isKnown => absurd (knownTwo.mp isKnown) (by decide)]

end Registry
end TickMachine
