import Mathlib.Data.List.Induction
import Mathlib.Data.List.Nodup
import TickMachine.Registry

/-!
# Registering kinds

Kinds are registered one after the other, up to the first one that is refused.  None is refused if
no kind is given twice, and then the registry knows each kind as it was given.  Otherwise the first
kind that repeats an earlier one is refused.  A kind that is not known has no prototype, nor has one
that is known by name only.
-/

namespace TickMachine

/-! ## The first repetition -/

/-- An item is the first in a list that repeats an earlier one. -/
def RepeatsFirst {α : Type} (items : List α) (item : α) : Prop :=
  ∃ before after, items = before ++ item :: after ∧ before.Nodup ∧ item ∈ before

theorem RepeatsFirst.not_nodup {α : Type} {items : List α} {item : α}
    (again : RepeatsFirst items item) :
    ¬ items.Nodup := by
  obtain ⟨before, after, rfl, -, known⟩ := again
  exact fun once => (List.nodup_append.mp once).2.2 item known item List.mem_cons_self rfl

/-- Unless all items are different, there is a first one that repeats an earlier one. -/
theorem nodup_or_repeatsFirst {α : Type} [DecidableEq α] (items : List α) :
    items.Nodup ∨ ∃ item, RepeatsFirst items item := by
  induction items using List.reverseRecOn with
  | nil => exact .inl List.nodup_nil
  | append_singleton before item inductionHypothesis =>
      obtain once | ⟨again, first, rest, shape, once, known⟩ := inductionHypothesis
      · by_cases known : item ∈ before
        · exact .inr ⟨item, before, [], rfl, once, known⟩
        · exact .inl (List.concat_eq_append ▸ once.concat known)
      · exact .inr ⟨again, first, rest ++ [item], by simp [shape], once, known⟩

namespace Registry

variable {β : Type} {registry : Registry β} {kind : Kind}

/-! ## Known kinds -/

theorem contains_eq_isSome (registry : Registry β) (kind : Kind) :
    registry.contains kind = registry.entries[kind]?.isSome :=
  Std.TreeMap.contains_eq_isSome_getElem?

/-- Why a registry has no prototype of a kind. -/
inductive Lacks (registry : Registry β) (kind : Kind) : Unavailable → Prop where
  /-- The kind was never registered. -/
  | unregistered (unknown : registry.contains kind = false) : Lacks registry kind .unregistered
  /-- The kind was registered, but it is not concrete. -/
  | abstract
      (known : registry.contains kind = true)
      (bare : registry.isConcrete kind = false) :
      Lacks registry kind .abstract

/-- A kind is refused for the reason for which it has no prototype. -/
theorem prototype_eq_error_iff {refusal : Refusal} :
    registry.prototype kind = .error refusal ↔
      ∃ reason, registry.Lacks kind reason ∧ refusal = .unavailable kind reason := by
  have known := registry.contains_eq_isSome kind
  constructor
  · intro refused
    unfold prototype at refused
    split at refused
    next missing =>
      cases refused
      exact ⟨.unregistered, .unregistered (by rw [known, missing]; rfl), rfl⟩
    next found =>
      cases refused
      exact ⟨.abstract, .abstract (by rw [known, found]; rfl) (by simp [isConcrete, found]), rfl⟩
    next => cases refused
  · rintro ⟨reason, lacks, rfl⟩
    unfold prototype
    cases lacks with
    | unregistered unknown =>
        rw [known, Option.isSome_eq_false_iff, Option.isNone_iff_eq_none] at unknown
        rw [unknown]
    | abstract registered bare =>
        rw [known] at registered
        obtain ⟨⟨name, prototype⟩, found⟩ := Option.isSome_iff_exists.mp registered
        rw [isConcrete, found] at bare
        cases prototype with
        | none => rw [found]
        | some behavior => cases bare

/-! ## One registration -/

/-- A kind that is known is refused. -/
theorem insert_of_known
    (known : registry.contains kind = true)
    (registration : Registration β) :
    registry.insert kind registration = .error (.duplicateKind kind) :=
  if_pos known

/-- A kind that is new is registered, and all that was known stays as it is. -/
theorem insert_of_new
    (new : registry.contains kind = false)
    (registration : Registration β) :
    ∃ next : Registry β, registry.insert kind registration = .ok next ∧
      ∀ other, next.entries[other]? =
        if kind = other then some registration else registry.entries[other]? := by
  refine ⟨_, if_neg (Bool.eq_false_iff.mp new), fun other => ?_⟩
  simp only [Std.TreeMap.getElem?_insert, Std.LawfulEqCmp.compare_eq_iff_eq]

/-! ## Registrations in order -/

/-- Registers kinds in order, and stops at the first one that is refused. -/
def insertAll (registry : Registry β) :
    List (Kind × Registration β) → Except Rejection (Registry β)
  | [] => .ok registry
  | (kind, registration) :: more =>
      (registry.insert kind registration).bind fun next => next.insertAll more

theorem insertAll_append (registry : Registry β) (first more : List (Kind × Registration β)) :
    registry.insertAll (first ++ more) =
      (registry.insertAll first).bind fun next => next.insertAll more := by
  induction first generalizing registry with
  | nil => rfl
  | cons given others inductionHypothesis =>
      obtain ⟨kind, registration⟩ := given
      simp only [List.cons_append, insertAll]
      cases registry.insert kind registration with
      | error rejection => rfl
      | ok next => exact inductionHypothesis next

/-- A registry knows exactly the given registrations. -/
def Holds (registry : Registry β) (given : List (Kind × Registration β)) : Prop :=
  ∀ kind registration, registry.entries[kind]? = some registration ↔ (kind, registration) ∈ given

theorem holds_empty : (empty : Registry β).Holds [] := by
  intro kind registration
  have unknown : (empty : Registry β).entries[kind]? = none := Std.TreeMap.getElem?_emptyc
  simp [unknown]

section Holding

variable {given : List (Kind × Registration β)}

/-- A kind is known if and only if it was registered. -/
theorem Holds.contains_iff (holds : registry.Holds given) :
    registry.contains kind = true ↔ kind ∈ given.map Prod.fst := by
  rw [contains_eq_isSome, Option.isSome_iff_exists]
  simp [holds kind]

/-- A kind has states if and only if it was registered with a prototype. -/
theorem Holds.isConcrete_iff (holds : registry.Holds given) :
    registry.isConcrete kind = true ↔
      ∃ registration, (kind, registration) ∈ given ∧ registration.prototype.isSome = true := by
  simp only [isConcrete, Option.any_eq_true, holds kind]

/-- A registration under a new kind is added to those that are known. -/
theorem Holds.insert
    (holds : registry.Holds given)
    (new : kind ∉ given.map Prod.fst)
    (registration : Registration β) :
    ∃ next : Registry β, registry.insert kind registration = .ok next ∧
      next.Holds (given ++ [(kind, registration)]) := by
  have unknown : registry.contains kind = false :=
    Bool.eq_false_iff.mpr fun known => new (holds.contains_iff.mp known)
  obtain ⟨next, inserts, entries⟩ := insert_of_new unknown registration
  refine ⟨next, inserts, fun other found => ?_⟩
  rw [entries]
  by_cases same : kind = other
  · subst same
    have absent : (kind, found) ∉ given := fun isGiven => new (List.mem_map_of_mem isGiven)
    simp [absent, eq_comm]
  · simp [same, Ne.symm same, holds other]

/-- Registrations under different kinds, none of them known, are all added. -/
theorem Holds.insertAll
    {more : List (Kind × Registration β)}
    (holds : registry.Holds given)
    (once : ((given ++ more).map Prod.fst).Nodup) :
    ∃ last, registry.insertAll more = .ok last ∧ last.Holds (given ++ more) := by
  induction more generalizing registry given with
  | nil => exact ⟨registry, rfl, given.append_nil.symm ▸ holds⟩
  | cons first others inductionHypothesis =>
      obtain ⟨kind, registration⟩ := first
      have new : kind ∉ given.map Prod.fst := by
        rw [List.map_append, List.nodup_append] at once
        exact fun known => once.2.2 kind known kind List.mem_cons_self rfl
      obtain ⟨next, inserts, holdsNext⟩ := holds.insert new registration
      rw [List.append_cons] at once ⊢
      obtain ⟨last, insertsOthers, holdsLast⟩ := inductionHypothesis holdsNext once
      refine ⟨last, ?_, holdsLast⟩
      rw [Registry.insertAll, inserts]
      exact insertsOthers

end Holding

/-- Registrations under different kinds make a registry that knows just them. -/
theorem insertAll_of_nodup
    {given : List (Kind × Registration β)}
    (once : (given.map Prod.fst).Nodup) :
    ∃ registry, empty.insertAll given = .ok registry ∧ registry.Holds given :=
  holds_empty.insertAll once

/-- The first kind that is given again is refused, whatever comes after it. -/
theorem insertAll_of_repeatsFirst
    {given : List (Kind × Registration β)}
    (again : RepeatsFirst (given.map Prod.fst) kind) :
    empty.insertAll given = .error (.duplicateKind kind) := by
  obtain ⟨before, after, kinds, once, known⟩ := again
  obtain ⟨first, rest, rfl, rfl, following⟩ := List.map_eq_append_iff.mp kinds
  obtain ⟨⟨kind, registration⟩, more, rfl, rfl, rfl⟩ := List.map_eq_cons_iff.mp following
  obtain ⟨registry, inserts, holds⟩ := insertAll_of_nodup once
  rw [insertAll_append, inserts]
  change registry.insertAll ((kind, registration) :: more) = _
  rw [insertAll, insert_of_known (holds.contains_iff.mpr known)]
  rfl

end Registry
end TickMachine
