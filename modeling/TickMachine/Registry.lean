import TickMachine.Refusal

/-!
# Registry

The kinds that a machine knows.  A concrete kind has a prototype, the behaviour with which each of
its states starts; an abstract kind has a name for diagnosis and no states.  The first
registration of a kind stays: registering the kind again is refused and changes nothing.

What makes the behaviour of a new state is taken to be a constant.  A factory that makes another
behaviour each time, that has effects of its own or that breaks off is not covered.
-/

namespace TickMachine

/-- What is known of a kind. -/
structure Registration (β : Type) where
  name : String
  /-- The behaviour with which a state of the kind starts; an abstract kind has none.  It stands for
  a factory that makes this behaviour whenever it is called and that has no effects. -/
  prototype : Option β

/-- The kinds that a machine knows. -/
structure Registry (β : Type) where
  entries : Std.TreeMap Kind (Registration β)

namespace Registry

variable {β : Type}

/-- The registry that knows no kind. -/
def empty : Registry β := ⟨∅⟩

instance : Inhabited (Registry β) := ⟨empty⟩

/-- Registers a kind that is not yet known. -/
def insert (registry : Registry β) (kind : Kind) (registration : Registration β) :
    Except Rejection (Registry β) :=
  if registry.entries.contains kind then .error (.duplicateKind kind)
  else .ok ⟨registry.entries.insert kind registration⟩

/-- Registers a concrete kind. -/
def insertConcrete (registry : Registry β) (kind : Kind) (name : String) (prototype : β) :
    Except Rejection (Registry β) :=
  registry.insert kind ⟨name, some prototype⟩

/-- Registers a kind by name only. -/
def insertAbstract (registry : Registry β) (kind : Kind) (name : String) :
    Except Rejection (Registry β) :=
  registry.insert kind ⟨name, none⟩

/-- The behaviour with which a new state of a kind starts. -/
def prototype (registry : Registry β) (kind : Kind) : Except Refusal β :=
  match registry.entries[kind]? with
  | none => .error (.unavailable kind .unregistered)
  | some ⟨_, none⟩ => .error (.unavailable kind .abstract)
  | some ⟨_, some behavior⟩ => .ok behavior

/-- The name of a kind, if it is known. -/
def name? (registry : Registry β) (kind : Kind) : Option String :=
  registry.entries[kind]?.map Registration.name

/-- The name of a kind in log events, where an unknown kind has a name as well. -/
def shownName (registry : Registry β) (kind : Kind) : String :=
  (registry.name? kind).getD "<unregistered>"

/-- Whether a kind is known. -/
def contains (registry : Registry β) (kind : Kind) : Bool :=
  registry.entries.contains kind

/-- Whether a kind is known and has states. -/
def isConcrete (registry : Registry β) (kind : Kind) : Bool :=
  registry.entries[kind]?.any fun registration => registration.prototype.isSome

/-- The known kinds, in ascending order. -/
def kinds (registry : Registry β) : List Kind :=
  registry.entries.keys

/-- The number of known kinds. -/
def size (registry : Registry β) : Nat :=
  registry.entries.size

/-- Whether no kind is known. -/
def isEmpty (registry : Registry β) : Bool :=
  registry.entries.isEmpty

/-- The concrete kinds are those that have a prototype. -/
theorem isConcrete_iff_prototype (registry : Registry β) (kind : Kind) :
    registry.isConcrete kind = true ↔
      ∃ behavior, registry.prototype kind = .ok behavior := by
  unfold isConcrete prototype
  split
  next missing => simp [missing]
  next found => simp [found]
  next behavior found => simp [found]

/-- The kinds are listed in ascending order, without repetition. -/
theorem kinds_ascending (registry : Registry β) :
    registry.kinds.Pairwise fun first second => compare first second = .lt :=
  Std.TreeMap.ordered_keys

@[simp] theorem mem_kinds (registry : Registry β) (kind : Kind) :
    kind ∈ registry.kinds ↔ registry.contains kind = true := by
  simp [kinds, contains]

@[simp] theorem length_kinds (registry : Registry β) : registry.kinds.length = registry.size :=
  Std.TreeMap.length_keys

end Registry
end TickMachine
