import Std.Data.TreeMap

/-!
# Identities

A kind classifies states, a serial number tells the states of one machine apart, and a machine
number tells machines apart.  A slot names a place where a caller keeps a state in hand.  Kinds and
serial numbers are ordered by their value, so maps keyed by them list their keys in ascending
order.
-/

namespace TickMachine

/-- The tag under which a family of states is registered. -/
structure Kind where
  tag : UInt8
deriving DecidableEq, Inhabited

/-- The number of a state among all states that its machine ever made, counted from one.  The number
is unbounded; it stands for a counter of 64 bits in runs that make fewer than `2 ^ 64` states, where
no count overflows. -/
structure Serial where
  number : Nat
deriving DecidableEq, Inhabited

/-- The number of a machine; no two machines share one, even after one of them is gone. -/
structure MachineId where
  number : Nat
deriving DecidableEq, Inhabited

/-- The name of a place where a caller keeps a state. -/
abbrev Slot := String

namespace Kind

instance : Ord Kind := ⟨compareOn Kind.tag⟩

instance : Std.TransOrd Kind :=
  inferInstanceAs (Std.TransCmp (compareOn Kind.tag))

instance : Std.LawfulEqOrd Kind where
  eq_of_compare {left right} same := by
    cases left
    cases right
    exact congrArg Kind.mk (Std.LawfulEqOrd.eq_of_compare same)

theorem compare_eq_lt_iff {first second : Kind} :
    compare first second = .lt ↔ first.tag < second.tag :=
  Std.compare_eq_lt (α := UInt8)

/-- The text that stands for a kind in messages. -/
def text (kind : Kind) : String :=
  "#" ++ toString kind.tag.toNat

end Kind

namespace Serial

instance : Ord Serial := ⟨compareOn Serial.number⟩

instance : Std.TransOrd Serial :=
  inferInstanceAs (Std.TransCmp (compareOn Serial.number))

instance : Std.LawfulEqOrd Serial where
  eq_of_compare {left right} same := by
    cases left
    cases right
    exact congrArg Serial.mk (Std.LawfulEqOrd.eq_of_compare same)

/-- The text that stands for a state in messages. -/
def text (serial : Serial) : String :=
  toString serial.number

end Serial
end TickMachine
