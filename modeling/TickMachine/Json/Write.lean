import TickMachine.Decimal

/-!
# Writing JSON text

The compact text of the values that configurations and histories are made of.  Nothing stands
between the tokens, and the members of an object keep the order in which they are given.
-/

namespace TickMachine
namespace Json

/-- The text of a natural number. -/
def writeNatural (value : Nat) : List Char :=
  Decimal.digits value

/-- The text of a truth value. -/
def writeBoolean (value : Bool) : List Char :=
  if value then ['t', 'r', 'u', 'e'] else ['f', 'a', 'l', 's', 'e']

/-- The text of a value that may be missing. -/
def writeOptional {α : Type} (write : α → List Char) : Option α → List Char
  | none => ['n', 'u', 'l', 'l']
  | some value => write value

/-- The text of a string whose characters all stand for themselves. -/
def writePlainString (chars : List Char) : List Char :=
  '"' :: chars ++ ['"']

/-- Texts with commas between them. -/
def separated : List (List Char) → List Char
  | [] => []
  | [item] => item
  | item :: more => item ++ ',' :: separated more

/-- The text of an array. -/
def writeList {α : Type} (write : α → List Char) (items : List α) : List Char :=
  '[' :: separated (items.map write) ++ [']']

/-- The text of one member of an object. -/
def writeMember (name : String) (value : List Char) : List Char :=
  writePlainString name.toList ++ ':' :: value

/-- The text of an object with the given members. -/
def writeObject (members : List (String × List Char)) : List Char :=
  '{' :: separated (members.map fun (name, value) => writeMember name value) ++ ['}']

end Json
end TickMachine
