import TickMachine.Json.Skip
import TickMachine.Json.Write

/-!
# Well-formed JSON text

The texts that are JSON values, said without any reader: blanks, string literals, numbers, and
arrays and objects of values to any depth.  The skipper passes over every such value and stops
right behind it, whatever brackets are open around it.
-/

namespace TickMachine
namespace Json

open Decimal

/-! ## Blanks and string literals -/

/-- A text that may stand between tokens. -/
structure Blanks where
  text : List Char
  blank : ∀ char ∈ text, isBlank char = true

/-- No blanks at all. -/
def Blanks.none : Blanks :=
  ⟨[], List.forall_mem_nil _⟩

instance : DecidablePred IsPlain :=
  fun _ => inferInstanceAs (Decidable (_ ∧ _ ∧ _))

theorem plain_of_all {chars : List Char} (all : (chars.all fun char => IsPlain char) = true) :
    ∀ char ∈ chars, IsPlain char :=
  fun char member => of_decide_eq_true (List.all_eq_true.mp all char member)

/-- Four hexadecimal digits stand for a number. -/
inductive IsUnit : List Char → Nat → Prop where
  | of
      {first second third fourth : Char}
      {high upper lower low : Nat}
      (isFirst : hexValue? first = some high)
      (isSecond : hexValue? second = some upper)
      (isThird : hexValue? third = some lower)
      (isFourth : hexValue? fourth = some low) :
      IsUnit [first, second, third, fourth] (((high * 16 + upper) * 16 + lower) * 16 + low)

/-- The text between the quotes of a string literal, whose numeric escapes need not pair up. -/
inductive IsLiteral : List Char → Prop where
  | nil : IsLiteral []
  /-- A character that stands for itself. -/
  | plain {char : Char} {text : List Char} (plain : IsPlain char) (more : IsLiteral text) :
      IsLiteral (char :: text)
  /-- An escape of one letter. -/
  | escape
      {letter meaning : Char}
      {text : List Char}
      (known : simpleEscape? letter = some meaning)
      (more : IsLiteral text) :
      IsLiteral ('\\' :: letter :: text)
  /-- A numeric escape. -/
  | code
      {digits text : List Char}
      {unit : Nat}
      (isUnit : IsUnit digits unit)
      (more : IsLiteral text) :
      IsLiteral ('\\' :: 'u' :: (digits ++ text))

/-- The text between the quotes of a string literal stands for a string: the halves of surrogate
pairs pair up. -/
inductive Spells : List Char → List Char → Prop where
  | nil : Spells [] []
  /-- A character that stands for itself. -/
  | plain {char : Char} {text chars : List Char} (plain : IsPlain char) (more : Spells text chars) :
      Spells (char :: text) (char :: chars)
  /-- An escape of one letter. -/
  | escape
      {letter meaning : Char}
      {text chars : List Char}
      (known : simpleEscape? letter = some meaning)
      (more : Spells text chars) :
      Spells ('\\' :: letter :: text) (meaning :: chars)
  /-- A numeric escape that stands for a character by itself. -/
  | code
      {digits text chars : List Char}
      {unit : Nat}
      (isUnit : IsUnit digits unit)
      (notLeading : isLeading unit = false)
      (notTrailing : isTrailing unit = false)
      (more : Spells text chars) :
      Spells ('\\' :: 'u' :: (digits ++ text)) (Char.ofNat unit :: chars)
  /-- Two numeric escapes that stand for one character. -/
  | pair
      {digits others text chars : List Char}
      {leading trailing : Nat}
      (isFirst : IsUnit digits leading)
      (isLeading : isLeading leading = true)
      (isSecond : IsUnit others trailing)
      (isTrailing : isTrailing trailing = true)
      (more : Spells text chars) :
      Spells ('\\' :: 'u' :: (digits ++ '\\' :: 'u' :: (others ++ text)))
        (pairedChar leading trailing :: chars)

/-! ## Numbers -/

/-- A run of digits that is not empty. -/
structure IsDigits (text : List Char) : Prop where
  nonempty : text ≠ []
  all : ∀ char ∈ text, isDigit char = true

theorem IsDigits.one {digit : Char} (isDigit : isDigit digit = true) : IsDigits [digit] :=
  ⟨List.cons_ne_nil _ _, List.forall_mem_singleton.mpr isDigit⟩

/-- The part of a number before the point, which has no leading zero. -/
inductive IsWhole : List Char → Prop where
  | zero : IsWhole ['0']
  | digits
      {first : Char}
      {more : List Char}
      (isFirst : isDigit first = true)
      (notZero : first ≠ '0')
      (all : ∀ char ∈ more, isDigit char = true) :
      IsWhole (first :: more)

/-- The fraction of a number, which may be missing. -/
inductive IsFraction : List Char → Prop where
  | none : IsFraction []
  | digits {text : List Char} (digits : IsDigits text) : IsFraction ('.' :: text)

/-- The exponent of a number, which may be missing. -/
inductive IsExponent : List Char → Prop where
  | none : IsExponent []
  | digits
      {mark : Char}
      {sign text : List Char}
      (isMark : mark = 'e' ∨ mark = 'E')
      (isSign : sign = [] ∨ sign = ['+'] ∨ sign = ['-'])
      (digits : IsDigits text) :
      IsExponent (mark :: (sign ++ text))

/-- A number of any size. -/
inductive IsNumber : List Char → Prop where
  | of
      {sign whole fraction exponent : List Char}
      (isSign : sign = [] ∨ sign = ['-'])
      (isWhole : IsWhole whole)
      (isFraction : IsFraction fraction)
      (isExponent : IsExponent exponent) :
      IsNumber (sign ++ (whole ++ (fraction ++ exponent)))

/-! ## Values -/

/-- A member of an object as it stands in a text: its name between the quotes and its value, with
the blanks around them. -/
structure Member where
  ahead : Blanks
  name : List Char
  beforeColon : Blanks
  afterColon : Blanks
  value : List Char
  behind : Blanks

/-- The text of a member. -/
def Member.text (member : Member) : List Char :=
  member.ahead.text ++ '"' :: (member.name ++ '"' :: (member.beforeColon.text ++ ':' ::
    (member.afterColon.text ++ (member.value ++ member.behind.text))))

/-- What a text can be a part of. -/
inductive Role where
  /-- A value without blanks around it. -/
  | value
  /-- The elements of an array, at least one. -/
  | elements
  /-- The members of an object, at least one. -/
  | members

/-- The well-formed texts of each role. -/
inductive IsPart : Role → List Char → Prop where
  | null : IsPart .value ['n', 'u', 'l', 'l']
  | boolean (truth : Bool) : IsPart .value (writeBoolean truth)
  | number {text : List Char} (number : IsNumber text) : IsPart .value text
  | literal {text : List Char} (literal : IsLiteral text) : IsPart .value ('"' :: (text ++ ['"']))
  | emptyArray (inside : Blanks) : IsPart .value ('[' :: (inside.text ++ [']']))
  | array {text : List Char} (elements : IsPart .elements text) :
      IsPart .value ('[' :: (text ++ [']']))
  | emptyObject (inside : Blanks) : IsPart .value ('{' :: (inside.text ++ ['}']))
  | object {text : List Char} (members : IsPart .members text) :
      IsPart .value ('{' :: (text ++ ['}']))
  | lastElement (ahead behind : Blanks) {text : List Char} (value : IsPart .value text) :
      IsPart .elements (ahead.text ++ (text ++ behind.text))
  | element
      (ahead behind : Blanks)
      {text others : List Char}
      (value : IsPart .value text)
      (more : IsPart .elements others) :
      IsPart .elements (ahead.text ++ (text ++ (behind.text ++ ',' :: others)))
  | lastMember
      {member : Member}
      (name : IsLiteral member.name)
      (value : IsPart .value member.value) :
      IsPart .members member.text
  | member
      {member : Member}
      {others : List Char}
      (name : IsLiteral member.name)
      (value : IsPart .value member.value)
      (more : IsPart .members others) :
      IsPart .members (member.text ++ ',' :: others)

/-- A well-formed value, without blanks around it. -/
abbrev IsValue (text : List Char) : Prop :=
  IsPart .value text

/-- Whether a character may stand right behind a value. -/
def isDelimiter (char : Char) : Bool :=
  isBlank char || char = ',' || char = ']' || char = '}'

/-- A text that does not go on with the value in front of it. -/
def Delimits (rest : List Char) : Prop :=
  ∀ char ∈ rest.head?, isDelimiter char = true

end Json
end TickMachine
