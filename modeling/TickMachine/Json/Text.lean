import TickMachine.Decimal

/-!
# Tokens of JSON text

Readers consume a list of characters from the left and stop at the first thing wrong with it.
What is wrong has one of three causes: the text breaks the grammar, it ends too early, or it is
well formed so far and a value is not of the kind asked for.  This module reads the tokens that
carry no number: blanks, the three words, and string literals.
-/

namespace TickMachine
namespace Json

/-- Why a text cannot be read. -/
inductive Fault where
  /-- The text breaks the grammar, or goes on after the value. -/
  | malformed
  /-- The text ends before the value does. -/
  | truncated
  /-- A value has the wrong type or is out of range, or a field is missing or given twice. -/
  | mistyped
deriving DecidableEq, Repr

/-- The result of a reader: the value and the text after it. -/
abbrev Reading (α : Type) := Except Fault (α × List Char)

/-- Whether a character may stand between tokens. -/
def isBlank (char : Char) : Bool :=
  char = ' ' || char = '\t' || char = '\n' || char = '\r'

/-- The text after the blanks in front of it. -/
def skipBlanks (text : List Char) : List Char :=
  text.dropWhile isBlank

/-- The text after the given letters, which must stand in front of it. -/
def word : List Char → List Char → Except Fault (List Char)
  | [], text => .ok text
  | _ :: _, [] => .error .truncated
  | expected :: more, char :: text =>
      if char = expected then word more text else .error .malformed

@[simp] theorem word_append (letters rest : List Char) :
    word letters (letters ++ rest) = .ok rest := by
  induction letters with
  | nil => rfl
  | cons letter more step => simp [word, step]

/-! ## String literals -/

/-- The value of a hexadecimal digit, in either case. -/
def hexValue? (char : Char) : Option Nat :=
  if '0' ≤ char && char ≤ '9' then some (char.toNat - 48)
  else if 'a' ≤ char && char ≤ 'f' then some (char.toNat - 87)
  else if 'A' ≤ char && char ≤ 'F' then some (char.toNat - 55)
  else none

/-- Whether at least four bytes of the text are left, counted in UTF-8. -/
def hasFourBytes (text : List Char) : Bool :=
  4 ≤ ((text.take 4).map Char.utf8Size).foldl (· + ·) 0

/-- The character that a one-letter escape stands for. -/
def simpleEscape? : Char → Option Char
  | '"' => some '"'
  | '\\' => some '\\'
  | '/' => some '/'
  | 'b' => some '\x08'
  | 'f' => some '\x0c'
  | 'n' => some '\n'
  | 'r' => some '\r'
  | 't' => some '\t'
  | _ => none

/-- Whether a number is the first half of a surrogate pair. -/
def isLeading (unit : Nat) : Bool := 0xD800 ≤ unit && unit ≤ 0xDBFF

/-- Whether a number is the second half of a surrogate pair. -/
def isTrailing (unit : Nat) : Bool := 0xDC00 ≤ unit && unit ≤ 0xDFFF

/-- The character of a surrogate pair. -/
def pairedChar (leading trailing : Nat) : Char :=
  Char.ofNat (0x10000 + (leading - 0xD800) * 0x400 + (trailing - 0xDC00))

/-- Where a reader stands inside a string literal. -/
inductive Inside where
  /-- Between characters. -/
  | plain
  /-- After a backslash. -/
  | escape
  /-- Within the digits of a numeric escape, after the first half of a pair if there is one. -/
  | hex (left value : Nat) (leading : Option Nat)
  /-- After the first half of a pair, where a backslash must follow. -/
  | pairEscape (leading : Nat)
  /-- After the first half of a pair and a backslash. -/
  | pairHex (leading : Nat)

/-- What the last digit of a numeric escape completes: a character, or the wait for the second
half of a pair. -/
def finishHex (unit : Nat) : Option Nat → Except Fault (Option Char × Inside)
  | some leading =>
      if isTrailing unit then .ok (some (pairedChar leading unit), .plain)
      else .error .malformed
  | none =>
      if isTrailing unit then .error .malformed
      else if isLeading unit then .ok (none, .pairEscape unit)
      else .ok (some (Char.ofNat unit), .plain)

/-- The characters of a string literal up to its closing quote, and the text after that quote.
The literal may not hold bare control characters, and halves of surrogate pairs must pair up. -/
def stringFrom : Inside → List Char → Reading (List Char)
  | _, [] => .error .truncated
  | .plain, char :: text =>
      if char = '"' then .ok ([], text)
      else if char = '\\' then stringFrom .escape text
      else if char.toNat < 0x20 then .error .malformed
      else (stringFrom .plain text).map fun (tail, rest) => (char :: tail, rest)
  | .escape, char :: text =>
      if char = 'u' then
        if hasFourBytes text then stringFrom (.hex 4 0 none) text else .error .truncated
      else match simpleEscape? char with
        | some meaning =>
            (stringFrom .plain text).map fun (tail, rest) => (meaning :: tail, rest)
        | none => .error .malformed
  | .hex left value leading, char :: text =>
      match hexValue? char with
      | none => .error .malformed
      | some digit =>
          if left ≤ 1 then
            match finishHex (value * 16 + digit) leading with
            | .error fault => .error fault
            | .ok (none, inside) => stringFrom inside text
            | .ok (some meaning, inside) =>
                (stringFrom inside text).map fun (tail, rest) => (meaning :: tail, rest)
          else stringFrom (.hex (left - 1) (value * 16 + digit) leading) text
  | .pairEscape leading, char :: text =>
      if char = '\\' then stringFrom (.pairHex leading) text else .error .malformed
  | .pairHex leading, char :: text =>
      if char = 'u' then
        if hasFourBytes text then stringFrom (.hex 4 0 (some leading)) text
        else .error .truncated
      else .error .malformed

/-- The characters of a string literal whose opening quote has been read. -/
def stringBody (text : List Char) : Reading (List Char) :=
  stringFrom .plain text

/-- A character that stands for itself in a string literal. -/
def IsPlain (char : Char) : Prop :=
  char ≠ '"' ∧ char ≠ '\\' ∧ ¬ char.toNat < 0x20

end Json
end TickMachine
