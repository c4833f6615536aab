import TickMachine.Json.Text

/-!
# Numbers in JSON text

A field that holds a number holds a natural number that fits in a 64-bit word.  Any other number
is scanned to its end, so that what is wrong with it is found in the order of its characters, and
is then reported as mistyped.  A number too large for an IEEE double is malformed: its first
digits, as many as fit in a word, are rounded to a double, the power of ten is rounded to a
double, and their product must not round past the largest one.
-/

namespace TickMachine
namespace Json

open Decimal

/-- A scanned number: a natural number below `2 ^ 64`, or any other. -/
inductive Numeral where
  | natural (value : Nat)
  | other
deriving DecidableEq, Repr

/-- The number of values of a 64-bit word. -/
def wordSize : Nat := UInt64.size

/-- A run of digits: the value of those that fit in a word together with the digits before them,
how many of them do, how many do not, and the text after the run. -/
structure DigitRun where
  value : Nat
  kept : Nat
  dropped : Nat
  rest : List Char

/-- The digits in front of a text, continuing a number read before them. -/
def digitRun (start : Nat) : List Char → DigitRun
  | [] => ⟨start, 0, 0, []⟩
  | char :: text =>
      if isDigit char then
        if start * 10 + digitValue char < wordSize then
          let run := digitRun (start * 10 + digitValue char) text
          { run with kept := run.kept + 1 }
        else
          ⟨start, 0, 1 + (text.takeWhile isDigit).length, text.dropWhile isDigit⟩
      else ⟨start, 0, 0, char :: text⟩

/-- A natural number rounded to 53 significant bits, half to even. -/
def roundToDouble (number : Nat) : Nat :=
  let shift := number.log2 + 1 - 53
  let unit := Nat.pow 2 shift
  let quotient := number / unit
  let remainder := number % unit
  if remainder * 2 > unit || (remainder * 2 = unit && quotient % 2 = 1) then
    (quotient + 1) * unit
  else
    quotient * unit

/-- Whether digits with a power of ten exceed every double. -/
def exceedsDouble (significand : Nat) (exponent : Int) : Bool :=
  significand ≠ 0 &&
    (308 < exponent ||
      (0 ≤ exponent &&
        Nat.pow 2 1024 - Nat.pow 2 970 ≤
          roundToDouble significand * roundToDouble (Nat.pow 10 exponent.toNat)))

/-- The end of a number that is not a plain natural one. -/
def finishReal (significand : Nat) (exponent : Int) (text : List Char) : Reading Numeral :=
  if exceedsDouble significand exponent then .error .malformed else .ok (.other, text)

/-- The unsigned digits of an exponent; there must be one. -/
def exponentDigits (significand : Nat) (start : Int) (negative : Bool) :
    List Char → Reading Numeral
  | [] => .error .truncated
  | char :: text =>
      if isDigit char then
        let written := value ((char :: text).takeWhile isDigit)
        let exponent : Int := if negative then start - written else start + written
        finishReal significand exponent (text.dropWhile isDigit)
      else .error .malformed

/-- The exponent of a number, after its letter. -/
def exponentPart (significand : Nat) (start : Int) : List Char → Reading Numeral
  | '+' :: text => exponentDigits significand start false text
  | '-' :: text => exponentDigits significand start true text
  | text => exponentDigits significand start false text

/-- Whether a character starts an exponent. -/
def isExponentMark (char : Char) : Bool :=
  char = 'e' || char = 'E'

/-- What may follow the digits of a number that is already known not to be a plain natural
one. -/
def afterDigits (significand : Nat) (exponent : Int) : List Char → Reading Numeral
  | char :: text =>
      if isExponentMark char then exponentPart significand exponent text
      else finishReal significand exponent (char :: text)
  | [] => finishReal significand exponent []

/-- The fraction of a number, after its point; there must be a digit. -/
def fractionPart (significand : Nat) (exponent : Int) (text : List Char) : Reading Numeral :=
  let run := digitRun significand text
  if run.kept + run.dropped = 0 then
    .error (if text.isEmpty then .truncated else .malformed)
  else
    afterDigits run.value (exponent - run.kept) run.rest

/-- What may follow the digits before the point.  Without a sign, a dropped digit, a fraction or an
exponent, the number is a plain natural one. -/
def afterInteger (negative : Bool) (run : DigitRun) : Reading Numeral :=
  match run.rest with
  | '.' :: text => fractionPart run.value run.dropped text
  | rest =>
      if rest.head?.any isExponentMark then afterDigits run.value run.dropped rest
      else if negative then finishReal run.value run.dropped rest
      else if run.dropped = 0 then .ok (.natural run.value, rest)
      else finishReal run.value run.dropped rest

/-- A number without its sign.  A leading zero stands alone. -/
def unsigned (negative : Bool) : List Char → Reading Numeral
  | [] => .error .truncated
  | '0' :: text =>
      if text.head?.any isDigit then .error .malformed
      else afterInteger negative ⟨0, 1, 0, text⟩
  | char :: text =>
      if isDigit char then afterInteger negative (digitRun 0 (char :: text))
      else .error .malformed

/-- A number, whose first character is a sign or a digit. -/
def numeral : List Char → Reading Numeral
  | '-' :: text => unsigned true text
  | text => unsigned false text

end Json
end TickMachine
