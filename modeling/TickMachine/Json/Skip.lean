import TickMachine.Json.Text

/-!
# Skipping a JSON value

The value of a field that nobody asked for is passed over: it must be well formed, but its numbers
have no range and its escapes need not pair up.  The skipper is an automaton over characters with
a stack of the brackets that are open, so no depth of nesting is too much for it.
-/

namespace TickMachine
namespace Json

open Decimal

/-- A bracket that is open. -/
inductive Bracket where
  | array
  | object
deriving DecidableEq, Repr

/-- The character that closes a bracket. -/
def Bracket.closing : Bracket → Char
  | .array => ']'
  | .object => '}'

/-- Where the skipper stands. -/
inductive Stage where
  /-- A value must start. -/
  | value
  /-- A bracket has just been opened. -/
  | opened
  /-- A value has ended. -/
  | done
  /-- The name of a member must start. -/
  | name
  /-- A name has ended. -/
  | colon
  /-- Inside a string literal, which is a name or a value. -/
  | text (isName : Bool)
  /-- After a backslash. -/
  | escape (isName : Bool)
  /-- Within the digits of a numeric escape. -/
  | hex (isName : Bool) (left : Nat)
  /-- Within one of the three words. -/
  | letters (more : List Char)
  /-- After the sign of a number. -/
  | sign
  /-- After a leading zero. -/
  | zero
  /-- Within the digits before the point. -/
  | whole
  /-- After the point, where a digit must follow. -/
  | point
  /-- Within the digits after the point. -/
  | fraction
  /-- After the letter of an exponent. -/
  | exponentMark
  /-- After the sign of an exponent, where a digit must follow. -/
  | exponentSign
  /-- Within the digits of an exponent. -/
  | exponent

/-- What a character leads to: the next stage, or the end of the value in front of it. -/
inductive Move where
  | on (stage : Stage) (brackets : List Bracket)
  | stop

/-- What must come after an opened bracket or a comma inside it. -/
def Bracket.item : Bracket → Stage
  | .array => .value
  | .object => .name

/-- A character where a value has ended. -/
def stepDone (brackets : List Bracket) (char : Char) : Except Fault Move :=
  match brackets with
  | [] => .ok .stop
  | bracket :: below =>
      if isBlank char then .ok (.on .done brackets)
      else if char = ',' then .ok (.on bracket.item brackets)
      else if char = bracket.closing then .ok (.on .done below)
      else .error .malformed

/-- A character where a value must start. -/
def stepValue (brackets : List Bracket) (char : Char) : Except Fault Move :=
  if isBlank char then .ok (.on .value brackets)
  else if char = 'n' then .ok (.on (.letters ['u', 'l', 'l']) brackets)
  else if char = 't' then .ok (.on (.letters ['r', 'u', 'e']) brackets)
  else if char = 'f' then .ok (.on (.letters ['a', 'l', 's', 'e']) brackets)
  else if char = '-' then .ok (.on .sign brackets)
  else if char = '0' then .ok (.on .zero brackets)
  else if isDigit char then .ok (.on .whole brackets)
  else if char = '"' then .ok (.on (.text false) brackets)
  else if char = '[' then .ok (.on .opened (.array :: brackets))
  else if char = '{' then .ok (.on .opened (.object :: brackets))
  else .error .malformed

/-- A character where the name of a member must start. -/
def stepName (brackets : List Bracket) (char : Char) : Except Fault Move :=
  if isBlank char then .ok (.on .name brackets)
  else if char = '"' then .ok (.on (.text true) brackets)
  else .error .malformed

/-- A character after an opened bracket. -/
def stepOpened (brackets : List Bracket) (char : Char) : Except Fault Move :=
  match brackets with
  | [] => .ok .stop
  | bracket :: below =>
      if isBlank char then .ok (.on .opened brackets)
      else if char = bracket.closing then .ok (.on .done below)
      else match bracket with
        | .array => stepValue brackets char
        | .object => stepName brackets char

/-- What follows the digits of a number. -/
def stepAfterDigits (brackets : List Bracket) (char : Char) : Except Fault Move :=
  if char = 'e' || char = 'E' then .ok (.on .exponentMark brackets)
  else stepDone brackets char

/-- What follows the whole part of a number. -/
def stepAfterWhole (brackets : List Bracket) (char : Char) : Except Fault Move :=
  if char = '.' then .ok (.on .point brackets) else stepAfterDigits brackets char

/-- The stage after a string literal. -/
def afterText (isName : Bool) : Stage :=
  if isName then .colon else .done

/-- One character of the skipper, with the text after it. -/
def step (stage : Stage) (brackets : List Bracket) (char : Char) (text : List Char) :
    Except Fault Move :=
  match stage with
  | .value => stepValue brackets char
  | .opened => stepOpened brackets char
  | .done => stepDone brackets char
  | .name => stepName brackets char
  | .colon =>
      if isBlank char then .ok (.on .colon brackets)
      else if char = ':' then .ok (.on .value brackets)
      else .error .malformed
  | .text isName =>
      if char = '"' then .ok (.on (afterText isName) brackets)
      else if char = '\\' then .ok (.on (.escape isName) brackets)
      else if char.toNat < 0x20 then .error .malformed
      else .ok (.on (.text isName) brackets)
  | .escape isName =>
      if char = 'u' then
        if hasFourBytes text then .ok (.on (.hex isName 4) brackets) else .error .truncated
      else if (simpleEscape? char).isSome then .ok (.on (.text isName) brackets)
      else .error .malformed
  | .hex isName left =>
      if (hexValue? char).isSome then
        .ok (.on (if left ≤ 1 then .text isName else .hex isName (left - 1)) brackets)
      else .error .malformed
  | .letters [] => stepDone brackets char
  | .letters (expected :: more) =>
      if char = expected then
        .ok (.on (if more.isEmpty then .done else .letters more) brackets)
      else .error .malformed
  | .sign =>
      if char = '0' then .ok (.on .zero brackets)
      else if isDigit char then .ok (.on .whole brackets)
      else .error .malformed
  | .zero => if isDigit char then .error .malformed else stepAfterWhole brackets char
  | .whole => if isDigit char then .ok (.on .whole brackets) else stepAfterWhole brackets char
  | .point => if isDigit char then .ok (.on .fraction brackets) else .error .malformed
  | .fraction =>
      if isDigit char then .ok (.on .fraction brackets) else stepAfterDigits brackets char
  | .exponentMark =>
      if char = '+' || char = '-' then .ok (.on .exponentSign brackets)
      else if isDigit char then .ok (.on .exponent brackets)
      else .error .malformed
  | .exponentSign => if isDigit char then .ok (.on .exponent brackets) else .error .malformed
  | .exponent =>
      if isDigit char then .ok (.on .exponent brackets) else stepDone brackets char

/-- Whether a value may end where the text does. -/
def Stage.isComplete : Stage → Bool
  | .done | .zero | .whole | .fraction | .exponent | .letters [] => true
  | _ => false

/-- Whether the text may not end here because a digit must follow. -/
def Stage.needsDigit : Stage → Bool
  | .sign | .point | .exponentMark | .exponentSign => true
  | _ => false

/-- What the end of the text means to the skipper. -/
def atEnd (stage : Stage) (brackets : List Bracket) : Except Fault (List Char) :=
  if stage.needsDigit then .error .malformed
  else if stage.isComplete && brackets.isEmpty then .ok []
  else .error .truncated

/-- Runs the skipper from a stage to the end of the outermost value. -/
def skipFrom (stage : Stage) (brackets : List Bracket) : List Char → Except Fault (List Char)
  | [] => atEnd stage brackets
  | char :: text =>
      match step stage brackets char text with
      | .error fault => .error fault
      | .ok .stop => .ok (char :: text)
      | .ok (.on next remaining) => skipFrom next remaining text

/-- The text after one value. -/
def skipValue (text : List Char) : Except Fault (List Char) :=
  skipFrom .value [] text

end Json
end TickMachine
