import TickMachine.Json.Numeral
import TickMachine.Json.Skip

/-!
# Typed values in JSON text

Readers for the values that configurations and histories are made of: booleans, bounded natural
numbers, optional values, strings, lists, and records.  A record is either an object, whose fields
stand in any order among others that are passed over, or an array of its fields in order.  A
record is read into a draft; a field knows whether the draft already has it and how to add it.
-/

namespace TickMachine
namespace Json

open Decimal

/-- A value that starts with the given character but is of another type than the one asked for.
Words, numbers and strings are read first, so that their own faults win. -/
def wrongType (text : List Char) : Fault :=
  let faultOf {α : Type} (reading : Except Fault α) : Fault :=
    match reading with
    | .error fault => fault
    | .ok _ => .mistyped
  match text with
  | [] => .truncated
  | 'n' :: rest => faultOf (word ['u', 'l', 'l'] rest)
  | 't' :: rest => faultOf (word ['r', 'u', 'e'] rest)
  | 'f' :: rest => faultOf (word ['a', 'l', 's', 'e'] rest)
  | '"' :: rest => faultOf (stringBody rest)
  | char :: rest =>
      if char = '-' || isDigit char then faultOf (numeral (char :: rest))
      else if char = '[' || char = '{' then .mistyped
      else .malformed

/-- Reads `true` or `false`. -/
def boolean (text : List Char) : Reading Bool :=
  match skipBlanks text with
  | 't' :: rest => (word ['r', 'u', 'e'] rest).map fun rest => (true, rest)
  | 'f' :: rest => (word ['a', 'l', 's', 'e'] rest).map fun rest => (false, rest)
  | rest => .error (wrongType rest)

/-- Reads a natural number below a bound. -/
def naturalBelow (bound : Nat) (text : List Char) : Reading Nat :=
  match skipBlanks text with
  | [] => .error .truncated
  | char :: rest =>
      if char = '-' || isDigit char then
        match numeral (char :: rest) with
        | .error fault => .error fault
        | .ok (.other, _) => .error .mistyped
        | .ok (.natural value, rest) =>
            if value < bound then .ok (value, rest) else .error .mistyped
      else .error (wrongType (char :: rest))

/-- Reads `null` or a value. -/
def optional {α : Type} (read : List Char → Reading α) (text : List Char) :
    Reading (Option α) :=
  match skipBlanks text with
  | 'n' :: rest => (word ['u', 'l', 'l'] rest).map fun rest => (none, rest)
  | rest => (read rest).map fun (value, rest) => (some value, rest)

/-- Reads a string literal. -/
def string (text : List Char) : Reading (List Char) :=
  match skipBlanks text with
  | '"' :: rest => stringBody rest
  | rest => .error (wrongType rest)

/-! ## Lists -/

/-- What comes next in an array: its end, or an element in front of the text. -/
inductive Next where
  | closing
  | element (text : List Char)

/-- Looks for the next element of an array, which follows a comma unless it is the first. -/
def nextElement (isFirst : Bool) (text : List Char) : Except Fault Next :=
  match skipBlanks text with
  | [] => .error .truncated
  | ']' :: _ => .ok .closing
  | char :: rest =>
      if isFirst then .ok (.element (char :: rest))
      else if char = ',' then
        match skipBlanks rest with
        | [] => .error .truncated
        | ']' :: _ => .error .malformed
        | rest => .ok (.element rest)
      else .error .malformed

/-- Reads the closing bracket of an array that has no room for another element. -/
def closeArray (text : List Char) : Except Fault (List Char) :=
  match skipBlanks text with
  | [] => .error .truncated
  | ']' :: rest => .ok rest
  | _ => .error .malformed

/-- Reads the elements of an array up to its closing bracket, at most as many as `fuel` says;
every element takes a character, so the length of the text is fuel enough. -/
def elements {α : Type} (read : List Char → Reading α) :
    Nat → Bool → List Char → Reading (List α)
  | 0, _, _ => .error .truncated
  | fuel + 1, isFirst, text =>
      match nextElement isFirst text with
      | .error fault => .error fault
      | .ok .closing => (closeArray text).map fun rest => ([], rest)
      | .ok (.element text) =>
          match read text with
          | .error fault => .error fault
          | .ok (first, rest) =>
              (elements read fuel false rest).map fun (more, rest) => (first :: more, rest)

/-- Reads an array. -/
def list {α : Type} (read : List Char → Reading α) (text : List Char) : Reading (List α) :=
  match skipBlanks text with
  | '[' :: rest => elements read (rest.length + 1) true rest
  | rest => .error (wrongType rest)

/-! ## Records -/

/-- A field of a record that is read into a draft of type `δ`. -/
structure Field (δ : Type) where
  /-- The name of the field. -/
  name : String
  /-- Whether the draft has the field. -/
  isSet : δ → Bool
  /-- Reads the value of the field into the draft. -/
  read : δ → List Char → Reading δ

/-- A field whose value is read by itself and then stored. -/
def Field.of {δ α : Type} (name : String) (get : δ → Option α) (set : δ → α → δ)
    (read : List Char → Reading α) : Field δ where
  name := name
  isSet draft := (get draft).isSome
  read draft text := (read text).map fun (value, rest) => (set draft value, rest)

/-- Reads the colon between a name and its value. -/
def colon (text : List Char) : Except Fault (List Char) :=
  match skipBlanks text with
  | [] => .error .truncated
  | ':' :: rest => .ok rest
  | _ => .error .malformed

/-- Looks for the next name of an object, which follows a comma unless it is the first.  The
result is the text after its opening quote, or nothing in front of the closing bracket. -/
def nextName (isFirst : Bool) (text : List Char) : Except Fault (Option (List Char)) :=
  match skipBlanks text with
  | [] => .error .truncated
  | '}' :: _ => .ok none
  | char :: rest =>
      if isFirst then
        if char = '"' then .ok (some rest) else .error .malformed
      else if char = ',' then
        match skipBlanks rest with
        | [] => .error .truncated
        | '"' :: rest => .ok (some rest)
        | _ => .error .malformed
      else .error .malformed

/-- Reads the value of a member into the draft, or passes over it if no field has its name.  A
field may be given only once. -/
def member {δ : Type} (fields : List (Field δ)) (name : List Char) (draft : δ)
    (text : List Char) : Reading δ :=
  match fields.find? fun field => field.name.toList = name with
  | some field =>
      if field.isSet draft then .error .mistyped
      else match colon text with
        | .error fault => .error fault
        | .ok rest => field.read draft rest
  | none =>
      match colon text with
      | .error fault => .error fault
      | .ok rest => (skipValue rest).map fun rest => (draft, rest)

/-- Reads the members of an object up to its closing bracket, at most as many as `fuel` says;
every member takes a character, so the length of the text is fuel enough. -/
def members {δ : Type} (fields : List (Field δ)) : Nat → Bool → δ → List Char → Reading δ
  | 0, _, _, _ => .error .truncated
  | fuel + 1, isFirst, draft, text =>
      match nextName isFirst text with
      | .error fault => .error fault
      | .ok none => .ok (draft, (skipBlanks text).drop 1)
      | .ok (some rest) =>
          match stringBody rest with
          | .error fault => .error fault
          | .ok (name, rest) =>
              match member fields name draft rest with
              | .error fault => .error fault
              | .ok (draft, rest) => members fields fuel false draft rest

/-- Reads the fields of a record from an array, in order.  A short array leaves the last fields
out if that is allowed. -/
def positions {δ : Type} (mayBeShort : Bool) :
    List (Field δ) → Bool → δ → List Char → Reading δ
  | [], _, draft, text => (closeArray text).map fun rest => (draft, rest)
  | field :: more, isFirst, draft, text =>
      match nextElement isFirst text with
      | .error fault => .error fault
      | .ok .closing =>
          if mayBeShort then (closeArray text).map fun rest => (draft, rest)
          else .error .mistyped
      | .ok (.element text) =>
          match field.read draft text with
          | .error fault => .error fault
          | .ok (draft, rest) => positions mayBeShort more false draft rest

/-- Reads a record into a draft, from an object or from an array. -/
def record {δ : Type} (fields : List (Field δ)) (mayBeShort : Bool) (empty : δ)
    (text : List Char) : Reading δ :=
  match skipBlanks text with
  | '{' :: rest => members fields (rest.length + 1) true empty rest
  | '[' :: rest => positions mayBeShort fields true empty rest
  | rest => .error (wrongType rest)

/-- Turns what was read into a value of another type, if it is one. -/
def refine {α β : Type} (read : List Char → Reading α) (convert : α → Option β)
    (text : List Char) : Reading β :=
  match read text with
  | .error fault => .error fault
  | .ok (value, rest) =>
      match convert value with
      | none => .error .mistyped
      | some result => .ok (result, rest)

/-- Reads a text that holds one value and nothing else but blanks. -/
def document {α : Type} (read : List Char → Reading α) (text : List Char) : Except Fault α :=
  match read text with
  | .error fault => .error fault
  | .ok (value, rest) =>
      match skipBlanks rest with
      | [] => .ok value
      | _ :: _ => .error .malformed

end Json
end TickMachine
