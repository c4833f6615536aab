/-!
# Outlines

An outline is the shape of a value as it is shown for diagnosis: a word, a constructor with
arguments, a record with named fields, or a list.  It has two texts.  The flat one is a single
line.  The indented one gives every part a line of its own, four columns deeper than the whole and
with a comma after it.  A record may be open: it has fields that are not shown, and says so with
two dots.
-/

namespace TickMachine

/-- The shape of a value shown for diagnosis. -/
inductive Outline where
  /-- A word, written as it is. -/
  | word (text : String)
  /-- A constructor with one argument. -/
  | wrap (name : String) (argument : Outline)
  /-- A record with named fields, open if it has others. -/
  | record (name : String) (fields : List (String × Outline)) (isOpen : Bool)
  /-- A list. -/
  | list (items : List Outline)

namespace Outline

/-- The outline of a truth value. -/
def ofBool (value : Bool) : Outline :=
  word (if value then "true" else "false")

/-- The outline of a number. -/
def ofNat (value : Nat) : Outline :=
  word (toString value)

/-- The outline of a value that may be missing. -/
def ofOption : Option Outline → Outline
  | none => word "None"
  | some outline => wrap "Some" outline

mutual

/-- The text of an outline on one line. -/
def flat : Outline → String
  | .word text => text
  | .wrap name argument => name ++ "(" ++ flat argument ++ ")"
  | .record name fields isOpen =>
      name ++ " \x7b " ++ ", ".intercalate (flatFields fields ++ if isOpen then [".."] else []) ++
        " \x7d"
  | .list items => "[" ++ ", ".intercalate (flatItems items) ++ "]"

/-- The flat texts of the fields of a record. -/
def flatFields : List (String × Outline) → List String
  | [] => []
  | (name, value) :: more => (name ++ ": " ++ flat value) :: flatFields more

/-- The flat texts of the items of a list. -/
def flatItems : List Outline → List String
  | [] => []
  | item :: more => flat item :: flatItems more

end

/-- Blanks up to a depth, four columns for each level. -/
def indent (depth : Nat) : String :=
  String.ofList (List.replicate (4 * depth) ' ')

mutual

/-- The text of an outline with a line for every part; the first line is not indented. -/
def indented (depth : Nat) : Outline → String
  | .word text => text
  | .wrap name argument =>
      name ++ "(\n" ++ indent (depth + 1) ++ indented (depth + 1) argument ++ ",\n" ++
        indent depth ++ ")"
  | .record name fields isOpen =>
      name ++ " \x7b\n" ++ indentedFields (depth + 1) fields ++
        (if isOpen then indent (depth + 1) ++ "..\n" else "") ++ indent depth ++ "\x7d"
  | .list [] => "[]"
  | .list (item :: more) =>
      "[\n" ++ indentedItems (depth + 1) (item :: more) ++ indent depth ++ "]"

/-- The lines of the fields of a record. -/
def indentedFields (depth : Nat) : List (String × Outline) → String
  | [] => ""
  | (name, value) :: more =>
      indent depth ++ name ++ ": " ++ indented depth value ++ ",\n" ++ indentedFields depth more

/-- The lines of the items of a list. -/
def indentedItems (depth : Nat) : List Outline → String
  | [] => ""
  | item :: more => indent depth ++ indented depth item ++ ",\n" ++ indentedItems depth more

end

/-- The text of an outline, flat or indented. -/
def text (outline : Outline) (pretty : Bool) : String :=
  if pretty then indented 0 outline else flat outline

end Outline
end TickMachine
