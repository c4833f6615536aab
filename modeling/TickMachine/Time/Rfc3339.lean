import TickMachine.Decimal
import TickMachine.Time.Instant

/-!
# Timestamps

The text of a moment in the form of RFC 3339: date, time and offset from universal time.  A moment
is written in universal time with the fewest of 0, 3, 6 or 9 digits of fraction that are exact.
When it is read, the offset is taken off, and digits of fraction beyond the ninth are passed over.
-/

namespace TickMachine
namespace Rfc3339

open Decimal

/-! ## Writing -/

/-- The digits of a fraction of a second, given in nanoseconds, with the point before them. -/
def writeFraction (nano : Nat) : List Char :=
  if nano = 0 then []
  else if nano % 1000000 = 0 then '.' :: padded 3 (nano / 1000000)
  else if nano % 1000 = 0 then '.' :: padded 6 (nano / 1000)
  else '.' :: padded 9 nano

/-- The text of a year: four digits, with a sign if they are not enough or it is negative. -/
def writeYear (year : Int) : List Char :=
  if 0 ≤ year ∧ year ≤ 9999 then padded 4 year.toNat
  else (if year < 0 then '-' else '+') :: padded 4 year.natAbs

/-- The text of a date. -/
def writeDate (date : Date) : List Char :=
  writeYear date.year ++ '-' :: padded 2 date.month ++ '-' :: padded 2 date.day

/-- The text of a time of day. -/
def writeTime (time : TimeOfDay) : List Char :=
  padded 2 time.hour ++ ':' :: padded 2 time.minute ++ ':' :: padded 2 time.second ++
    writeFraction time.nano

/-- The text of a moment. -/
def write (instant : Instant) : List Char :=
  writeDate instant.date ++ 'T' :: writeTime instant.time ++ ['Z']

/-! ## Reading -/

/-- Reads a number of exactly the given count of digits. -/
def number? (count : Nat) (text : List Char) : Option (Nat × List Char) :=
  let run := text.take count
  if run.length = count ∧ run.all isDigit then some (value run, text.drop count) else none

/-- Reads one of the given characters. -/
def mark? (marks : List Char) : List Char → Option (Char × List Char)
  | [] => none
  | char :: text => if char ∈ marks then some (char, text) else none

/-- Reads a date. -/
def date? (text : List Char) : Option (Date × List Char) := do
  let (year, text) ← number? 4 text
  let (_, text) ← mark? ['-'] text
  let (month, text) ← number? 2 text
  let (_, text) ← mark? ['-'] text
  let (day, text) ← number? 2 text
  let date ← Date.of? year month day
  return (date, text)

/-- Reads a fraction of a second in nanoseconds, which is zero if there is no point. -/
def fraction? : List Char → Option (Nat × List Char)
  | '.' :: text =>
      let run := text.takeWhile isDigit
      if run.isEmpty then none
      else some (value (run.take 9) * Nat.pow 10 (9 - run.length), text.dropWhile isDigit)
  | text => some (0, text)

/-- Reads a time of day. -/
def time? (text : List Char) : Option (TimeOfDay × List Char) := do
  let (hour, text) ← number? 2 text
  let (_, text) ← mark? [':'] text
  let (minute, text) ← number? 2 text
  let (_, text) ← mark? [':'] text
  let (second, text) ← number? 2 text
  let (nano, text) ← fraction? text
  let time ← TimeOfDay.of? hour minute second nano
  return (time, text)

/-- Reads an offset from universal time, in minutes ahead of it. -/
def offset? (text : List Char) : Option (Int × List Char) := do
  let (sign, text) ← mark? ['Z', 'z', '+', '-'] text
  if sign = '+' ∨ sign = '-' then
    let (hours, text) ← number? 2 text
    let (_, text) ← mark? [':'] text
    let (minutes, text) ← number? 2 text
    if hours < 24 ∧ minutes < 60 then
      let ahead : Int := hours * 60 + minutes
      return (if sign = '-' then -ahead else ahead, text)
    else none
  else return (0, text)

/-- Reads a moment from a text that holds nothing else. -/
def read? (text : List Char) : Option Instant := do
  let (date, text) ← date? text
  let (_, text) ← mark? ['T', 't'] text
  let (time, text) ← time? text
  let (ahead, text) ← offset? text
  if text.isEmpty then return Instant.ofLocal date time ahead else none

end Rfc3339
end TickMachine
