/-!
# Calendar dates

Dates of the Gregorian calendar, extended to all years, each with its day number.  A date is
always valid: its month has that day.
-/

namespace TickMachine

/-- Whether a year has a leap day. -/
def isLeapYear (year : Int) : Bool :=
  year % 4 = 0 && (year % 100 ≠ 0 || year % 400 = 0)

/-- The number of days of a month, and zero for a number that is no month. -/
def monthLength (year : Int) (month : Nat) : Nat :=
  match month with
  | 1 | 3 | 5 | 7 | 8 | 10 | 12 => 31
  | 4 | 6 | 9 | 11 => 30
  | 2 => if isLeapYear year then 29 else 28
  | _ => 0

/-- A day of the calendar. -/
structure Date where
  year : Int
  month : Nat
  day : Nat
  day_pos : 1 ≤ day := by decide
  day_le : day ≤ monthLength year month := by decide
deriving DecidableEq

theorem month_bounds {year : Int} {month : Nat} (hasDays : 1 ≤ monthLength year month) :
    1 ≤ month ∧ month ≤ 12 := by
  unfold monthLength at hasDays
  split at hasDays <;> omega

theorem monthLength_bounds (year : Int) {month : Nat} (positive : 1 ≤ month)
    (small : month ≤ 12) :
    28 ≤ monthLength year month ∧ monthLength year month ≤ 31 := by
  cases leap : isLeapYear year <;>
    have each : ∀ number ∈ List.range 12,
      28 ≤ monthLength year (number + 1) ∧ monthLength year (number + 1) ≤ 31 := by
    simp [List.range, List.range.loop, monthLength, leap]
  all_goals
    have found := each (month - 1) (List.mem_range.mpr (by omega))
    rwa [Nat.sub_add_cancel positive] at found

namespace Date

/-- The date with the given numbers, if there is such a day. -/
def of? (year : Int) (month day : Nat) : Option Date :=
  if valid : 1 ≤ day ∧ day ≤ monthLength year month then
    some ⟨year, month, day, valid.1, valid.2⟩
  else none

theorem month_pos (date : Date) : 1 ≤ date.month :=
  (month_bounds (Nat.le_trans date.day_pos date.day_le)).1

theorem month_le (date : Date) : date.month ≤ 12 :=
  (month_bounds (Nat.le_trans date.day_pos date.day_le)).2

theorem day_le_thirtyOne (date : Date) : date.day ≤ 31 :=
  Nat.le_trans date.day_le (monthLength_bounds date.year date.month_pos date.month_le).2

theorem of?_self (date : Date) : of? date.year date.month date.day = some date :=
  dif_pos ⟨date.day_pos, date.day_le⟩

/-- The first day of a month. -/
def firstOf (year : Int) (month : Nat) (positive : 1 ≤ month) (small : month ≤ 12) : Date :=
  ⟨year, month, 1, by decide, by have := monthLength_bounds year positive small; omega⟩

/-- The last day of a month. -/
def lastOf (year : Int) (month : Nat) (positive : 1 ≤ month) (small : month ≤ 12) : Date :=
  ⟨year, month, monthLength year month,
    by have := monthLength_bounds year positive small; omega, Nat.le_refl _⟩

/-- The next day. -/
def next (date : Date) : Date :=
  if within : date.day + 1 ≤ monthLength date.year date.month then
    ⟨date.year, date.month, date.day + 1, by omega, within⟩
  else if sameYear : date.month + 1 ≤ 12 then
    firstOf date.year (date.month + 1) (by omega) sameYear
  else
    firstOf (date.year + 1) 1 (by decide) (by decide)

/-- The day before. -/
def previous (date : Date) : Date :=
  if within : 1 ≤ date.day - 1 then
    ⟨date.year, date.month, date.day - 1, within, by have := date.day_le; omega⟩
  else if sameYear : 1 ≤ date.month - 1 then
    lastOf date.year (date.month - 1) sameYear (by have := date.month_le; omega)
  else
    lastOf (date.year - 1) 12 (by decide) (by decide)

/-- The number of days before a month in its year. -/
def daysBefore (year : Int) (month : Nat) : Nat :=
  ((List.range month).map (monthLength year)).foldl (· + ·) 0

/-- The number of days before a year, counted from the start of year zero. -/
def daysBeforeYear (year : Int) : Int :=
  let complete := year - 1
  365 * year + (complete / 4 - complete / 100 + complete / 400 + 1)

/-- The number of a day, counted from the start of year zero. -/
def dayNumber (date : Date) : Int :=
  daysBeforeYear date.year + daysBefore date.year date.month + (date.day - 1 : Nat)

end Date
end TickMachine
