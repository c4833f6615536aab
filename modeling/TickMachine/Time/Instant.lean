import TickMachine.Time.Calendar

/-!
# Instants

A moment in universal time, to the nanosecond.  Every minute may have a leap second, its second
number sixty.
-/

namespace TickMachine

/-- A time of day, to the nanosecond. -/
structure TimeOfDay where
  hour : Nat
  minute : Nat
  second : Nat
  nano : Nat
  hour_lt : hour < 24 := by decide
  minute_lt : minute < 60 := by decide
  second_le : second ≤ 60 := by decide
  nano_lt : nano < 1000000000 := by decide
deriving DecidableEq

namespace TimeOfDay

/-- The time with the given numbers, if there is such a time. -/
def of? (hour minute second nano : Nat) : Option TimeOfDay :=
  if valid : hour < 24 ∧ minute < 60 ∧ second ≤ 60 ∧ nano < 1000000000 then
    some ⟨hour, minute, second, nano, valid.1, valid.2.1, valid.2.2.1, valid.2.2.2⟩
  else none

theorem of?_self (time : TimeOfDay) :
    of? time.hour time.minute time.second time.nano = some time :=
  dif_pos ⟨time.hour_lt, time.minute_lt, time.second_le, time.nano_lt⟩

/-- The number of the minute within the day. -/
def minuteOfDay (time : TimeOfDay) : Nat :=
  time.hour * 60 + time.minute

/-- The number of the second within the day; a leap second shares the number of the second before
it. -/
def secondOfDay (time : TimeOfDay) : Nat :=
  time.minuteOfDay * 60 + min time.second 59

/-- The nanoseconds since that second began; they go past one second within a leap second. -/
def nanoOfSecond (time : TimeOfDay) : Nat :=
  time.nano + if time.second = 60 then 1000000000 else 0

/-- The time at another minute of the day. -/
def atMinute (time : TimeOfDay) (minute : Nat) : TimeOfDay where
  hour := minute / 60 % 24
  minute := minute % 60
  second := time.second
  nano := time.nano
  hour_lt := Nat.mod_lt _ (by decide)
  minute_lt := Nat.mod_lt _ (by decide)
  second_le := time.second_le
  nano_lt := time.nano_lt

end TimeOfDay

/-- A moment in universal time. -/
structure Instant where
  date : Date
  time : TimeOfDay
deriving DecidableEq

namespace Instant

/-- The start of the year 1970. -/
def epoch : Instant where
  date := { year := 1970, month := 1, day := 1, day_pos := Nat.one_pos }
  time := { hour := 0, minute := 0, second := 0, nano := 0 }

instance : Inhabited Instant := ⟨epoch⟩

/-- The moment that a clock shows which is ahead of universal time by the given number of
minutes, at most a day. -/
def ofLocal (date : Date) (time : TimeOfDay) (ahead : Int) : Instant :=
  let minute := (time.minuteOfDay : Int) - ahead
  if minute < 0 then ⟨date.previous, time.atMinute (minute + 1440).toNat⟩
  else if minute < 1440 then ⟨date, time.atMinute minute.toNat⟩
  else ⟨date.next, time.atMinute (minute - 1440).toNat⟩

/-- The nanoseconds from one moment to another, negative if the other is earlier.  A leap second
counts if it lies between the two times of day. -/
def nanosUntil (first last : Instant) : Int :=
  let days := last.date.dayNumber - first.date.dayNumber
  let start := first.time
  let finish := last.time
  let leap : Int :=
    if start.secondOfDay < finish.secondOfDay && start.second = 60 then 1
    else if finish.secondOfDay < start.secondOfDay && finish.second = 60 then -1
    else 0
  (days * 86400 + ((finish.secondOfDay : Int) - start.secondOfDay) + leap) * 1000000000 +
    ((finish.nanoOfSecond : Int) - start.nanoOfSecond)

/-- The time from one moment to another in whole seconds and nanoseconds, if it is not
negative. -/
def elapsed? (first last : Instant) : Option (Nat × Nat) :=
  let nanos := first.nanosUntil last
  if nanos < 0 then none else some (nanos.toNat / 1000000000, nanos.toNat % 1000000000)

end Instant
end TickMachine
