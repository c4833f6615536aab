import Mathlib.Algebra.Group.Nat.Defs
import TickMachine.Proofs.Grammar
import TickMachine.Time.Rfc3339

/-!
# Reading timestamps back

The text of a moment is read back as the very same moment, to the nanosecond, if its year has four
digits.  Each number of the text has a fixed width, so it ends where the next one begins, and the
fraction says how many digits it has.
-/

namespace TickMachine

open Decimal

/-! ## Numbers of a fixed width -/

namespace Decimal

theorem length_digits_le
    {width number : Nat}
    (positive : 0 < width)
    (small : number < 10 ^ width) :
    (digits number).length ≤ width := by
  induction width generalizing number with
  | zero => exact absurd positive (Nat.lt_irrefl 0)
  | succ less inductionHypothesis =>
      rw [digits]
      split
      next => exact Nat.succ_le_succ (Nat.zero_le less)
      next large =>
        have room : 0 < less := by
          refine Nat.pos_of_ne_zero fun zero => large ?_
          rw [zero] at small
          exact small
        have shorter : number / 10 < 10 ^ less := by
          rw [Nat.div_lt_iff_lt_mul (by decide), ← Nat.pow_succ]
          exact small
        rw [List.length_append]
        exact Nat.succ_le_succ (inductionHypothesis room shorter)

theorem value_zeros (count : Nat) (text : List Char) :
    value (List.replicate count '0' ++ text) = value text := by
  induction count with
  | zero => rfl
  | succ less inductionHypothesis => exact inductionHypothesis

theorem value_padded (width number : Nat) : value (padded width number) = number := by
  rw [padded, value_zeros, value_digits]

theorem isDigit_of_mem_padded
    {width number : Nat}
    {char : Char}
    (member : char ∈ padded width number) :
    isDigit char = true := by
  obtain zero | inside := List.mem_append.mp member
  · rw [List.eq_of_mem_replicate zero]
    rfl
  · exact isDigit_of_mem_digits inside

/-- A number that fits is padded to its width. -/
theorem length_padded
    {width number : Nat}
    (positive : 0 < width)
    (small : number < 10 ^ width) :
    (padded width number).length = width := by
  rw [padded, List.length_append, List.length_replicate]
  exact Nat.sub_add_cancel (length_digits_le positive small)

end Decimal

namespace Rfc3339

/-- A number of a fixed width is read back, whatever follows it. -/
theorem number?_padded
    {width number : Nat}
    (positive : 0 < width)
    (small : number < 10 ^ width)
    (rest : List Char) :
    number? width (padded width number ++ rest) = some (number, rest) := by
  have length := length_padded positive small
  have front : (padded width number ++ rest).take width = padded width number :=
    List.take_left' length
  have back : (padded width number ++ rest).drop width = rest := List.drop_left' length
  have digits : (padded width number).all isDigit = true :=
    List.all_eq_true.mpr fun _ => isDigit_of_mem_padded
  rw [number?, front, back, if_pos ⟨length, digits⟩, value_padded]

theorem mark?_cons
    {marks : List Char}
    {char : Char}
    (known : char ∈ marks)
    (rest : List Char) :
    mark? marks (char :: rest) = some (char, rest) :=
  if_pos known

/-! ## Dates and times -/

/-- A date of a four-digit year is read back. -/
theorem date?_writeDate
    (date : Date)
    (early : 0 ≤ date.year)
    (late : date.year ≤ 9999)
    (rest : List Char) :
    date? (writeDate date ++ rest) = some (date, rest) := by
  have year : date.year.toNat < 10 ^ 4 := by omega
  have month : date.month < 10 ^ 2 := Nat.lt_of_le_of_lt date.month_le (by decide)
  have day : date.day < 10 ^ 2 := Nat.lt_of_le_of_lt date.day_le_thirtyOne (by decide)
  have same : ((date.year.toNat : Nat) : Int) = date.year := Int.toNat_of_nonneg early
  have shape : writeDate date ++ rest =
      padded 4 date.year.toNat ++ '-' :: (padded 2 date.month ++ '-' ::
        (padded 2 date.day ++ rest)) := by
    rw [writeDate, writeYear, if_pos ⟨early, late⟩]
    simp
  simp [shape, date?, number?_padded _ year, number?_padded _ month, number?_padded _ day,
    mark?_cons, same, Date.of?_self]

/-- Digits with the point before them are read as the nanoseconds that they stand for. -/
theorem fraction?_padded
    {width number : Nat}
    (positive : 0 < width)
    (within : width ≤ 9)
    (small : number < 10 ^ width)
    {char : Char}
    (ends : isDigit char = false)
    (rest : List Char) :
    fraction? ('.' :: (padded width number ++ char :: rest)) =
      some (number * 10 ^ (9 - width), char :: rest) := by
  have length := length_padded positive small
  have digits : ∀ char ∈ padded width number, isDigit char = true :=
    fun _ => isDigit_of_mem_padded
  have run : (padded width number ++ char :: rest).takeWhile isDigit = padded width number := by
    rw [List.takeWhile_append_of_pos digits, List.takeWhile_cons_of_neg (by simp [ends]),
      List.append_nil]
  have behind : (padded width number ++ char :: rest).dropWhile isDigit = char :: rest := by
    rw [List.dropWhile_append_of_pos digits, List.dropWhile_cons_of_neg (by simp [ends])]
  have nonempty : (padded width number).isEmpty = false := by
    rw [List.isEmpty_eq_false_iff, ← List.length_pos_iff, length]
    exact positive
  have all : (padded width number).take 9 = padded width number :=
    List.take_of_length_le (Nat.le_trans (Nat.le_of_eq length) within)
  simp [fraction?, run, behind, nonempty, all, value_padded, length]

/-- Any number of nanoseconds below a second is read back from its shortest form. -/
theorem fraction?_writeFraction
    {nano : Nat}
    (small : nano < 1000000000)
    {char : Char}
    (ends : isDigit char = false)
    (other : char ≠ '.')
    (rest : List Char) :
    fraction? (writeFraction nano ++ char :: rest) = some (nano, char :: rest) := by
  rw [writeFraction]
  split
  next none => simp [fraction?, other, none]
  next =>
    split
    next millis =>
      have whole : nano / 1000000 * 10 ^ (9 - 3) = nano := by omega
      rw [List.cons_append, fraction?_padded (by decide) (by decide) (by omega) ends, whole]
    next =>
      split
      next micros =>
        have whole : nano / 1000 * 10 ^ (9 - 6) = nano := by omega
        rw [List.cons_append, fraction?_padded (by decide) (by decide) (by omega) ends, whole]
      next =>
        have whole : nano * 10 ^ (9 - 9) = nano := Nat.mul_one nano
        rw [List.cons_append, fraction?_padded (by decide) (by decide) small ends, whole]

theorem time?_writeTime
    (time : TimeOfDay)
    {char : Char}
    (ends : isDigit char = false)
    (other : char ≠ '.')
    (rest : List Char) :
    time? (writeTime time ++ char :: rest) = some (time, char :: rest) := by
  have hour : time.hour < 10 ^ 2 := Nat.lt_trans time.hour_lt (by decide)
  have minute : time.minute < 10 ^ 2 := Nat.lt_trans time.minute_lt (by decide)
  have second : time.second < 10 ^ 2 := Nat.lt_of_le_of_lt time.second_le (by decide)
  have shape : writeTime time ++ char :: rest =
      padded 2 time.hour ++ ':' :: (padded 2 time.minute ++ ':' ::
        (padded 2 time.second ++ (writeFraction time.nano ++ char :: rest))) := by
    simp [writeTime]
  simp [shape, time?, number?_padded _ hour, number?_padded _ minute, number?_padded _ second,
    mark?_cons, fraction?_writeFraction time.nano_lt ends other, TimeOfDay.of?_self]

end Rfc3339

/-! ## Moments -/

theorem TimeOfDay.atMinute_self (time : TimeOfDay) : time.atMinute time.minuteOfDay = time := by
  have hours := time.hour_lt
  have minutes := time.minute_lt
  have hour : (time.hour * 60 + time.minute) / 60 % 24 = time.hour := by omega
  have minute : (time.hour * 60 + time.minute) % 60 = time.minute := by omega
  simp [atMinute, minuteOfDay, hour, minute]

/-- A clock that shows universal time shows the moment itself. -/
theorem Instant.ofLocal_zero (date : Date) (time : TimeOfDay) :
    ofLocal date time 0 = ⟨date, time⟩ := by
  have early : ¬ (time.minuteOfDay : Int) < 0 := by omega
  have late : (time.minuteOfDay : Int) < 1440 := by
    have hours := time.hour_lt
    have minutes := time.minute_lt
    rw [TimeOfDay.minuteOfDay]
    omega
  simp [ofLocal, early, late, TimeOfDay.atMinute_self]

namespace Rfc3339

/-- A moment in a year of four digits is read back from its text. -/
theorem read?_write
    (instant : Instant)
    (early : 0 ≤ instant.date.year)
    (late : instant.date.year ≤ 9999) :
    read? (write instant) = some instant := by
  have shape : write instant = writeDate instant.date ++ 'T' :: (writeTime instant.time ++ ['Z']) :=
    by simp [write]
  have offset : offset? ['Z'] = some (0, []) := rfl
  simp [shape, read?, date?_writeDate instant.date early late, mark?_cons,
    time?_writeTime instant.time (by decide : isDigit 'Z' = false) (by decide), offset,
    Instant.ofLocal_zero]

theorem plain_of_isDigit {char : Char} (digit : isDigit char = true) : Json.IsPlain char := by
  simp only [isDigit, Bool.and_eq_true, decide_eq_true_eq] at digit
  refine ⟨?_, ?_, by omega⟩
  · rintro rfl
    exact absurd digit (by decide)
  · rintro rfl
    exact absurd digit (by decide)

theorem padded_plain (width number : Nat) : ∀ char ∈ padded width number, Json.IsPlain char :=
  fun _ member => plain_of_isDigit (isDigit_of_mem_padded member)

theorem writeFraction_plain (nano : Nat) : ∀ char ∈ writeFraction nano, Json.IsPlain char := by
  have point : Json.IsPlain '.' := by decide
  rw [writeFraction]
  split
  next => exact List.forall_mem_nil _
  next =>
    split
    next => exact List.forall_mem_cons.mpr ⟨point, padded_plain _ _⟩
    next =>
      split
      next => exact List.forall_mem_cons.mpr ⟨point, padded_plain _ _⟩
      next => exact List.forall_mem_cons.mpr ⟨point, padded_plain _ _⟩

theorem writeDate_plain
    (date : Date)
    (early : 0 ≤ date.year)
    (late : date.year ≤ 9999) :
    ∀ char ∈ writeDate date, Json.IsPlain char := by
  have hyphen : Json.IsPlain '-' := by decide
  rw [writeDate, writeYear, if_pos ⟨early, late⟩]
  simp only [List.forall_mem_append, List.forall_mem_cons]
  exact ⟨⟨padded_plain _ _, hyphen, padded_plain _ _⟩, hyphen, padded_plain _ _⟩

theorem writeTime_plain (time : TimeOfDay) : ∀ char ∈ writeTime time, Json.IsPlain char := by
  have colon : Json.IsPlain ':' := by decide
  simp only [writeTime, List.forall_mem_append, List.forall_mem_cons]
  exact ⟨⟨⟨padded_plain _ _, colon, padded_plain _ _⟩, colon, padded_plain _ _⟩,
    writeFraction_plain _⟩

/-- The text of a moment can stand in a string literal as it is. -/
theorem write_plain
    (instant : Instant)
    (early : 0 ≤ instant.date.year)
    (late : instant.date.year ≤ 9999) :
    ∀ char ∈ write instant, Json.IsPlain char := by
  have separator : Json.IsPlain 'T' := by decide
  have universal : Json.IsPlain 'Z' := by decide
  simp only [write, List.forall_mem_append, List.forall_mem_cons]
  exact ⟨⟨writeDate_plain _ early late, separator, writeTime_plain _⟩, universal,
    List.forall_mem_nil _⟩

end Rfc3339
end TickMachine
