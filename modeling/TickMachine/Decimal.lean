/-!
# Decimal digits

The decimal text of a natural number, most significant digit first, and its inverse: the value of
a string of digits.  `value_digits` says that reading back what was written gives the number.
-/

namespace TickMachine
namespace Decimal

/-- The character of a digit below ten. -/
def digitChar (digit : Nat) : Char :=
  Char.ofNat (48 + digit)

/-- The value of a digit character. -/
def digitValue (char : Char) : Nat :=
  char.toNat - 48

/-- Whether a character is one of the ten decimal digits. -/
def isDigit (char : Char) : Bool :=
  48 ≤ char.toNat && char.toNat ≤ 57

/-- The digits of a number, without leading zeros; zero is one digit. -/
def digits (number : Nat) : List Char :=
  if number < 10 then
    [digitChar number]
  else
    digits (number / 10) ++ [digitChar (number % 10)]

/-- The number that a digit string adds to a number read before it. -/
def valueFrom (start : Nat) (text : List Char) : Nat :=
  text.foldl (fun value char => value * 10 + digitValue char) start

/-- The number that a digit string denotes. -/
def value (text : List Char) : Nat :=
  valueFrom 0 text

/-- The digits of a number with zeros in front, up to a fixed width. -/
def padded (width number : Nat) : List Char :=
  let text := digits number
  List.replicate (width - text.length) '0' ++ text

theorem digitValue_digitChar {digit : Nat} (small : digit < 10) :
    digitValue (digitChar digit) = digit := by
  have each : ∀ below ∈ List.range 10, digitValue (digitChar below) = below := by decide
  exact each digit (List.mem_range.mpr small)

theorem isDigit_digitChar {digit : Nat} (small : digit < 10) :
    isDigit (digitChar digit) = true := by
  have each : ∀ below ∈ List.range 10, isDigit (digitChar below) = true := by decide
  exact each digit (List.mem_range.mpr small)

/-- The digits behind go on from the value of those in front. -/
theorem valueFrom_append (start : Nat) (first second : List Char) :
    valueFrom start (first ++ second) = valueFrom (valueFrom start first) second := by
  simp [valueFrom]

/-- The digits of a number have its value. -/
theorem value_digits (number : Nat) : value (digits number) = number := by
  induction number using Nat.strongRecOn with
  | ind number previous =>
    rw [digits]
    split
    next small => simp [value, valueFrom, digitValue_digitChar small]
    next large =>
      have shorter := previous (number / 10) (by omega)
      have last : number % 10 < 10 := Nat.mod_lt _ (by decide)
      rw [value, valueFrom_append, ← value, shorter]
      simp [valueFrom, digitValue_digitChar last]
      omega

theorem isDigit_of_mem_digits {number : Nat} {char : Char} (member : char ∈ digits number) :
    isDigit char = true := by
  induction number using Nat.strongRecOn with
  | ind number previous =>
    rw [digits] at member
    split at member
    next small =>
      rw [List.mem_singleton] at member
      exact member ▸ isDigit_digitChar small
    next large =>
      rcases List.mem_append.mp member with inFront | atEnd
      · exact previous (number / 10) (by omega) inFront
      · rw [List.mem_singleton] at atEnd
        exact atEnd ▸ isDigit_digitChar (Nat.mod_lt _ (by decide))

theorem digits_ne_nil (number : Nat) : digits number ≠ [] := by
  rw [digits]
  split <;> simp

end Decimal
end TickMachine
