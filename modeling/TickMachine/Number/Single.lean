import TickMachine.Decimal

/-!
# Single-precision numbers

A number in the binary32 format of IEEE 754, held as its 32 bits: a sign, eight bits of exponent
and 23 bits of fraction.  Two questions are asked of it, whether it is a number and whether it is
less than zero, and it has a decimal text: the fewest digits that read back to the same number,
written without an exponent.
-/

namespace TickMachine

/-- A number in the binary32 format. -/
structure Single where
  bits : UInt32
deriving DecidableEq, Inhabited

namespace Single

/-- Whether the sign bit is set. -/
def isSigned (single : Single) : Bool :=
  Nat.pow 2 31 ≤ single.bits.toNat

/-- The bits of the exponent. -/
def exponentField (single : Single) : Nat :=
  single.bits.toNat / Nat.pow 2 23 % 256

/-- The bits of the fraction. -/
def fractionField (single : Single) : Nat :=
  single.bits.toNat % Nat.pow 2 23

/-- Whether the value is not a number. -/
def isNaN (single : Single) : Bool :=
  single.exponentField = 255 && single.fractionField ≠ 0

/-- Whether the value is infinite, of either sign. -/
def isInfinite (single : Single) : Bool :=
  single.exponentField = 255 && single.fractionField = 0

/-- Whether the value is zero, of either sign. -/
def isZero (single : Single) : Bool :=
  single.exponentField = 0 && single.fractionField = 0

/-- Whether the value is a number less than zero.  Negative zero is not. -/
def isNegative (single : Single) : Bool :=
  single.isSigned && !single.isNaN && !single.isZero

/-- The magnitude of a finite value is `significand * 2 ^ scale`; this is the significand. -/
def significand (single : Single) : Nat :=
  if single.exponentField = 0 then single.fractionField else Nat.pow 2 23 + single.fractionField

/-- The magnitude of a finite value is `significand * 2 ^ scale`; this is the scale. -/
def scale (single : Single) : Int :=
  max single.exponentField 1 - 150

/-! ## Shortest decimal text -/

/-- A positive number `digits * base ^ exponent`, compared by cross multiplication. -/
structure Scaled where
  digits : Nat
  base : Nat
  exponent : Int

/-- The number as a fraction with positive denominator. -/
def Scaled.fraction (number : Scaled) : Nat × Nat :=
  (number.digits * number.base.pow number.exponent.toNat, number.base.pow (-number.exponent).toNat)

/-- Whether one number is less than another. -/
def Scaled.less (first second : Scaled) : Bool :=
  first.fraction.1 * second.fraction.2 < second.fraction.1 * first.fraction.2

/-- The numbers that read back to a given finite value other than zero: from halfway to its lower
neighbour up to halfway to its upper neighbour.  The ends belong to it if the significand is even,
because a tie goes to the even neighbour. -/
structure Rounding where
  lower : Scaled
  upper : Scaled
  withEnds : Bool

/-- The rounding interval of a magnitude, in quarters of its unit. -/
def rounding (single : Single) : Rounding where
  lower :=
    ⟨4 * single.significand -
        (if single.fractionField = 0 && 1 < single.exponentField then 1 else 2),
      2, single.scale - 2⟩
  upper := ⟨4 * single.significand + 2, 2, single.scale - 2⟩
  withEnds := single.significand % 2 = 0

/-- Whether a number reads back to the value whose interval is given. -/
def Rounding.contains (interval : Rounding) (number : Scaled) : Bool :=
  if interval.withEnds then !number.less interval.lower && !interval.upper.less number
  else interval.lower.less number && number.less interval.upper

/-- The number on the decimal grid of the given exponent that reads back to the value and is
nearest to it, if any does.  Of two equally near ones it is the greater. -/
def onGrid? (single : Single) (exponent : Int) : Option Nat :=
  let exact : Scaled := ⟨single.significand, 2, single.scale⟩
  let unit : Scaled := ⟨1, 10, exponent⟩
  let numerator := exact.fraction.1 * unit.fraction.2
  let denominator := exact.fraction.2 * unit.fraction.1
  let below := numerator / denominator
  let isBelow := single.rounding.contains ⟨below, 10, exponent⟩
  let isAbove := single.rounding.contains ⟨below + 1, 10, exponent⟩
  let upperHalf := denominator ≤ 2 * (numerator % denominator)
  if isAbove && (!isBelow || upperHalf) then some (below + 1)
  else if isBelow then some below
  else none

/-- The coarsest decimal grid below the given exponent on which a number reads back to the value,
and that number. -/
def shortestFrom (single : Single) : Nat → Int → Nat × Int
  | 0, exponent => (0, exponent)
  | steps + 1, exponent =>
      match single.onGrid? exponent with
      | some digits => (digits, exponent)
      | none => shortestFrom single steps (exponent - 1)

/-- The fewest digits that read back to a finite value other than zero, with their exponent of
ten.  Every such value lies below `10 ^ 39`, and on the grid of `10 ^ (-60)` each has a digit. -/
def shortest (single : Single) : Nat × Int :=
  single.shortestFrom 100 39

/-- Digits with a power of ten, written without an exponent. -/
def positional (digits : List Char) (exponent : Int) : List Char :=
  if 0 ≤ exponent then
    digits ++ List.replicate exponent.toNat '0'
  else
    let places := (-exponent).toNat
    let filled := List.replicate (places + 1 - digits.length) '0' ++ digits
    filled.take (filled.length - places) ++ '.' :: filled.drop (filled.length - places)

/-- The decimal text of a value. -/
def text (single : Single) : String :=
  if single.isNaN then "NaN"
  else
    let magnitude :=
      if single.isInfinite then ['i', 'n', 'f']
      else if single.isZero then ['0']
      else positional (Decimal.digits single.shortest.1) single.shortest.2
    String.ofList (if single.isSigned then '-' :: magnitude else magnitude)

end Single
end TickMachine
