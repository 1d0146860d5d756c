import TemplateFill.Decimal.Binary64

/-!
The shortest decimal digits that read back as a given binary64 number, and their layout as text.

The reals that round to a number form an interval around it, its ends included exactly when the
code is even. On the grid of decimals with one digit, with two, and so on, only the two neighbours
of the number are tested; the first grid with a neighbour inside the interval gives the digits, and
of two such neighbours the nearer. How the digits are laid out is a separate record.
-/

namespace TemplateFill

structure Decimal where
  digits : Nat
  exponent : Int
deriving DecidableEq

namespace Decimal

/-! ### The interval of a number -/

/-- A magnitude and the two ends of the interval that rounds to it, over one denominator. -/
structure Interval where
  low : Nat
  middle : Nat
  high : Nat
  closed : Bool
  denominator : Nat

/-- The interval of a code. The ends are half way to the neighbouring codes. -/
def Interval.ofCode (code : Nat) : Interval :=
  let here := Binary64.unitsOf code
  { low := here + Binary64.unitsOf (code - 1)
    middle := 2 * here
    high := here + Binary64.unitsOf (code + 1)
    closed := code % 2 = 0
    denominator := 2 * Binary64.unitsPerOne }

def shiftRatio (numerator denominator : Nat) (exponent : Int) : Nat × Nat :=
  if exponent < 0 then (numerator, denominator * Nat.pow 10 exponent.natAbs)
  else (numerator * Nat.pow 10 exponent.natAbs, denominator)

def Interval.holds (interval : Interval) (digits : Nat) (exponent : Int) : Bool :=
  let (point, base) := shiftRatio digits 1 exponent
  let scaled := point * interval.denominator
  let low := interval.low * base
  let high := interval.high * base
  if interval.closed then low ≤ scaled && scaled ≤ high else low < scaled && scaled < high

/-! ### The grids -/

def leadingZeros : Nat → Nat → Nat → Nat
  | 0, _, _ => 0
  | more + 1, numerator, denominator =>
      if denominator ≤ numerator then 0
      else leadingZeros more (numerator * 10) denominator + 1

def leadingExponent (numerator denominator : Nat) : Int :=
  if denominator ≤ numerator then
    ((Nat.toDigits 10 (numerator / denominator)).length : Int) - 1
  else
    -(leadingZeros 400 numerator denominator : Int)

/-- The neighbour of the middle on the grid `10 ^ exponent` that lies in the interval, if any; of
two, the nearer, and the even one on a tie. -/
def onGrid (interval : Interval) (exponent : Int) : Option Decimal :=
  let (numerator, denominator) := shiftRatio interval.middle interval.denominator (-exponent)
  let below := numerator / denominator
  match interval.holds below exponent, interval.holds (below + 1) exponent with
  | true, true => some ⟨Binary64.roundHalfEven numerator denominator, exponent⟩
  | true, false => some ⟨below, exponent⟩
  | false, true => some ⟨below + 1, exponent⟩
  | false, false => none

def firstHit (interval : Interval) (leading : Int) : Nat → Nat → Option Decimal
  | 0, _ => none
  | more + 1, count =>
      match onGrid interval (leading - count + 1) with
      | some hit => some hit
      | none => firstHit interval leading more (count + 1)

def mostDigits : Nat := 17

/-- The shortest decimal that reads back as the magnitude with the given code. -/
def ofCode (code : Nat) : Decimal :=
  if code = 0 then ⟨0, 0⟩
  else
    let interval := Interval.ofCode code
    let leading := leadingExponent interval.middle interval.denominator
    (firstHit interval leading mostDigits 1).getD ⟨0, 0⟩

/-! ### Layout -/

/-- How a decimal is laid out: the leading exponents written without an exponent mark, and the text
between the digits and a written exponent, by its sign. -/
structure Layout where
  plainLeast : Int
  plainMost : Int
  negativeMark : String
  positiveMark : String

def significantDigits (value : Decimal) : List Char :=
  let trimmed := ((Nat.toDigits 10 value.digits).reverse.dropWhile (· == '0')).reverse
  if trimmed.isEmpty then ['0'] else trimmed

def exponentOfLeading (value : Decimal) : Int :=
  value.exponent + (Nat.toDigits 10 value.digits).length - 1

def plain (digits : List Char) (leading : Int) : List Char :=
  if leading < 0 then
    '0' :: '.' :: List.replicate (leading.natAbs - 1) '0' ++ digits
  else
    let whole := leading.natAbs + 1
    let before := digits.take whole ++ List.replicate (whole - digits.length) '0'
    let after := digits.drop whole
    before ++ '.' :: (if after.isEmpty then ['0'] else after)

def scientific (layout : Layout) (digits : List Char) (leading : Int) : List Char :=
  let mark := if leading < 0 then layout.negativeMark else layout.positiveMark
  let fraction := digits.drop 1
  digits.take 1 ++ (if fraction.isEmpty then [] else '.' :: fraction)
    ++ mark.toList ++ Nat.toDigits 10 leading.natAbs

def write (layout : Layout) (value : Decimal) : List Char :=
  let digits := value.significantDigits
  let leading := value.exponentOfLeading
  if layout.plainLeast ≤ leading && leading ≤ layout.plainMost then plain digits leading
  else scientific layout digits leading

end Decimal

end TemplateFill
