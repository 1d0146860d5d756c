/-!
Finite numbers of the binary64 format, held as a sign and the code of a magnitude.

Codes count the magnitudes upwards from zero, so the order of magnitudes is the order of codes and
the parity of a code is the parity of the significand. All arithmetic is on natural numbers: a
magnitude is a whole number of units of `2 ^ -1074`, and a ratio is rounded by one division.
What is settled here is nearest rounding with ties to the even code, and overflow as `none`.
-/

namespace TemplateFill

def binadeSize : Nat := 4503599627370496

/-- One more than the code of the largest finite magnitude. -/
def codeCeiling : Nat := 2047 * binadeSize

/-- A finite binary64 number. The two zeros differ in `negative` alone. -/
structure Binary64 where
  negative : Bool
  code : Nat
  finite : code < codeCeiling
deriving DecidableEq

namespace Binary64

/-! ### Magnitudes -/

/-- The magnitude with the given code, in units of `2 ^ -1074`. -/
def unitsOf (code : Nat) : Nat :=
  if code < binadeSize then code
  else (binadeSize + code % binadeSize) * Nat.pow 2 (code / binadeSize - 1)

def units (x : Binary64) : Nat := unitsOf x.code

def unitsPerOne : Nat := Nat.pow 2 1074

/-! ### Rounding -/

def roundHalfEven (numerator denominator : Nat) : Nat :=
  let whole := numerator / denominator
  let twice := 2 * (numerator % denominator)
  if twice < denominator then whole
  else if denominator < twice then whole + 1
  else whole + whole % 2

/-- The code nearest to a ratio, without a ceiling. The grid around a ratio has the spacing of the
binade it lies in, and codes continue evenly from one binade into the next, so rounding on that
grid and adding the binade's first code covers the carry as well. -/
def nearestCode (numerator denominator : Nat) : Nat :=
  let scaled := numerator * unitsPerOne
  let binade := Nat.log2 (scaled / denominator) - 52
  binade * binadeSize + roundHalfEven scaled (denominator * Nat.pow 2 binade)

def ofRatio? (negative : Bool) (numerator denominator : Nat) : Option Binary64 :=
  if fits : nearestCode numerator denominator < codeCeiling then
    some ⟨negative, nearestCode numerator denominator, fits⟩
  else
    none

def zero (negative : Bool) : Binary64 := ⟨negative, 0, by decide⟩

def largest (negative : Bool) : Binary64 := ⟨negative, codeCeiling - 1, by decide⟩

def ofInt (value : Int) : Binary64 :=
  (ofRatio? (value < 0) value.natAbs 1).getD (largest (value < 0))

/-! ### Order -/

/-- Orders the numbers by value. Both zeros have the rank zero. -/
def rank (x : Binary64) : Int := if x.negative then -(x.code : Int) else x.code

/-! ### Scaling by powers of ten -/

/-- The number nearest to a power of ten; powers beyond the finite numbers are cut to the largest. -/
def powerOfTen (exponent : Nat) : Binary64 :=
  (ofRatio? false (Nat.pow 10 exponent) 1).getD (largest false)

def scaleUp? (x y : Binary64) : Option Binary64 :=
  ofRatio? x.negative (x.units * y.units) (unitsPerOne * unitsPerOne)

def scaleDown (x y : Binary64) : Binary64 :=
  (ofRatio? x.negative x.units y.units).getD (largest x.negative)

def widestPower : Nat := 308

/-- Divides by a power of ten, in rounded steps of at most `10 ^ 308`. -/
def dividePower (x : Binary64) (exponent : Nat) : Binary64 :=
  if exponent ≤ widestPower then x.scaleDown (powerOfTen exponent)
  else if x.code = 0 then x
  else dividePower (x.scaleDown (powerOfTen widestPower)) (exponent - widestPower)
termination_by exponent
decreasing_by simp only [widestPower] at *; omega

/-- Multiplies by a power of ten in one rounded step. A zero stays a zero; any other number is out
of range once the power itself is. -/
def multiplyPower? (x : Binary64) (exponent : Nat) : Option Binary64 :=
  if exponent ≤ widestPower then x.scaleUp? (powerOfTen exponent)
  else if x.code = 0 then some x
  else none

/-- The number written as a significand and a power of ten: the significand is rounded first and
then scaled, so the result may differ from the nearest number in the last place. -/
def ofScaled? (negative : Bool) (significand : Nat) (exponent : Int) : Option Binary64 :=
  match ofRatio? negative significand 1 with
  | none => none
  | some base =>
      if exponent < 0 then some (base.dividePower exponent.natAbs)
      else base.multiplyPower? exponent.natAbs

end Binary64

end TemplateFill
