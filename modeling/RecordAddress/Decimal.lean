/-! Decimal fractions and the one way to write each of them. The sign belongs to zero too. -/

namespace RecordAddress

/-- The digits, as a whole number, times a power of ten. -/
structure Decimal where
  negative : Bool := false
  digits : Nat
  exponent : Int
  deriving DecidableEq, Repr

namespace Decimal

def isZero (value : Decimal) : Bool :=
  value.digits = 0

def numerator (value : Decimal) : Int :=
  let digits : Int := value.digits * Nat.pow 10 value.exponent.toNat
  if value.negative then -digits else digits

def denominator (value : Decimal) : Nat :=
  Nat.pow 10 (-value.exponent).toNat

/-- The digits from the first to the last that is not zero. -/
def significant (value : Decimal) : List Char :=
  ((Nat.toDigits 10 value.digits).reverse.dropWhile (· = '0')).reverse

/-- How many digits stand in front of the point. Below zero it is the number of zeros after it. -/
def point (value : Decimal) : Int :=
  (Nat.toDigits 10 value.digits).length + value.exponent

/-- At least one digit stands on either side of the point. -/
def positional (significant : List Char) (point : Int) : List Char :=
  let digits := List.replicate (1 - point).toNat '0' ++ significant
  let width := (max 1 point).toNat
  let fraction := digits.drop width
  digits.take width ++ List.replicate (width - digits.length) '0'
    ++ '.' :: if fraction.isEmpty then ['0'] else fraction

/-- One digit in front of the point, and a power of ten of at least two digits. -/
def scientific (significant : List Char) (exponent : Int) : List Char :=
  let power := Nat.toDigits 10 exponent.natAbs
  significant.take 1 ++ (if significant.length ≤ 1 then [] else '.' :: significant.drop 1)
    ++ 'e' :: (if exponent < 0 then '-' else '+') :: (List.replicate (2 - power.length) '0' ++ power)

/-- Positional notation from a ten thousandth up to what has sixteen digits before the point. -/
def display (value : Decimal) : String :=
  let sign := if value.negative then ['-'] else []
  let written :=
    if value.isZero then ['0', '.', '0']
    else if -4 < value.point ∧ value.point ≤ 16 then positional value.significant value.point
    else scientific value.significant (value.point - 1)
  String.ofList (sign ++ written)

end Decimal
end RecordAddress
