/-!
# Quotients as binary floating-point numbers

The binary64 number nearest to a quotient of two counts, in exact arithmetic on natural numbers. A
positive number is `mantissa * 2 ^ exponent` with a mantissa of 53 bits. Counts are far too small
for their quotient to leave the range of normal numbers, so no other case is kept.

Ties go to the even neighbour, both in the quotient and in the decimal text of a number.
-/

namespace ImportChart

/-- The natural number nearest to a quotient; a tie goes to the even one. -/
def roundQuotient (numerator denominator : Nat) : Nat :=
  let whole := numerator / denominator
  let twice := 2 * (numerator % denominator)
  if twice < denominator then whole
  else if twice = denominator ∧ whole % 2 = 0 then whole
  else whole + 1

/-- A number of the form `mantissa * 2 ^ exponent`. -/
structure Binary64 where
  mantissa : Nat
  exponent : Int
  deriving DecidableEq, Repr

namespace Binary64

/-- Zero. -/
def zero : Binary64 := ⟨0, 0⟩

/-- A quotient times a power of two, as a numerator and a denominator. -/
def scaled (numerator denominator : Nat) (power : Int) : Nat × Nat :=
  (numerator * Nat.pow 2 power.toNat, denominator * Nat.pow 2 (-power).toNat)

/-- The number nearest to a quotient. -/
def ofQuotient (numerator denominator : Nat) : Binary64 :=
  if numerator = 0 ∨ denominator = 0 then zero
  else
    let guess : Int := (numerator.log2 : Int) - denominator.log2 - 52
    let (n, d) := scaled numerator denominator (-guess)
    let exponent := if n / d < Nat.pow 2 52 then guess - 1 else guess
    let (n, d) := scaled numerator denominator (-exponent)
    let mantissa := roundQuotient n d
    if mantissa = Nat.pow 2 53 then ⟨Nat.pow 2 52, exponent + 1⟩ else ⟨mantissa, exponent⟩

/-- The sixty-four bits of the number. -/
def bits (x : Binary64) : Nat :=
  if x.mantissa = 0 then 0
  else (x.exponent + 1075).toNat * Nat.pow 2 52 + (x.mantissa - Nat.pow 2 52)

/-- The number in decimal with two places. -/
def toTwoPlaces (x : Binary64) : String :=
  let (n, d) := scaled (x.mantissa * 100) 1 x.exponent
  let hundredths := roundQuotient n d
  let places := hundredths % 100
  toString (hundredths / 100) ++ "." ++ (if places < 10 then "0" else "") ++ toString places

end Binary64

end ImportChart
