/-
Shares as IEEE double numbers.

A length histogram shows what share of the lines lies in a class or below, as a
percentage.  The percentage is a double: each count is rounded to a double, so is the
product with one hundred, and so is the quotient.  Everything here is exact arithmetic
on natural numbers followed by one kind of rounding, to the nearest value with ties to
the even one, so that the printed digits and the bits are the same on every machine.

Only positive numbers of ordinary size are needed.  A count lies between one and 2^64,
so neither infinities nor subnormal numbers can come up.
-/
namespace Bitext

/-- The quotient of two natural numbers rounded to the nearest one, a half going to the
even neighbour. -/
def roundHalfEven (num den : Nat) : Nat :=
  let below := num / den
  let doubled := 2 * (num % den)
  if doubled < den then below
  else if den < doubled then below + 1
  else below + below % 2

/-- A double number of ordinary size, worth `significand * 2 ^ exponent`.  The
significand has 53 bits, or is zero. -/
structure Binary64 where
  significand : Nat
  exponent : Int
  deriving DecidableEq, Repr

namespace Binary64

/-- Multiplies a quotient by a power of two, given as the negated exponent. -/
def scaled (num den : Nat) (exponent : Int) : Nat × Nat :=
  (num <<< (-exponent).toNat, den <<< exponent.toNat)

/-- The exponent at which a positive quotient has a significand of 53 bits. -/
def exponentOf (num den : Nat) : Int :=
  let guess : Int := (Nat.log2 num : Int) - (Nat.log2 den : Int)
  let atGuess := scaled num den guess
  if atGuess.2 ≤ atGuess.1 then guess - 52 else guess - 53

/-- The double nearest to a quotient. -/
def ofRatio (num den : Nat) : Binary64 :=
  if num = 0 then ⟨0, 0⟩
  else
    let exponent := exponentOf num den
    let exact := scaled num den exponent
    let significand := roundHalfEven exact.1 exact.2
    if significand = 1 <<< 53 then ⟨1 <<< 52, exponent + 1⟩ else ⟨significand, exponent⟩

/-- The double nearest to a natural number. -/
def ofNat (n : Nat) : Binary64 := ofRatio n 1

/-- The number as a quotient. -/
def ratio (x : Binary64) : Nat × Nat :=
  (x.significand <<< x.exponent.toNat, 1 <<< (-x.exponent).toNat)

/-- The rounded product. -/
def mul (x y : Binary64) : Binary64 :=
  ofRatio (x.ratio.1 * y.ratio.1) (x.ratio.2 * y.ratio.2)

/-- The rounded quotient. -/
def div (x y : Binary64) : Binary64 :=
  ofRatio (x.ratio.1 * y.ratio.2) (x.ratio.2 * y.ratio.1)

/-- The 64 bits of the number: a sign of zero, the exponent with its offset, and the
significand without its leading one. -/
def bits (x : Binary64) : Nat :=
  if x.significand = 0 then 0
  else ((x.exponent + 1075).toNat <<< 52) + (x.significand - (1 <<< 52))

/-- The number with two decimal places; an exact half goes to the even digit. -/
def twoPlaces (x : Binary64) : String :=
  let hundredths := roundHalfEven (100 * x.ratio.1) x.ratio.2
  let tenth := hundredths / 10 % 10
  let last := hundredths % 10
  toString (hundredths / 100) ++ "." ++ toString tenth ++ toString last

/-- What percentage a count is of a total, an empty total counting as one. -/
def percentage (count total : Nat) : Binary64 :=
  ((ofNat 100).mul (ofNat count)).div (ofNat (max total 1))

example : (percentage 4 4).bits = 0x4059000000000000 := by decide +kernel
example : (percentage 2 3).bits = 0x4050aaaaaaaaaaab := by decide +kernel
example : (percentage 1 32).twoPlaces = "3.12" := by decide +kernel

end Binary64

end Bitext
