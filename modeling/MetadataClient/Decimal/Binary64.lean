/-! Finite binary64 numbers. The non-negative ones are counted in ascending order:
the rank of a number is its place in that order, so ranks compare as values do and
the rank after the last finite number stands for overflow. Every operation is exact
on fractions of naturals and rounds once, to the nearest rank and to the even one
on a tie. -/
namespace MetadataClient

def Binary64.block : Nat := 0x10000000000000

def Binary64.overflow : Nat := 2047 * block

structure Binary64 where
  negative : Bool
  rank : Nat
  finite : rank < Binary64.overflow
deriving DecidableEq

namespace Binary64

/-- A rank of the first block counts steps of `2 ^ -1074`. The second block has the
same steps, and from there on each block doubles them. -/
def significand (rank : Nat) : Nat :=
  if rank < block then rank else block + rank % block

def exponent (rank : Nat) : Int :=
  if rank < block then -1074 else (rank / block : Nat) - 1075

def fraction (rank : Nat) : Nat × Nat :=
  (significand rank * Nat.pow 2 (exponent rank).toNat, Nat.pow 2 (-exponent rank).toNat)

def roundHalfEven (numerator denominator : Nat) : Nat :=
  let floor := numerator / denominator
  let doubled := 2 * (numerator % denominator)
  if doubled < denominator ∨ doubled = denominator ∧ floor % 2 = 0 then floor else floor + 1

/-- The `e` with `2 ^ e ≤ numerator / denominator < 2 ^ (e + 1)`. -/
def floorLog (numerator denominator : Nat) : Int :=
  let guess : Int := (numerator.log2 : Int) - denominator.log2
  if denominator * Nat.pow 2 guess.toNat ≤ numerator * Nat.pow 2 (-guess).toNat then guess
  else guess - 1

/-- The rank nearest to a fraction, the even one of two that are equally near. -/
def nearestRank (numerator denominator : Nat) : Nat :=
  if numerator = 0 then 0
  else
    let step : Int := max (-1074) (floorLog numerator denominator - 52)
    (step + 1074).toNat * block +
      roundHalfEven (numerator * Nat.pow 2 (-step).toNat) (denominator * Nat.pow 2 step.toNat)

def product (first second : Nat) : Nat :=
  nearestRank ((fraction first).1 * (fraction second).1)
    ((fraction first).2 * (fraction second).2)

def quotient (first second : Nat) : Nat :=
  nearestRank ((fraction first).1 * (fraction second).2)
    ((fraction first).2 * (fraction second).1)

def powerOfTen (power : Nat) : Nat :=
  nearestRank (Nat.pow 10 power) 1

/-- Scales by a power of ten in factors of at most `1e308`, rounding after each.
The result is an overflow rank if the number is too large. -/
def scale (rank : Nat) (power : Int) : Nat :=
  if power > 308 then if rank = 0 then 0 else overflow
  else if power ≥ 0 then product rank (powerOfTen power.toNat)
  else if power ≥ -308 then quotient rank (powerOfTen (-power).toNat)
  else if rank = 0 then 0
  else scale (quotient rank (powerOfTen 308)) (power + 308)
termination_by (-power).toNat

def ofDecimal? (negative : Bool) (digits : Nat) (power : Int) : Option Binary64 :=
  let rank := scale (nearestRank digits 1) power
  if finite : rank < overflow then some ⟨negative, rank, finite⟩ else none

def overflows (digits : List Nat) (power : Int) : Bool :=
  let digits := digits.dropWhile (· == 0)
  let size : Int := digits.length + power
  if digits.isEmpty || size < 300 then false
  else if 310 < size then true
  else
    let number := digits.foldl (· * 10 + ·) 0
    overflow ≤ nearestRank (number * Nat.pow 10 power.toNat) (Nat.pow 10 (-power).toNat)

def zero (negative : Bool) : Binary64 :=
  ⟨negative, 0, by decide⟩

/-- Equality of values: the two zeros are one number. -/
def same (first second : Binary64) : Bool :=
  first.rank == second.rank && (first.rank == 0 || first.negative == second.negative)

end Binary64
end MetadataClient
