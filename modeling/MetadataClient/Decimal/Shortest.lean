import MetadataClient.Decimal.Binary64

/-! The shortest decimal of a binary64 number: of the multiples of powers of ten that
round to it, those of the highest power, of these the nearest, and of two equally
near the even one. -/
namespace MetadataClient.Decimal

/-- Stands for `digits * 10 ^ power`. -/
structure Scaled where
  digits : Nat
  power : Int

def candidate? (rank : Nat) (power : Int) : Option Nat :=
  let significand := Binary64.significand rank
  let exponent := Binary64.exponent rank
  let step := Nat.pow 2 exponent.toNat * Nat.pow 10 (-power).toNat
  let grid := Nat.pow 2 (-exponent).toNat * Nat.pow 10 power.toNat
  let value := significand * step
  let lower := value / grid
  let below := value - lower * grid
  let above := (lower + 1) * grid - value
  -- Below a power of two the numbers lie twice as close.
  let stepBelow := if significand = Binary64.block ∧ exponent > -1074 then 4 else 2
  let within (distance limit : Nat) : Bool :=
    distance < limit || significand % 2 = 0 && distance = limit
  let lowerFits := lower > 0 && within (stepBelow * below) step
  let upperFits := within (2 * above) step
  if lowerFits && (!upperFits || below < above || below = above && lower % 2 = 0) then some lower
  else if upperFits then some (lower + 1)
  else none

def searchFrom (rank : Nat) (power : Int) : Nat → Scaled
  | 0 => ⟨0, 0⟩
  | tries + 1 =>
    match candidate? rank power with
    | some digits => ⟨digits, power⟩
    | none => searchFrom rank (power - 1) tries

/-- No finite number reaches `1e309`, and from `1e-325` down the multiples lie closer
than the numbers do, so one of the powers tried fits every rank but zero. -/
def shortest (rank : Nat) : Scaled :=
  searchFrom rank 309 640

end MetadataClient.Decimal
