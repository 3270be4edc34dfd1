import Resumable.Value.Binary64

namespace Resumable

structure Decimal where
  digits : Nat
  exponent : Int
  deriving DecidableEq, Repr

/-- A positive number and the interval of reals that are rounded to it, as numerators over one
denominator. The ends belong to the interval iff `closed`. -/
structure RoundingInterval where
  low : Nat
  value : Nat
  high : Nat
  denominator : Nat
  closed : Bool

namespace RoundingInterval

/-- The interval of a positive finite number: it reaches half way to both neighbours, and its ends
belong to it iff the significand is even. -/
def ofBinary64 (x : Binary64) : RoundingInterval :=
  let quarters := 4 * x.significand
  let below := if x.atBinade then 1 else 2
  let unit := Nat.pow 2 (x.scale - 2).toNat
  { low := (quarters - below) * unit
    value := quarters * unit
    high := (quarters + 2) * unit
    denominator := Nat.pow 2 (2 - x.scale).toNat
    closed := x.significand % 2 = 0 }

def inUnits (i : RoundingInterval) (exponent : Int) : RoundingInterval :=
  let finer := Nat.pow 10 (-exponent).toNat
  { i with
    low := i.low * finer
    value := i.value * finer
    high := i.high * finer
    denominator := i.denominator * Nat.pow 10 exponent.toNat }

def contains (i : RoundingInterval) (n : Nat) : Bool :=
  let point := n * i.denominator
  if i.closed then i.low ≤ point && point ≤ i.high else i.low < point && point < i.high

def nearestWhole? (i : RoundingInterval) : Option Nat :=
  let floor := i.value / i.denominator
  let excess := i.value % i.denominator
  match i.contains floor, i.contains (floor + 1) with
  | true, true => if 2 * excess < i.denominator then some floor else some (floor + 1)
  | true, false => some floor
  | false, true => some (floor + 1)
  | false, false => none

def coarsest (i : RoundingInterval) : Int :=
  (Nat.log2 (i.high / i.denominator + 1) / 3 + 1 : Nat)

/-- Searches the decimal grids from the coarsest to finer ones, `grids` of them at most. -/
def search (i : RoundingInterval) : Nat → Int → Option Decimal
  | 0, _ => none
  | grids + 1, exponent =>
    match (i.inUnits exponent).nearestWhole? with
    | some digits => some ⟨digits, exponent⟩
    | none => search i grids (exponent - 1)

/-- The shortest decimal in the interval, and of those the nearest. No binary64 number needs a
grid finer than `10 ^ -343` or has one coarser than `10 ^ 342`. -/
def shortest (i : RoundingInterval) : Decimal :=
  (i.search 700 i.coarsest).getD ⟨0, 0⟩

end RoundingInterval

namespace Decimal

def positional (d : Decimal) : String :=
  let places := (-d.exponent).toNat
  if places = 0 then
    toString (d.digits * Nat.pow 10 d.exponent.toNat)
  else
    let fraction := toString (d.digits % Nat.pow 10 places)
    let padding := String.ofList (List.replicate (places - fraction.length) '0')
    toString (d.digits / Nat.pow 10 places) ++ "." ++ padding ++ fraction

end Decimal

namespace Binary64

/-- The fewest digits that read back as the number, in positional notation; of the special values
only the infinities and zeros have a sign. -/
def text (x : Binary64) : String :=
  let sign := if x.negative then "-" else ""
  if x.isNaN then "NaN"
  else if x.isInfinite then sign ++ "inf"
  else if x.isZero then sign ++ "0"
  else sign ++ (RoundingInterval.ofBinary64 x).shortest.positional

example : (Binary64.mk 0x3FB999999999999A).text = "0.1" := by decide +kernel

example : (Binary64.mk 0x8000000000000000).text = "-0" := by decide +kernel

example : (Binary64.mk 0x3E60000000000000).text = "0.000000029802322387695313" := by
  decide +kernel

end Binary64

end Resumable
