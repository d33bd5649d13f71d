import Stencil.Decimal.Binary64

namespace Stencil

structure Decimal where
  digits : Nat
  exponent : Int
  deriving DecidableEq, Inhabited

namespace Decimal

def length (n : Nat) : Nat := (Nat.toDigits 10 n).length

def leadingPlace (num den : Nat) : Int :=
  if den ≤ num then length (num / den) - 1 else -(length ((den - 1) / num))

end Decimal

namespace Binary64

/-- The reals that round to a number, in quarters of the unit of its last place. The gap below a
power of two is half as wide, and the ends belong to a number with an even significand. -/
structure Basin where
  low : Nat
  high : Nat
  closed : Bool

def basin (x : Binary64) : Basin :=
  let below := if x.significand = leastNormal ∧ minExponent < x.exponent then 1 else 2
  ⟨4 * x.significand - below, 4 * x.significand + 2, x.significand % 2 == 0⟩

def Basin.holds (b : Basin) (n d : Nat) : Bool :=
  if b.closed then b.low * d ≤ n && n ≤ b.high * d else b.low * d < n && n < b.high * d

def onGrid? (x : Binary64) (place : Int) : Option Decimal :=
  let (num, den) := x.ratio
  let n := num * Nat.pow 10 (-place).toNat
  let d := den * Nat.pow 10 place.toNat
  let below := n / d
  let holds k := x.basin.holds (4 * x.significand * k * d) n
  match holds below, holds (below + 1) with
  | true, true => some ⟨roundDiv n d, place⟩
  | true, false => some ⟨below, place⟩
  | false, true => some ⟨below + 1, place⟩
  | false, false => none

def maxDigits : Nat := 17

def shortest (x : Binary64) : Decimal :=
  if x.significand = 0 then ⟨0, 0⟩
  else
    let (num, den) := x.ratio
    let lead := Decimal.leadingPlace num den
    ((List.range maxDigits).findSome? fun (i : Nat) => x.onGrid? (lead - (i : Int))).getD ⟨x.significand, 0⟩

end Binary64

end Stencil
