/-! The finite numbers of IEEE 754 binary64 without their sign, and their arithmetic: every result is
the nearest number, of two equally near ones that with the even significand. -/

namespace Stencil

structure Binary64 where
  significand : Nat
  exponent : Int
  deriving DecidableEq, Inhabited

namespace Binary64

def minExponent : Int := -1074

def maxExponent : Int := 971

def leastNormal : Nat := Nat.pow 2 52

def zero : Binary64 := ⟨0, minExponent⟩

def ratio (x : Binary64) : Nat × Nat :=
  (x.significand * Nat.pow 2 x.exponent.toNat, Nat.pow 2 (-x.exponent).toNat)

def roundDiv (num den : Nat) : Nat :=
  let q := num / den
  let twice := 2 * (num % den)
  if twice < den then q else if twice > den then q + 1 else q + q % 2

def inUnits (num den : Nat) (e : Int) : Nat × Nat :=
  (num * Nat.pow 2 (-e).toNat, den * Nat.pow 2 e.toNat)

def unitExponent (num den : Nat) : Int :=
  let e := max minExponent ((num.log2 : Int) - den.log2 - 53)
  let (n, d) := inUnits num den e
  if n / d < 2 * leastNormal then e else e + 1

def nearest? (num den : Nat) : Option Binary64 :=
  if num = 0 then some zero
  else
    let e := unitExponent num den
    let (n, d) := inUnits num den e
    let m := roundDiv n d
    let x : Binary64 := if m < 2 * leastNormal then ⟨m, e⟩ else ⟨leastNormal, e + 1⟩
    if x.exponent ≤ maxExponent then some x else none

def mul? (x y : Binary64) : Option Binary64 :=
  let (a, b) := x.ratio
  let (c, d) := y.ratio
  nearest? (a * c) (b * d)

def div? (x y : Binary64) : Option Binary64 :=
  let (a, b) := x.ratio
  let (c, d) := y.ratio
  nearest? (a * d) (b * c)

def maxPower : Nat := 308

def divPower? (x : Binary64) (n : Nat) : Option Binary64 := do
  if x.significand = 0 then return x
  else if n ≤ maxPower then x.div? (← nearest? (Nat.pow 10 n) 1)
  else (← x.div? (← nearest? (Nat.pow 10 maxPower) 1)).divPower? (n - maxPower)
termination_by n
decreasing_by simp only [maxPower] at *; omega

/-- The number read from `digits * 10 ^ exponent`: both factors are rounded, and so is their product
or quotient. -/
def ofDecimal? (digits : Nat) (exponent : Int) : Option Binary64 := do
  let x ← nearest? digits 1
  if exponent < 0 then x.divPower? (-exponent).toNat
  else if digits = 0 then return x
  else if exponent.toNat ≤ maxPower then x.mul? (← nearest? (Nat.pow 10 exponent.toNat) 1)
  else none

end Binary64

end Stencil
