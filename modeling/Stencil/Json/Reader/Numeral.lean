import Stencil.Json.Reader.Text
import Stencil.Word

namespace Stencil.Json

structure Numeral where
  negative : Bool
  whole : List Char
  fraction : Option (List Char)
  power : Option (Bool × List Char)

def readDigits : Read (List Char) := fun cs =>
  match cs.takeWhile Char.isDigit, cs.dropWhile Char.isDigit with
  | [], [] => .error .truncated
  | [], _ => .error .malformed
  | ds, rest => .ok (ds, rest)

def readWhole : Read (List Char) := fun cs => do
  let (ds, rest) ← readDigits cs
  if ds.head? = some '0' && ds.length > 1 then .error .malformed else return (ds, rest)

def readFraction : Read (Option (List Char))
  | '.' :: cs => do
    let (ds, rest) ← readDigits cs
    return (some ds, rest)
  | cs => .ok (none, cs)

def readPower : Read (Option (Bool × List Char))
  | c :: cs =>
    if c = 'e' ∨ c = 'E' then do
      let (negative, cs) := match cs with
        | '-' :: cs => (true, cs)
        | '+' :: cs => (false, cs)
        | cs => (false, cs)
      let (ds, rest) ← readDigits cs
      return (some (negative, ds), rest)
    else .ok (none, c :: cs)
  | [] => .ok (none, [])

def readNumeral : Read Numeral := fun cs => do
  let (negative, cs) := match cs with
    | '-' :: cs => (true, cs)
    | cs => (false, cs)
  let (whole, cs) ← readWhole cs
  let (fraction, cs) ← readFraction cs
  let (power, cs) ← readPower cs
  return (⟨negative, whole, fraction, power⟩, cs)

def digitsValue (ds : List Char) : Nat := Nat.ofDigitChars 10 ds 0

/-- Appends digits to a significand as long as it keeps to 64 bits, and counts the rest. -/
def absorb (significand : Nat) : List Char → Nat × Nat
  | [] => (significand, 0)
  | d :: ds =>
    let next := 10 * significand + (d.toNat - '0'.toNat)
    if next < Word.limit then absorb next ds else (significand, ds.length + 1)

namespace Numeral

def real? (n : Numeral) : Option Number :=
  let (significand, above) := absorb 0 n.whole
  let fraction := n.fraction.getD []
  let (significand, beyond) := absorb significand fraction
  let shift : Int := above - (fraction.length - beyond)
  let power : Int := match n.power with
    | none => 0
    | some (true, ds) => -digitsValue ds
    | some (false, ds) => digitsValue ds
  (Binary64.ofDecimal? significand (shift + power)).map (.real n.negative)

/-- Without fraction and exponent a number of 64 bits is whole, with or without a sign, minus zero
apart. There is no number beyond the binary64 ones. -/
def number? (n : Numeral) : Option Number :=
  match n.fraction, n.power with
  | none, none =>
    let m := digitsValue n.whole
    if n.negative then
      if 0 < m ∧ m ≤ Word.depth then some (.whole (-m)) else n.real?
    else if m < Word.limit then some (.whole m) else n.real?
  | _, _ => n.real?

end Numeral

def readNumber (care : Care) : Read Number := fun cs =>
  match care, readNumeral cs with
  | .strict, .ok (n, rest) =>
    match n.number? with
    | some x => .ok (x, rest)
    | none => .error .malformed
  | .loose, .ok (_, rest) => .ok (.whole 0, rest)
  | .strict, .error f => .error f
  | .loose, .error _ => .error .malformed

end Stencil.Json
