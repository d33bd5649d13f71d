import Stencil.Decimal.Shortest

namespace Stencil.Decimal

structure Layout where
  least : Int
  greatest : Int

def digitText (n : Nat) : List Char := Nat.toDigits 10 n

def signedText (e : Int) : List Char := (if e < 0 then '-' else '+') :: digitText e.natAbs

def dropTrailingZeros (ds : List Char) : List Char := (ds.reverse.dropWhile (· = '0')).reverse

def positional (ds : List Char) (place : Int) : List Char :=
  if place < 0 then ['0', '.'] ++ List.replicate ((-place).toNat - 1) '0' ++ ds
  else
    let whole := place.toNat + 1
    if ds.length ≤ whole then ds ++ List.replicate (whole - ds.length) '0' ++ ['.', '0']
    else ds.take whole ++ ['.'] ++ ds.drop whole

def scientific (ds : List Char) (place : Int) : List Char :=
  let fraction := if ds.length ≤ 1 then [] else '.' :: ds.drop 1
  ds.take 1 ++ fraction ++ ['e'] ++ signedText place

def text (layout : Layout) (x : Decimal) : List Char :=
  if x.digits = 0 then ['0', '.', '0']
  else
    let place := x.exponent + length x.digits - 1
    let ds := dropTrailingZeros (digitText x.digits)
    if layout.least ≤ place ∧ place ≤ layout.greatest then positional ds place
    else scientific ds place

end Stencil.Decimal
