import Stencil.Text.Blank
import Stencil.Word

namespace Stencil

structure Capacities where
  templates : Nat := 1000
  keys : Nat := 2000
  deriving DecidableEq, Inhabited

namespace Capacities

/-- The number of 64 bits that a setting gives in decimal digits, between blanks and behind at most
one plus sign. -/
def number? (setting : String) : Option Nat :=
  let digits := match Text.trim setting.toList with
    | '+' :: ds => ds
    | ds => ds
  let n := Nat.ofDigitChars 10 digits 0
  if !digits.isEmpty && digits.all Char.isDigit && n < Word.limit then some n else none

def ofSettings (templates keys : Option String) : Capacities :=
  let default : Capacities := {}
  ⟨(templates.bind number?).getD default.templates, (keys.bind number?).getD default.keys⟩

end Capacities

end Stencil
