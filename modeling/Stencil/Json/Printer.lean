import Stencil.Decimal.Layout
import Stencil.Json.Basic

namespace Stencil.Json

def layout : Decimal.Layout := ⟨-5, 15⟩

def intText (n : Int) : List Char :=
  if n < 0 then '-' :: Decimal.digitText n.natAbs else Decimal.digitText n.natAbs

def Number.text : Number → List Char
  | .whole n => intText n
  | .real negative x =>
    let digits := x.shortest.text layout
    if negative then '-' :: digits else digits

def escaped (c : Char) : List Char :=
  if c = '"' then ['\\', '"']
  else if c = '\\' then ['\\', '\\']
  else if c = '\x08' then ['\\', 'b']
  else if c = '\x0c' then ['\\', 'f']
  else if c = '\n' then ['\\', 'n']
  else if c = '\r' then ['\\', 'r']
  else if c = '\t' then ['\\', 't']
  else if c.toNat < 0x20 then
    ['\\', 'u', '0', '0', Nat.digitChar (c.toNat / 16), Nat.digitChar (c.toNat % 16)]
  else [c]

def stringText (s : String) : List Char := '"' :: s.toList.flatMap escaped ++ ['"']

mutual

def compactChars : Json → List Char
  | .null => ['n', 'u', 'l', 'l']
  | .bool true => ['t', 'r', 'u', 'e']
  | .bool false => ['f', 'a', 'l', 's', 'e']
  | .number n => n.text
  | .string s => stringText s
  | .array items => '[' :: compactItems items ++ [']']
  | .object members => '{' :: compactMembers members ++ ['}']

def compactItems : List Json → List Char
  | [] => []
  | [j] => compactChars j
  | j :: js => compactChars j ++ ',' :: compactItems js

def compactMembers : List (String × Json) → List Char
  | [] => []
  | [(k, j)] => stringText k ++ ':' :: compactChars j
  | (k, j) :: ms => stringText k ++ ':' :: compactChars j ++ ',' :: compactMembers ms

end

def compact (j : Json) : String := String.ofList j.compactChars

def newline (level : Nat) : List Char := '\n' :: List.replicate (2 * level) ' '

mutual

def prettyChars (level : Nat) : Json → List Char
  | .array (j :: js) => '[' :: prettyItems (level + 1) (j :: js) ++ newline level ++ [']']
  | .object (m :: ms) => '{' :: prettyMembers (level + 1) (m :: ms) ++ newline level ++ ['}']
  | j => compactChars j

def prettyItems (level : Nat) : List Json → List Char
  | [] => []
  | [j] => newline level ++ prettyChars level j
  | j :: js => newline level ++ prettyChars level j ++ ',' :: prettyItems level js

def prettyMembers (level : Nat) : List (String × Json) → List Char
  | [] => []
  | [(k, j)] => newline level ++ stringText k ++ ':' :: ' ' :: prettyChars level j
  | (k, j) :: ms =>
    newline level ++ stringText k ++ ':' :: ' ' :: prettyChars level j ++
      ',' :: prettyMembers level ms

end

def pretty (j : Json) : String := String.ofList (j.prettyChars 0)

end Stencil.Json
