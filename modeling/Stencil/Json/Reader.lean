import Stencil.Json.Reader.Numeral

namespace Stencil.Json

def isGap (c : Char) : Bool := c = ' ' || c = '\n' || c = '\t' || c = '\r'

def skipGaps (cs : List Char) : List Char := cs.dropWhile isGap

def readWord : List Char → List Char → Except Fault (List Char)
  | [], cs => .ok cs
  | _ :: _, [] => .error .truncated
  | w :: ws, c :: cs => if w = c then readWord ws cs else .error .malformed

def readScalar (care : Care) : Read Json
  | [] => .error .truncated
  | c :: cs =>
    if c = 'n' then do return (.null, ← readWord ['u', 'l', 'l'] cs)
    else if c = 't' then do return (.bool true, ← readWord ['r', 'u', 'e'] cs)
    else if c = 'f' then do return (.bool false, ← readWord ['a', 'l', 's', 'e'] cs)
    else if c = '"' then do
      let (s, rest) ← readString care cs
      return (.string s, rest)
    else if c = '-' || c.isDigit then do
      let (n, rest) ← readNumber care (c :: cs)
      return (.number n, rest)
    else .error .malformed

def readItems (item : Read α) : Nat → Read (List α)
  | 0, _ => .error .truncated
  | n + 1, cs => do
    let (x, rest) ← item cs
    match skipGaps rest with
    | ',' :: rest =>
      let (xs, rest) ← readItems item n rest
      return (x :: xs, rest)
    | ']' :: rest => return ([x], rest)
    | [] => .error .truncated
    | _ => .error .malformed

def readArray (item : Read α) : Read (List α) := fun cs =>
  match skipGaps cs with
  | ']' :: rest => .ok ([], rest)
  | cs => readItems item cs.length cs

def readName (care : Care) : Read String := fun cs =>
  match skipGaps cs with
  | '"' :: rest => readString care rest
  | [] => .error .truncated
  | _ => .error .malformed

def readColon (cs : List Char) : Except Fault (List Char) :=
  match skipGaps cs with
  | ':' :: rest => .ok rest
  | [] => .error .truncated
  | _ => .error .malformed

/-- Reads members up to the closing brace. What follows a name is left to `member`, together with
what was made of the members before. -/
def readMembers (care : Care) (member : σ → String → Read σ) : Nat → σ → Read σ
  | 0, _, _ => .error .truncated
  | n + 1, s, cs => do
    let (name, rest) ← readName care cs
    let (s, rest) ← member s name rest
    match skipGaps rest with
    | ',' :: rest => readMembers care member n s rest
    | '}' :: rest => return (s, rest)
    | [] => .error .truncated
    | _ => .error .malformed

def readObject (care : Care) (member : σ → String → Read σ) (s : σ) : Read σ := fun cs =>
  match skipGaps cs with
  | '}' :: rest => .ok (s, rest)
  | cs => readMembers care member cs.length s cs

def pushMember (value : Read Json) (members : List (String × Json)) (name : String) :
    Read (List (String × Json)) := fun cs => do
  let (j, rest) ← value (← readColon cs)
  return ((name, j) :: members, rest)

def readValue (care : Care) : (depth : Nat) → Read Json
  | 0, cs =>
    match skipGaps cs with
    | '[' :: _ | '{' :: _ => .error .malformed
    | cs => readScalar care cs
  | depth + 1, cs =>
    match skipGaps cs with
    | '[' :: rest => do
      let (items, rest) ← readArray (readValue care depth) rest
      return (.array items, rest)
    | '{' :: rest => do
      let (members, rest) ← readObject care (pushMember (readValue care depth)) [] rest
      return (.object members.reverse, rest)
    | cs => readScalar care cs

def maxDepth : Nat := 127

def skipValue (cs : List Char) : Except Fault (List Char) := do
  let (_, rest) ← readValue .loose cs.length cs
  return rest

def mismatch (cs : List Char) : Fault :=
  match skipGaps cs with
  | '[' :: _ | '{' :: _ => .mismatched
  | cs =>
    match readScalar .strict cs with
    | .ok _ => .mismatched
    | .error f => f

def readAll (read : Read α) (text : String) : Except Fault α := do
  let (a, rest) ← read text.toList
  match skipGaps rest with
  | [] => return a
  | _ => .error .malformed

def ofText (depth : Nat) (text : String) : Except Fault Json :=
  readAll (readValue .strict depth) text

end Stencil.Json
