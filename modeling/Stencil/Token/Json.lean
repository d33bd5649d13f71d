import Stencil.Json.Reader
import Stencil.Token
import Stencil.Word

/-! Tokens as JSON. A token is written as an object that begins with its kind. It is read from such an
object, whose members may stand in any order among others, or from an array of the kind and the
values of the members in order. -/

namespace Stencil

open Json (Fault Read)

namespace Span

def toJson (s : Span) : Json := .object [("start", Json.nat s.start), ("end", Json.nat s.stop)]

def offset? : Json → Option Nat
  | .number (.whole n) => if 0 ≤ n ∧ n < Word.limit then some n.toNat else none
  | _ => none

end Span

namespace Token

inductive Kind
  | literal
  | placeholder
  deriving DecidableEq

def Kind.name : Kind → String
  | .literal => "literal"
  | .placeholder => "placeholder"

def Kind.ofName? (name : String) : Option Kind :=
  if name = "literal" then some .literal
  else if name = "placeholder" then some .placeholder
  else none

@[simp] theorem Kind.ofName?_name (k : Kind) : ofName? k.name = some k := by
  cases k <;> decide

def toJson : Token → Json
  | .literal text span =>
    .object [("kind", .string Kind.literal.name), ("text", .string text), ("span", span.toJson)]
  | .placeholder key fallback span =>
    .object [("kind", .string Kind.placeholder.name), ("key", .string key),
      ("fallback", .string fallback), ("span", span.toJson)]

def member? (name : String) (members : List (String × Json)) : Option Json :=
  match members.filter fun m => m.1 == name with
  | [m] => some m.2
  | _ => none

def string? : Json → Option String
  | .string s => some s
  | _ => none

end Token

def Span.ofJson? : Json → Option Span
  | .array [start, stop] => do return ⟨← offset? start, ← offset? stop⟩
  | .object members => do
    if members.all fun m => m.1 = "start" || m.1 = "end" then
      return ⟨← offset? (← Token.member? "start" members),
        ← offset? (← Token.member? "end" members)⟩
    else none
  | _ => none

namespace Token

def ofMembers? (members : List (String × Json)) : Kind → Option Token
  | .literal => do
    return .literal (← string? (← member? "text" members))
      (← Span.ofJson? (← member? "span" members))
  | .placeholder => do
    return .placeholder (← string? (← member? "key" members))
      (← string? (← member? "fallback" members)) (← Span.ofJson? (← member? "span" members))

def ofItems? : Kind → List Json → Option Token
  | .literal, [text, span] => do return .literal (← string? text) (← Span.ofJson? span)
  | .placeholder, [key, fallback, span] => do
    return .placeholder (← string? key) (← string? fallback) (← Span.ofJson? span)
  | _, _ => none

def ofJson? : Json → Option Token
  | .object members => do
    ofMembers? members (← Kind.ofName? (← string? (← member? "kind" members)))
  | .array (kind :: items) => do ofItems? (← Kind.ofName? (← string? kind)) items
  | _ => none

def listOfJson? : Json → Option (List Token)
  | .array items => items.mapM ofJson?
  | _ => none

def readKind : Read Kind := fun cs =>
  match Json.skipGaps cs with
  | '"' :: rest => do
    let (name, rest) ← Json.readString .strict rest
    match Kind.ofName? name with
    | some k => return (k, rest)
    | none => .error .mismatched
  | cs => .error (Json.mismatch cs)

def readField : Read Json := Json.readValue .strict (Json.maxDepth - 1)

def readMember (read : Option Kind × List (String × Json)) (name : String) :
    Read (Option Kind × List (String × Json)) := fun cs =>
  if name = "kind" then
    match read.1 with
    | some _ => .error .mismatched
    | none => do
      let (k, rest) ← readKind (← Json.readColon cs)
      return ((some k, read.2), rest)
  else do
    let (members, rest) ← Json.pushMember readField read.2 name cs
    return ((read.1, members), rest)

def readItems (cs : List Char) : Except Fault (List Json × List Char) :=
  match Json.skipGaps cs with
  | ',' :: rest => Json.readItems readField rest.length rest
  | ']' :: rest => .ok ([], rest)
  | [] => .error .truncated
  | _ => .error .malformed

def orMismatched (x : Option α) : Except Fault α :=
  match x with
  | some a => .ok a
  | none => .error .mismatched

def read : Read Token := fun cs =>
  match Json.skipGaps cs with
  | '{' :: rest => do
    let ((kind, members), rest) ← Json.readObject .strict readMember (none, []) rest
    let t ← orMismatched (kind.bind (ofMembers? members))
    return (t, rest)
  | '[' :: rest =>
    match Json.skipGaps rest with
    | ']' :: _ => .error .mismatched
    | rest => do
      let (kind, rest) ← readKind rest
      let (items, rest) ← readItems rest
      let t ← orMismatched (ofItems? kind items)
      return (t, rest)
  | cs => .error (Json.mismatch cs)

def ofText (text : String) : Except Fault Token := Json.readAll read text

end Token

end Stencil
