import Stencil.Context
import Stencil.Json.Reader

namespace Stencil.Context

open Json (Fault Read)

def wrap (c : Context) : Json := .object [("context", c.toJson)]

/-- Values inside of a context are nested two levels less deep. -/
def readField : Read Json := Json.readValue .strict (Json.maxDepth - 2)

def read : Read Context := fun cs =>
  match Json.skipGaps cs with
  | '{' :: rest => do
    let (members, rest) ← Json.readObject .strict (Json.pushMember readField) [] rest
    return (ofMembers members.reverse, rest)
  | cs => .error (Json.mismatch cs)

def readMember (read? : Option Context) (name : String) : Read (Option Context) := fun cs =>
  if name = "context" then
    match read? with
    | some _ => .error .mismatched
    | none => do
      let (c, rest) ← read (← Json.readColon cs)
      return (some c, rest)
  else do
    let rest ← Json.skipValue (← Json.readColon cs)
    return (read?, rest)

def readEnd (cs : List Char) : Except Fault (List Char) :=
  match Json.skipGaps cs with
  | ']' :: rest => .ok rest
  | [] => .error .truncated
  | _ => .error .malformed

def readWrapped : Read Context := fun cs =>
  match Json.skipGaps cs with
  | '{' :: rest => do
    let (c, rest) ← Json.readObject .strict readMember none rest
    return (c.getD .empty, rest)
  | '[' :: rest =>
    match Json.skipGaps rest with
    | ']' :: rest => .ok (.empty, rest)
    | rest => do
      let (c, rest) ← read rest
      return (c, ← readEnd rest)
  | cs => .error (Json.mismatch cs)

def ofText (text : String) : Except Fault Context := Json.readAll readWrapped text

end Stencil.Context
