import Stencil.Context
import Stencil.Text.Quoted

namespace Stencil

inductive ArgumentError
  | oddLength (length : Nat)
  | nullKey (index : Nat)
  | keyType (index : Nat) (found : Json.Kind)
  | unmarkedKey (index : Nat) (raw : String)
  deriving DecidableEq

def ArgumentError.message : ArgumentError → String
  | .oddLength length =>
    s!"Malformed arguments: expected alternating key/value pairs, got {length} values"
  | .nullKey index => s!"Null key at argument index {index}"
  | .keyType index found =>
    s!"Invalid key type at argument index {index}: expected string, found {found.name}"
  | .unmarkedKey index raw =>
    let key := Text.Quoted.quote raw
    s!"Unexpected suffix at argument index {index}: key {key} must end with ` ->`, ` >>>` or ` >>`"

namespace Arguments

def pairs? : List α → Option (List (α × α))
  | [] => some []
  | [_] => none
  | a :: b :: rest => (pairs? rest).map ((a, b) :: ·)

def nullKey? (index : Nat) : List (Value × Value) → Option Nat
  | [] => none
  | (k, _) :: ps => if k.kind = .null then some index else nullKey? (index + 2) ps

def named (index : Nat) : List (Value × Value) → Except ArgumentError (List (String × Value))
  | [] => .ok []
  | (k, v) :: ps =>
    match k.string? with
    | some name => (named (index + 2) ps).map ((name, v) :: ·)
    | none => .error (.keyType index k.kind)

/-- The keys and values of a list. Every key is looked at for null before any is looked at for its
type. -/
def check (kvs : List Value) : Except ArgumentError (List (String × Value)) :=
  match pairs? kvs with
  | none => .error (.oddLength kvs.length)
  | some ps =>
    match nullKey? 0 ps with
    | some index => .error (.nullKey index)
    | none => named 0 ps

def bindPlain (kvs : List Value) : Except ArgumentError Context := (check kvs).map Dict.ofList

end Arguments

end Stencil
