import Stencil.Arguments

namespace Stencil

structure IndexError where
  index : Nat
  arity : Nat
  deriving DecidableEq

def IndexError.message (e : IndexError) : String :=
  s!"Index {e.index} out of range for tuple of arity {e.arity}"

structure Tuple where
  values : List Value

namespace Tuple

def pair (key : String) (value : Value) : Tuple := ⟨[.string key, value]⟩

def arity (t : Tuple) : Nat := t.values.length

def get (t : Tuple) (index : Nat) : Except IndexError Value :=
  match t.values[index]? with
  | some v => .ok v
  | none => .error ⟨index, t.arity⟩

def bindings (t : Tuple) : Except ArgumentError Context := Arguments.bindPlain t.values

def toJson (t : Tuple) : Json := .array (t.values.map Value.json)

def bindAll (context : Context) : List Tuple → Except ArgumentError Context
  | [] => .ok context
  | t :: ts =>
    match t.bindings with
    | .ok bindings => bindAll (context.union bindings) ts
    | .error e => .error e

end Tuple

end Stencil
