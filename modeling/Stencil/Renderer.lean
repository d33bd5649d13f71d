import Stencil.Context.Json
import Stencil.Rendering
import Stencil.Tuple

namespace Stencil

/-- A context, and the place of the caches in a row of services. -/
structure Renderer where
  context : Context
  service : Nat

namespace Renderer

inductive Origin
  | empty
  | given (context : Context)
  | arguments (style : KeyStyle) (kvs : List Value)
  | tuples (ts : List Tuple)
  | json (text : String)

inductive Refusal
  | arguments (e : ArgumentError)
  | json (f : Json.Fault)

def Origin.bind (c : Caches) : Origin → Except Refusal Context × Caches
  | .empty => (.ok .empty, c)
  | .given context => (.ok context, c)
  | .arguments style kvs =>
    let (bindings, c) := c.bind style kvs
    (bindings.mapError .arguments, c)
  | .tuples ts => ((Tuple.bindAll .empty ts).mapError .arguments, c)
  | .json text => ((Context.ofText text).mapError .json, c)

inductive Edit
  | merge (style : KeyStyle) (kvs : List Value)
  | replace (kvs : List Value)
  | erase (keys : List String)

namespace Edit

def add (kvs : List Value) : Edit := .merge .plain kvs

def fill (kvs : List Value) : Edit := .merge (.marked .trimmed) kvs

def apply (c : Caches) (context : Context) : Edit → Except ArgumentError Context × Caches
  | .merge style kvs =>
    let (bindings, c) := c.bind style kvs
    (bindings.map context.union, c)
  | .replace kvs => c.bind .plain kvs
  | .erase keys => (.ok (context.eraseAll keys), c)

end Edit

inductive Query
  | context
  | get (key : String)
  | render (template : String)
  | renderOptional (template : Option String)
  | json

inductive Reply
  | context (context : Context)
  | value (v : Option Value)
  | text (s : Option String)

def Query.reply (c : Caches) (context : Context) : Query → Reply × Caches
  | .context => (.context context, c)
  | .get key => (.value (context.get? key), c)
  | .render template =>
    let (s, c) := c.render context template
    (.text (some s), c)
  | .renderOptional (some template) =>
    let (s, c) := c.render context template
    (.text (some s), c)
  | .renderOptional none => (.text none, c)
  | .json => (.text (some context.wrap.compact), c)

end Renderer

end Stencil
