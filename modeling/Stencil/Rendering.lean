import Stencil.Caches

namespace Stencil

namespace Token

def fill (text? : String → Option String) : Token → String
  | .literal text _ => text
  | .placeholder key fallback _ => (text? key).getD fallback

def fillInOrder : List Token → List String → List String
  | [], _ => []
  | .literal text _ :: ts, args => text :: fillInOrder ts args
  | .placeholder _ fallback _ :: ts, [] => fallback :: fillInOrder ts []
  | .placeholder _ _ _ :: ts, a :: args => a :: fillInOrder ts args

end Token

namespace Caches

/-- Fills the placeholders of a template from a context. A blank template is its own rendering, for
which no cache is asked. -/
def render (c : Caches) (context : Context) (template : String) : String × Caches :=
  if Text.allBlank template.toList then (template, c)
  else
    let (ts, c) := c.tokens template
    (String.join (ts.map (Token.fill context.display?)), c)

def renderInOrder (c : Caches) (template : String) (args : List Value) : String × Caches :=
  if Text.allBlank template.toList then (template, c)
  else
    let (ts, c) := c.tokens template
    (String.join (Token.fillInOrder ts (args.map Value.display)), c)

def renderOptional (c : Caches) (template : Option String) (args : Option (List Value)) :
    Option String × Caches :=
  match template with
  | some t =>
    let (s, c) := c.renderInOrder t (args.getD [])
    (some s, c)
  | none => (none, c)

end Caches

end Stencil
