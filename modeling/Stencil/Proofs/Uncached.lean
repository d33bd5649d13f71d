import Stencil.Session

/-! The library without caches: templates are taken apart and keys are stripped each time they are
needed, and a service is no more than a name. -/

namespace Stencil

namespace Uncached

def bindMarked (mode : Trimming) (index : Nat) (context : Context) :
    List (String × Value) → Except ArgumentError Context
  | [] => .ok context
  | (raw, v) :: es =>
    match Marker.strip? mode raw with
    | some key => bindMarked mode (index + 2) (context.insert key v) es
    | none => .error (.unmarkedKey index raw)

def bind (style : KeyStyle) (kvs : List Value) : Except ArgumentError Context :=
  match style with
  | .plain => Arguments.bindPlain kvs
  | .marked mode =>
    match Arguments.check kvs with
    | .ok es => bindMarked mode 0 .empty es
    | .error e => .error e

def render (context : Context) (template : String) : String :=
  if Text.allBlank template.toList then template
  else String.join ((Template.tokens template).map (Token.fill context.display?))

def renderInOrder (template : String) (args : List Value) : String :=
  if Text.allBlank template.toList then template
  else String.join (Token.fillInOrder (Template.tokens template) (args.map Value.display))

def reply : Caches.Request → Caches.Reply
  | .tokens template => .tokens (Template.tokens template)
  | .strip mode raw => .key (Marker.strip? mode raw)
  | .hasTemplates templates => .flags (templates.map fun _ => false)
  | .hasKeys _ raws => .flags (raws.map fun _ => false)
  | .putTokens _ _ => .done
  | .putKey _ _ _ => .done
  | .bind style kvs =>
    match bind style kvs with
    | .ok context => .context context
    | .error e => .refused e
  | .renderInOrder template args => .text (renderInOrder template args)
  | .summary => .text ""

def origin : Renderer.Origin → Except Renderer.Refusal Context
  | .empty => .ok .empty
  | .given context => .ok context
  | .arguments style kvs => (bind style kvs).mapError .arguments
  | .tuples ts => (Tuple.bindAll .empty ts).mapError .arguments
  | .json text => (Context.ofText text).mapError .json

def edit (context : Context) : Renderer.Edit → Except ArgumentError Context
  | .merge style kvs => (bind style kvs).map context.union
  | .replace kvs => bind .plain kvs
  | .erase keys => .ok (context.eraseAll keys)

def query (context : Context) : Renderer.Query → Renderer.Reply
  | .context => .context context
  | .get key => .value (context.get? key)
  | .render template => .text (some (render context template))
  | .renderOptional template => .text (template.map (render context))
  | .json => .text (some context.wrap.compact)

end Uncached

structure Uncached where
  services : List String
  renderers : Dict Context

namespace Uncached

open Session (Answer)

def start (names : List String) : Uncached := ⟨names, .empty⟩

def withService (s : Uncached) (name : String) (answer : Answer × Uncached) : Answer × Uncached :=
  if name ∈ s.services then answer else (.unknown name, s)

def withRenderer (s : Uncached) (name : String) (go : Context → Answer × Uncached) :
    Answer × Uncached :=
  match s.renderers.get? name with
  | some context => go context
  | none => (.unknown name, s)

def setRenderer (s : Uncached) (name : String) (context : Context) : Uncached :=
  { s with renderers := s.renderers.insert name context }

def bindRenderer (s : Uncached) (name : String) (o : Renderer.Origin) : Answer × Uncached :=
  match origin o with
  | .ok c => (Session.context c, s.setRenderer name c)
  | .error r => (.unbound r, s)

def editRenderer (s : Uncached) (name : String) (context : Context) (e : Renderer.Edit) :
    Answer × Uncached :=
  match edit context e with
  | .ok c => (Session.context c, s.setRenderer name c)
  | .error e => (.unedited e context, s)

def step (s : Uncached) : Session.Step → Answer × Uncached
  | .create service capacities =>
    (.capacities (max capacities.templates 1) (max capacities.keys 1) (max capacities.keys 1),
      { s with services := service :: s.services })
  | .ask service request => s.withService service (.service (reply request), s)
  | .bind renderer none o => s.bindRenderer renderer o
  | .bind renderer (some service) o => s.withService service (s.bindRenderer renderer o)
  | .assign renderer service =>
    s.withService service (s.withRenderer renderer fun c => (Session.context c, s))
  | .copy renderer target =>
    s.withRenderer renderer fun c => (Session.context c, s.setRenderer target c)
  | .edit renderer e => s.withRenderer renderer fun c => s.editRenderer renderer c e
  | .query renderer q => s.withRenderer renderer fun c => (.renderer (query c q), s)

end Uncached

end Stencil
