import Stencil.Caches.Request
import Stencil.Renderer

/-! A session holds rendering services and renderers by name. Services stand in a row, so that a
renderer keeps its service when the name goes to another one; the first in the row is shared by all
renderers that were given none. -/

namespace Stencil

structure Session where
  services : List Caches
  named : Dict Nat
  renderers : Dict Renderer

namespace Session

def shared : Nat := 0

def start (capacities : Capacities) (names : List String) : Session :=
  ⟨[.empty capacities], .ofList (names.map fun name => (name, shared)), .empty⟩

def empty : Session := start {} []

inductive Step
  | create (service : String) (capacities : Capacities)
  | ask (service : String) (request : Caches.Request)
  | bind (renderer : String) (service : Option String) (origin : Renderer.Origin)
  | assign (renderer service : String)
  | copy (renderer target : String)
  | edit (renderer : String) (edit : Renderer.Edit)
  | query (renderer : String) (query : Renderer.Query)

inductive Answer
  | capacities (templates trimmed untrimmed : Nat)
  | service (reply : Caches.Reply)
  | renderer (reply : Renderer.Reply)
  | unknown (name : String)
  | unbound (r : Renderer.Refusal)
  | unedited (e : ArgumentError) (context : Context)

def serviceAt (s : Session) (i : Nat) : Caches := s.services.getD i default

def setService (s : Session) (i : Nat) (c : Caches) : Session :=
  { s with services := s.services.set i c }

def setRenderer (s : Session) (name : String) (r : Renderer) : Session :=
  { s with renderers := s.renderers.insert name r }

def context (c : Context) : Answer := .renderer (.context c)

def create (s : Session) (name : String) (capacities : Capacities) : Answer × Session :=
  let c : Caches := .empty capacities
  (.capacities c.templates.capacity c.trimmed.capacity c.untrimmed.capacity,
    { s with
      services := s.services ++ [c]
      named := s.named.insert name s.services.length })

def ask (s : Session) (i : Nat) (request : Caches.Request) : Answer × Session :=
  let (reply, c) := (s.serviceAt i).reply request
  (.service reply, s.setService i c)

def bind (s : Session) (name : String) (i : Nat) (origin : Renderer.Origin) : Answer × Session :=
  match origin.bind (s.serviceAt i) with
  | (.ok c, caches) => (context c, (s.setService i caches).setRenderer name ⟨c, i⟩)
  | (.error r, caches) => (.unbound r, s.setService i caches)

def edit (s : Session) (name : String) (r : Renderer) (e : Renderer.Edit) : Answer × Session :=
  match e.apply (s.serviceAt r.service) r.context with
  | (.ok c, caches) =>
    (context c, (s.setService r.service caches).setRenderer name { r with context := c })
  | (.error e, caches) => (.unedited e r.context, s.setService r.service caches)

def query (s : Session) (r : Renderer) (q : Renderer.Query) : Answer × Session :=
  let (reply, c) := q.reply (s.serviceAt r.service) r.context
  (.renderer reply, s.setService r.service c)

def withName (s : Session) (d : Dict α) (name : String) (go : α → Answer × Session) :
    Answer × Session :=
  match d.get? name with
  | some a => go a
  | none => (.unknown name, s)

def step (s : Session) : Step → Answer × Session
  | .create service capacities => s.create service capacities
  | .ask service request => s.withName s.named service fun i => s.ask i request
  | .bind renderer none origin => s.bind renderer shared origin
  | .bind renderer (some service) origin =>
    s.withName s.named service fun i => s.bind renderer i origin
  | .assign renderer service =>
    s.withName s.named service fun i =>
      s.withName s.renderers renderer fun r =>
        (context r.context, s.setRenderer renderer { r with service := i })
  | .copy renderer target =>
    s.withName s.renderers renderer fun r => (context r.context, s.setRenderer target r)
  | .edit renderer e => s.withName s.renderers renderer fun r => s.edit renderer r e
  | .query renderer q => s.withName s.renderers renderer fun r => s.query r q

def statistics (s : Session) : List (String × List (Nat × Nat × Nat)) :=
  s.named.entries.map fun (name, i) =>
    let c := s.serviceAt i
    (name, [(c.templates.size, c.templates.hits, c.templates.misses),
      (c.trimmed.size, c.trimmed.hits, c.trimmed.misses),
      (c.untrimmed.size, c.untrimmed.hits, c.untrimmed.misses)])

end Session

end Stencil
