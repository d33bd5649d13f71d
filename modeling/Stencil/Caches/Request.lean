import Stencil.Rendering

namespace Stencil.Caches

inductive Request
  | tokens (template : String)
  | strip (mode : Trimming) (raw : String)
  | hasTemplates (templates : List String)
  | hasKeys (mode : Trimming) (raws : List String)
  | putTokens (template : String) (tokens : List Token)
  | putKey (mode : Trimming) (raw key : String)
  | bind (style : KeyStyle) (kvs : List Value)
  | renderInOrder (template : String) (args : List Value)
  | summary

inductive Reply
  | tokens (ts : List Token)
  | key (key : Option String)
  | flags (flags : List Bool)
  | done
  | context (context : Context)
  | refused (e : ArgumentError)
  | text (s : String)

def putTokens (c : Caches) (template : String) (tokens : List Token) : Caches :=
  { c with templates := c.templates.put template tokens }

def putKey (c : Caches) (mode : Trimming) (raw key : String) : Caches :=
  c.setKeys mode ((c.keys mode).put raw key)

def reply (c : Caches) : Request → Reply × Caches
  | .tokens template =>
    let (ts, c) := c.tokens template
    (.tokens ts, c)
  | .strip mode raw =>
    let (key, c) := c.strip? mode raw
    (.key key, c)
  | .hasTemplates templates => (.flags (templates.map c.templates.contains), c)
  | .hasKeys mode raws => (.flags (raws.map (c.keys mode).contains), c)
  | .putTokens template tokens => (.done, c.putTokens template tokens)
  | .putKey mode raw key => (.done, c.putKey mode raw key)
  | .bind style kvs =>
    match c.bind style kvs with
    | (.ok context, c) => (.context context, c)
    | (.error e, c) => (.refused e, c)
  | .renderInOrder template args =>
    let (s, c) := c.renderInOrder template args
    (.text s, c)
  | .summary => (.text c.summary, c)

end Stencil.Caches
