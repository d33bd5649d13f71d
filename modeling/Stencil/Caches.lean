import Stencil.Arguments
import Stencil.Capacities
import Stencil.Lru
import Stencil.Marker
import Stencil.Template

namespace Stencil

structure Caches where
  templates : Lru String (List Token)
  trimmed : Lru String String
  untrimmed : Lru String String

namespace Caches

def empty (capacities : Capacities) : Caches :=
  ⟨.empty capacities.templates, .empty capacities.keys, .empty capacities.keys⟩

instance : Inhabited Caches := ⟨empty {}⟩

def keys (c : Caches) : Trimming → Lru String String
  | .trimmed => c.trimmed
  | .untrimmed => c.untrimmed

def setKeys (c : Caches) (mode : Trimming) (keys : Lru String String) : Caches :=
  match mode with
  | .trimmed => { c with trimmed := keys }
  | .untrimmed => { c with untrimmed := keys }

@[simp] theorem keys_setKeys (c : Caches) (mode : Trimming) (keys : Lru String String) :
    (c.setKeys mode keys).keys mode = keys := by
  cases mode <;> rfl

def tokens (c : Caches) (template : String) : List Token × Caches :=
  match c.templates.get? template with
  | (some ts, templates) => (ts, { c with templates })
  | (none, templates) =>
    let ts := Template.tokens template
    (ts, { c with templates := templates.put template ts })

def strip? (c : Caches) (mode : Trimming) (raw : String) : Option String × Caches :=
  match (c.keys mode).get? raw with
  | (some key, keys) => (some key, c.setKeys mode keys)
  | (none, keys) =>
    match Marker.strip? mode raw with
    | some key => (some key, c.setKeys mode (keys.put raw key))
    | none => (none, c.setKeys mode keys)

def bindMarked (mode : Trimming) (index : Nat) (context : Context) :
    List (String × Value) → Caches → Except ArgumentError Context × Caches
  | [], c => (.ok context, c)
  | (raw, v) :: es, c =>
    match c.strip? mode raw with
    | (some key, c) => bindMarked mode (index + 2) (context.insert key v) es c
    | (none, c) => (.error (.unmarkedKey index raw), c)

def bind (c : Caches) (style : KeyStyle) (kvs : List Value) :
    Except ArgumentError Context × Caches :=
  match style with
  | .plain => (Arguments.bindPlain kvs, c)
  | .marked mode =>
    match Arguments.check kvs with
    | .ok es => bindMarked mode 0 .empty es c
    | .error e => (.error e, c)

def summary (c : Caches) : String :=
  let templates := c.templates.summary
  let trimmed := c.trimmed.summary
  let untrimmed := c.untrimmed.summary
  "CacheService \x7b templates: " ++ templates ++ ", trimmed_keys: " ++ trimmed ++
    ", untrimmed_keys: " ++ untrimmed ++ " \x7d"

end Caches

end Stencil
