import Stencil.Proofs.Caches.Fetch
import Stencil.Proofs.Uncached

/-! Caches that hold nothing but what their owner would work out again. They are coherent at the
start, every operation without a direct put keeps them so, and from coherent caches it gives the same
result as without caches. -/

namespace Stencil

namespace Caches

structure Coherent (c : Caches) : Prop where
  templates : c.templates.All fun template ts => ts = Template.tokens template
  keys : ∀ mode, (c.keys mode).All fun raw key => Marker.strip? mode raw = some key

/-- A result as it is without caches, beside caches that are coherent. -/
structure Yields {α : Type} (x : α × Caches) (a : α) : Prop where
  result : x.1 = a
  coherent : x.2.Coherent

theorem coherent_empty (capacities : Capacities) : (empty capacities).Coherent := by
  refine ⟨Lru.all_empty _ _, ?_⟩
  intro mode
  cases mode <;> exact Lru.all_empty _ _

namespace Coherent

variable {c : Caches}

theorem setTemplates (h : c.Coherent) {templates : Lru String (List Token)}
    (ht : templates.All fun template ts => ts = Template.tokens template) :
    Coherent { c with templates } := by
  refine ⟨ht, ?_⟩
  intro mode
  rw [keys_templates]
  exact h.keys mode

theorem setKeys (h : c.Coherent) {mode : Trimming} {keys : Lru String String}
    (hk : keys.All fun raw key => Marker.strip? mode raw = some key) :
    (c.setKeys mode keys).Coherent := by
  constructor
  · rw [templates_setKeys]
    exact h.templates
  · exact forall_keys_setKeys (Q := fun mode keys =>
      keys.All fun raw key => Marker.strip? mode raw = some key) h.keys hk

theorem tokens (h : c.Coherent) (template : String) :
    Yields (c.tokens template) (Template.tokens template) := by
  obtain ⟨hf, hc⟩ := c.tokens_eq_fetch template
  constructor
  · apply Option.some.inj
    rw [← hf]
    rcases h.templates.fst_fetch _ template with hm | ⟨ts, hm, rfl⟩ <;> exact hm
  · rw [hc]
    apply h.setTemplates
    apply h.templates.fetch
    intro ts hts
    exact (Option.some.inj hts).symm

theorem strip? (h : c.Coherent) (mode : Trimming) (raw : String) :
    Yields (c.strip? mode raw) (Marker.strip? mode raw) := by
  rw [strip?_eq_fetch]
  constructor
  · rcases (h.keys mode).fst_fetch (Marker.strip? mode) raw with hm | ⟨key, hm, hk⟩
    · exact hm
    · exact hm.trans hk.symm
  · exact h.setKeys ((h.keys mode).fetch fun _ => id)

theorem bindMarked (h : c.Coherent) (mode : Trimming) (index : Nat) (context : Context)
    (es : List (String × Value)) :
    Yields (Caches.bindMarked mode index context es c)
      (Uncached.bindMarked mode index context es) := by
  induction es generalizing c index context with
  | nil => exact ⟨rfl, h⟩
  | cons e es ih =>
    cases e with
    | mk raw v =>
      have hs := h.strip? mode raw
      rw [Caches.bindMarked, Uncached.bindMarked, ← hs.result]
      revert hs
      cases c.strip? mode raw with
      | mk key? c =>
        intro hs
        cases key? with
        | some key => exact ih hs.coherent (index + 2) (context.insert key v)
        | none => exact ⟨rfl, hs.coherent⟩

theorem bind (h : c.Coherent) (style : KeyStyle) (kvs : List Value) :
    Yields (c.bind style kvs) (Uncached.bind style kvs) := by
  cases style with
  | plain => exact ⟨rfl, h⟩
  | marked mode =>
    rw [Caches.bind, Uncached.bind]
    cases Arguments.check kvs with
    | ok es => exact h.bindMarked mode 0 .empty es
    | error e => exact ⟨rfl, h⟩

theorem render (h : c.Coherent) (context : Context) (template : String) :
    Yields (c.render context template) (Uncached.render context template) := by
  have ht := h.tokens template
  rw [Caches.render, Uncached.render, ← ht.result]
  split
  · exact ⟨rfl, h⟩
  · exact ⟨rfl, ht.coherent⟩

theorem renderInOrder (h : c.Coherent) (template : String) (args : List Value) :
    Yields (c.renderInOrder template args) (Uncached.renderInOrder template args) := by
  have ht := h.tokens template
  rw [Caches.renderInOrder, Uncached.renderInOrder, ← ht.result]
  split
  · exact ⟨rfl, h⟩
  · exact ⟨rfl, ht.coherent⟩

end Coherent

namespace Request

def isTransparent : Request → Bool
  | .tokens _ => true
  | .strip _ _ => true
  | .bind _ _ => true
  | .renderInOrder _ _ => true
  | _ => false

end Request

theorem Coherent.reply {c : Caches} (h : c.Coherent) {r : Request} (hr : r.isTransparent) :
    Yields (c.reply r) (Uncached.reply r) := by
  cases r with
  | tokens template =>
    have ht := h.tokens template
    exact ⟨congrArg Reply.tokens ht.result, ht.coherent⟩
  | strip mode raw =>
    have hs := h.strip? mode raw
    exact ⟨congrArg Reply.key hs.result, hs.coherent⟩
  | bind style kvs =>
    have hb := h.bind style kvs
    rw [Caches.reply, Uncached.reply, ← hb.result]
    revert hb
    cases c.bind style kvs with
    | mk result c =>
      intro hb
      cases result with
      | ok context => exact ⟨rfl, hb.coherent⟩
      | error e => exact ⟨rfl, hb.coherent⟩
  | renderInOrder template args =>
    have ht := h.renderInOrder template args
    exact ⟨congrArg Reply.text ht.result, ht.coherent⟩
  | hasTemplates | hasKeys | putTokens | putKey | summary => cases hr

end Caches

namespace Renderer

open Caches (Coherent Yields)

variable {c : Caches}

theorem Origin.yields_bind (h : c.Coherent) (o : Origin) :
    Yields (o.bind c) (Uncached.origin o) := by
  cases o with
  | arguments style kvs =>
    have hb := h.bind style kvs
    exact ⟨congrArg (Except.mapError Refusal.arguments) hb.result, hb.coherent⟩
  | empty | given | tuples | json => exact ⟨rfl, h⟩

theorem Edit.yields_apply (h : c.Coherent) (context : Context) (e : Edit) :
    Yields (e.apply c context) (Uncached.edit context e) := by
  cases e with
  | merge style kvs =>
    have hb := h.bind style kvs
    exact ⟨congrArg (Except.map context.union) hb.result, hb.coherent⟩
  | replace kvs => exact h.bind .plain kvs
  | erase keys => exact ⟨rfl, h⟩

theorem Query.yields_reply (h : c.Coherent) (context : Context) (q : Query) :
    Yields (q.reply c context) (Uncached.query context q) := by
  cases q with
  | render template =>
    have ht := h.render context template
    exact ⟨congrArg (fun s => Reply.text (some s)) ht.result, ht.coherent⟩
  | renderOptional template =>
    cases template with
    | some template =>
      have ht := h.render context template
      exact ⟨congrArg (fun s => Reply.text (some s)) ht.result, ht.coherent⟩
    | none => exact ⟨rfl, h⟩
  | context | get | json => exact ⟨rfl, h⟩

end Renderer

end Stencil
