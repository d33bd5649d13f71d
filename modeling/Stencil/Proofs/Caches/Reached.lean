import Stencil.Proofs.Caches.Coherent

namespace Stencil.Caches

def Request.isPut : Request → Bool
  | .putTokens _ _ => true
  | .putKey _ _ _ => true
  | _ => false

/-- Caches behind any number of uses by services, renderers and those who only look into them. -/
inductive Reached : Caches → Prop
  | empty (capacities : Capacities) : Reached (.empty capacities)
  | reply {c : Caches} {request : Request} :
    Reached c → ¬ request.isPut → Reached (c.reply request).2
  | bind {c : Caches} (origin : Renderer.Origin) : Reached c → Reached (origin.bind c).2
  | edit {c : Caches} (context : Context) (e : Renderer.Edit) :
    Reached c → Reached (e.apply c context).2
  | query {c : Caches} (context : Context) (q : Renderer.Query) :
    Reached c → Reached (q.reply c context).2
  | lookTemplate {c : Caches} (template : String) :
    Reached c → Reached { c with templates := (c.templates.get? template).2 }
  | lookKey {c : Caches} (mode : Trimming) (raw : String) :
    Reached c → Reached (c.setKeys mode ((c.keys mode).get? raw).2)

theorem Coherent.reply_of_not_isPut {c : Caches} (h : c.Coherent) {r : Request} (hr : ¬ r.isPut) :
    (c.reply r).2.Coherent := by
  cases r with
  | tokens | strip | bind | renderInOrder => exact (h.reply rfl).coherent
  | hasTemplates | hasKeys | summary => exact h
  | putTokens | putKey => exact absurd rfl hr

theorem Reached.coherent {c : Caches} (h : c.Reached) : c.Coherent := by
  induction h with
  | empty capacities => exact coherent_empty capacities
  | reply _ hr ih => exact ih.reply_of_not_isPut hr
  | bind origin _ ih => exact (Renderer.Origin.yields_bind ih origin).coherent
  | edit context e _ ih => exact (Renderer.Edit.yields_apply ih context e).coherent
  | query context q _ ih => exact (Renderer.Query.yields_reply ih context q).coherent
  | lookTemplate template _ ih => exact ih.setTemplates (ih.templates.get? template)
  | lookKey mode raw _ ih => exact ih.setKeys ((ih.keys mode).get? raw)

theorem Reached.fst_render {c : Caches} (h : c.Reached) (context : Context) (template : String) :
    (c.render context template).1 = Uncached.render context template :=
  (h.coherent.render context template).result

theorem Reached.fst_renderInOrder {c : Caches} (h : c.Reached) (template : String) (args : List Value) :
    (c.renderInOrder template args).1 = Uncached.renderInOrder template args :=
  (h.coherent.renderInOrder template args).result

end Stencil.Caches
