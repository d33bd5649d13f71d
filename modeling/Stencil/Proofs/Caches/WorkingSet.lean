import Stencil.Proofs.Caches.Use
import Stencil.Proofs.Lru.WorkingSet

namespace Stencil.Caches

def rendered (template : String) : List String :=
  if Text.allBlank template.toList then [] else [template]

/-- The keys of a list that are looked up: all up to the first one without a marker. -/
def tried (mode : Trimming) : List String → List String
  | [] => []
  | raw :: raws => raw :: if (Marker.strip? mode raw).isSome then tried mode raws else []

namespace Use

def templates : Use → List String
  | .ask (.tokens template) => [template]
  | .ask (.renderInOrder template _) => rendered template
  | .render _ template => rendered template
  | _ => []

def keys (mode : Trimming) : Use → List String
  | .ask (.strip other raw) => if other = mode then [raw] else []
  | .ask (.bind (.marked other) kvs) =>
    match Arguments.check kvs with
    | .ok es => if other = mode then tried mode (es.map Prod.fst) else []
    | .error _ => []
  | _ => []

end Use

variable {c : Caches}

theorem templates_rendered (c : Caches) (template : String) :
    (if Text.allBlank template.toList then c else (c.tokens template).2).templates =
      (Machine.run fetchTokens c.templates (rendered template)).2 := by
  rw [rendered]
  split
  · rfl
  · rw [(c.tokens_eq_fetch template).2]
    rfl

theorem keys_rendered (c : Caches) (template : String) (mode : Trimming) :
    (if Text.allBlank template.toList then c else (c.tokens template).2).keys mode =
      c.keys mode := by
  split
  · rfl
  · rw [(c.tokens_eq_fetch template).2, keys_templates]

theorem templates_strip? (c : Caches) (mode : Trimming) (raw : String) :
    (c.strip? mode raw).2.templates = c.templates := by
  rw [strip?_eq_fetch, templates_setKeys]

theorem templates_use (c : Caches) {x : Use} (hx : ¬ x.isPut) :
    (c.use x).2.templates = (Machine.run fetchTokens c.templates x.templates).2 := by
  cases x with
  | ask request =>
    cases request with
    | tokens template =>
      change (c.tokens template).2.templates = _
      rw [(c.tokens_eq_fetch template).2]
      rfl
    | strip mode raw => exact templates_strip? c mode raw
    | bind style kvs =>
      rw [use, snd_reply_bind]
      refine invariant_bind (P := fun d => d.templates = c.templates) ?_ rfl style kvs
      intro d mode raw hd
      rw [templates_strip?, hd]
    | renderInOrder template args =>
      rw [snd_renderInOrder]
      exact templates_rendered c template
    | hasTemplates | hasKeys | summary => rfl
    | putTokens | putKey => exact absurd rfl hx
  | render context template =>
    rw [snd_render]
    exact templates_rendered c template

theorem snd_bindMarked (h : c.Coherent) (mode : Trimming) (index : Nat) (context : Context)
    (es : List (String × Value)) :
    (bindMarked mode index context es c).2 =
      c.setKeys mode
        (Machine.run (fetchKey mode) (c.keys mode) (tried mode (es.map Prod.fst))).2 := by
  induction es generalizing c index context with
  | nil => exact (setKeys_keys c mode).symm
  | cons e es ih =>
    obtain ⟨raw, v⟩ := e
    have hs := h.strip? mode raw
    rw [bindMarked, List.map_cons, tried, ← hs.result]
    revert hs
    rw [strip?_eq_fetch]
    cases hk : (fetchKey mode (c.keys mode) raw).1 with
    | some key =>
      intro hs
      simp [ih hs.coherent]
    | none =>
      intro _
      rfl

theorem keys_use (h : c.Coherent) {x : Use} (hx : ¬ x.isPut) (mode : Trimming) :
    (c.use x).2.keys mode = (Machine.run (fetchKey mode) (c.keys mode) (x.keys mode)).2 := by
  cases x with
  | ask request =>
    cases request with
    | tokens template =>
      change (c.tokens template).2.keys mode = _
      rw [(c.tokens_eq_fetch template).2, keys_templates]
      rfl
    | strip other raw =>
      change (c.strip? other raw).2.keys mode = _
      rw [strip?_eq_fetch, Use.keys]
      by_cases hm : other = mode
      · subst hm
        simp
      · rw [if_neg hm, keys_setKeys_of_ne c hm]
        rfl
    | bind style kvs =>
      rw [use, snd_reply_bind]
      cases style with
      | plain => rfl
      | marked other =>
        rw [bind, Use.keys]
        cases Arguments.check kvs with
        | error e => rfl
        | ok es =>
          dsimp only
          rw [snd_bindMarked h]
          by_cases hm : other = mode
          · subst hm
            simp
          · rw [if_neg hm, keys_setKeys_of_ne c hm]
            rfl
    | renderInOrder template args =>
      rw [snd_renderInOrder, keys_rendered]
      rfl
    | hasTemplates | hasKeys | summary => rfl
    | putTokens | putKey => exact absurd rfl hx
  | render context template =>
    rw [snd_render, keys_rendered]
    rfl

theorem run_use (h : c.Coherent) {uses : List Use} (hu : ∀ x ∈ uses, ¬ x.isPut) :
    (Machine.run use c uses).2.templates =
        (Machine.run fetchTokens c.templates (uses.flatMap Use.templates)).2 ∧
      ∀ mode, (Machine.run use c uses).2.keys mode =
        (Machine.run (fetchKey mode) (c.keys mode) (uses.flatMap (Use.keys mode))).2 := by
  induction uses generalizing c with
  | nil => exact ⟨rfl, fun mode => rfl⟩
  | cons x uses ih =>
    rw [List.forall_mem_cons] at hu
    obtain ⟨ht, hk⟩ := ih (h.use hu.1) hu.2
    rw [templates_use c hu.1] at ht
    constructor
    · simp [ht, Machine.run_append]
    · intro mode
      have hm := hk mode
      rw [keys_use h hu.1] at hm
      simp [hm, Machine.run_append]

/-- The caches of a service hold the templates and the marked keys asked for last, have found whatever was
asked for again soon enough, and have counted each request once. A key without a marker is missed
without a trace. -/
theorem workingSets_run (capacities : Capacities) {uses : List Use}
    (h : ∀ x ∈ uses, ¬ x.isPut) :
    let c := (Machine.run use (empty capacities) uses).2
    Lru.WorkingSet (fun template => some (Template.tokens template)) (max capacities.templates 1)
        (uses.flatMap Use.templates).reverse c.templates ∧
      ∀ mode, Lru.WorkingSet (Marker.strip? mode) (max capacities.keys 1)
          (uses.flatMap (Use.keys mode)).reverse (c.keys mode) ∧
        ∀ raw, Marker.strip? mode raw = none →
          let keys := (c.strip? mode raw).2.keys mode
          keys.recency = (c.keys mode).recency ∧ keys.hits = (c.keys mode).hits ∧
            keys.misses = (c.keys mode).misses + 1 := by
  intro c
  obtain ⟨ht, hk⟩ := run_use (coherent_empty capacities) h
  constructor
  · rw [ht]
    exact Lru.workingSet_run _ capacities.templates _
  · intro mode
    have hw : Lru.WorkingSet (Marker.strip? mode) (max capacities.keys 1)
        (uses.flatMap (Use.keys mode)).reverse (c.keys mode) := by
      have he : (empty capacities).keys mode = .empty capacities.keys := by cases mode <;> rfl
      rw [hk mode, he]
      exact Lru.workingSet_run _ capacities.keys _
    refine ⟨hw, ?_⟩
    intro raw hraw
    rw [strip?_eq_fetch, keys_setKeys, hw.fetch_of_none hraw]
    exact ⟨rfl, rfl, rfl⟩

theorem workingSets_run_crowded :
    let list (ks : List String) : List Value := ks.flatMap fun k => [.string k, .null]
    let uses : List Use :=
      [.ask (.tokens "a"), .render .empty "b", .ask (.renderInOrder " " []), .ask (.tokens "a"),
        .render .empty "c", .ask (.strip .trimmed "k ->"),
        .ask (.bind (.marked .trimmed) (list ["l >>", "l >>", "m", "n ->"])),
        .ask (.strip .untrimmed "l >>"), .ask (.strip .trimmed "k ->")]
    (∀ x ∈ uses, ¬ x.isPut) ∧
    let c := (Machine.run use (empty ⟨2, 0⟩) uses).2
    c.templates.recency.map Prod.fst = ["c", "a"] ∧ c.templates.hits = 1 ∧
      c.templates.hits + c.templates.misses = 4 ∧
      c.trimmed.recency.map Prod.fst = ["k ->"] ∧ c.trimmed.hits = 1 ∧
      c.trimmed.hits + c.trimmed.misses = 5 ∧ c.untrimmed.recency.map Prod.fst = ["l >>"] := by
  intro list uses
  have h : ∀ x ∈ uses, ¬ x.isPut := by decide
  refine ⟨h, ?_⟩
  have hw := workingSets_run ⟨2, 0⟩ h
  -- the working sets say it all, so that the caches themselves need not be run
  revert hw
  generalize (Machine.run use (empty ⟨2, 0⟩) uses).2 = after
  intro ⟨ht, hk⟩ c
  have htrimmed : Lru.WorkingSet _ _ _ c.trimmed := (hk .trimmed).1
  have huntrimmed : Lru.WorkingSet _ _ _ c.untrimmed := (hk .untrimmed).1
  exact ⟨ht.recency.trans (by decide), ht.hits.trans (by decide), ht.requests.trans (by decide),
    htrimmed.recency.trans (by decide), htrimmed.hits.trans (by decide),
    htrimmed.requests.trans (by decide), huntrimmed.recency.trans (by decide)⟩

end Stencil.Caches
