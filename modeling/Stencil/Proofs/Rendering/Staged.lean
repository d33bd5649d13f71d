import Stencil.Proofs.Rendering.Supply
import Stencil.Proofs.Template.Position

namespace Stencil

namespace Supply

variable {σ τ : Type}

def orElse (next : Supply σ) (other : Supply τ) : Supply (σ × τ) := fun s key =>
  match next s.1 key with
  | (some text, s') => (some text, s', s.2)
  | (none, s') => ((other s.2 key).1, s', (other s.2 key).2)

def Undollared (next : Supply σ) : σ → List String → Prop
  | _, [] => True
  | s, key :: keys =>
    (∀ text ∈ (next s key).1, '$' ∉ text.toList) ∧ Undollared next (next s key).2 keys

theorem undollared_byKey {context : Context} {keys : List String}
    (h : ∀ k ∈ keys, ∀ v, context.get? k = some v → '$' ∉ v.display.toList) :
    Undollared byKey context keys := by
  induction keys with
  | nil => exact trivial
  | cons key keys ih =>
    rw [List.forall_mem_cons] at h
    refine ⟨?_, ih h.2⟩
    intro text ht
    obtain ⟨v, hv, rfl⟩ := Option.map_eq_some_iff.1 ht
    exact h.1 v hv

theorem undollared_inOrder {args : List String} (h : ∀ text ∈ args, '$' ∉ text.toList)
    (keys : List String) : Undollared inOrder args keys := by
  induction keys generalizing args with
  | nil => exact trivial
  | cons key keys ih =>
    cases args with
    | nil => exact ⟨by rintro _ ⟨⟩, ih h⟩
    | cons a args =>
      rw [List.forall_mem_cons] at h
      refine ⟨?_, ih h.2⟩
      rintro _ ⟨⟩
      exact h.1

end Supply

namespace Template

/-- There is no dollar sign in the texts of a template, and its placeholders have no default, so that
each falls back on itself. -/
structure Staged (template : String) : Prop where
  undollared : ∀ text span, .literal text span ∈ tokens template → '$' ∉ text.toList
  echoed : ∀ key fallback span, .placeholder key fallback span ∈ tokens template →
    fallback = (Token.placeholder key fallback span).source template

namespace Chunk

variable {σ τ : Type} {next : Supply σ} {other : Supply τ}

def Staged : Chunk → Prop
  | .plain text => '$' ∉ text
  | .dollar _ => False
  | .hole inner => inner ≠ [] ∧ inner.all isInner ∧ (keyAndFallback inner).2 = enclose inner

theorem staged_of_mem_chunks {template : String} (h : Template.Staged template) {k : Chunk}
    (hk : k ∈ chunks template.toList) : k.Staged := by
  obtain ⟨before, behind, hks⟩ := List.append_of_mem hk
  have hm := mem_tokens_iff.2 ⟨before, k, behind, hks, rfl⟩
  have hp := proper_of_mem_chunks template.toList k hk
  have hs := source_token hks
  cases k with
  | plain text =>
    have := h.undollared _ _ hm
    rwa [String.toList_ofList] at this
  | dollar text =>
    have := h.undollared _ _ hm
    simp at this
  | hole inner =>
    rw [token_hole] at hm hs
    have he := h.echoed _ _ _ hm
    rw [hs, String.ofList_inj] at he
    exact ⟨hp.1, hp.2, he⟩

theorem supplied_chunks_supplied {s : σ} {t : τ} {ks : List Chunk} (hk : ∀ k ∈ ks, k.Staged)
    (hn : next.Undollared s (ks.filterMap key?)) :
    supplied other t (chunks (supplied next s ks)) = supplied (next.orElse other) (s, t) ks := by
  induction ks generalizing s t with
  | nil => rw [supplied, chunks_nil]; rfl
  | cons k ks ih =>
    rw [List.forall_mem_cons] at hk
    obtain ⟨hk, hks⟩ := hk
    cases k with
    | plain text =>
      rw [supplied, chunks_append_of_not_mem hk, supplied_foldr_cons, ih hks hn, supplied]
    | dollar text => cases hk
    | hole inner =>
      obtain ⟨hne, hi, hf⟩ := hk
      obtain ⟨htext, hn⟩ := hn
      rw [supplied, supplied, Supply.orElse]
      revert htext hn
      -- without a text the hole echoes itself and is read again, and a text holds nothing to be read
      rcases next s (String.ofList (keyAndFallback inner).1) with ⟨_ | text, s'⟩
      · intro _ hn
        rw [Option.elim_none, hf, chunks_enclose_append hi, ofInner_of_ne_nil hne, supplied, hf,
          ih hks hn]
      · intro htext hn
        rw [Option.elim_some, chunks_append_of_not_mem (htext text rfl), supplied_foldr_cons, ih hks hn]

theorem supplied_orElse_byKey (C D : Context) (ks : List Chunk) :
    supplied (Supply.byKey.orElse .byKey) (C, D) ks = supplied .byKey (D.union C) ks := by
  apply supplied_eq_of_rel fun s context => context = s.2.union s.1
  · rintro ⟨C, D⟩ _ key rfl
    simp only [Supply.orElse, Supply.byKey, Context.display?, Dict.get?_union]
    cases C.get? key <;> exact ⟨rfl, rfl⟩
  · rfl

theorem supplied_orElse_inOrder (args more : List String) (ks : List Chunk) :
    supplied (Supply.inOrder.orElse .inOrder) (args, more) ks = supplied .inOrder (args ++ more) ks := by
  apply supplied_eq_of_rel fun s all => all = s.1 ++ s.2
  · rintro ⟨args, more⟩ _ key rfl
    cases args with
    | nil => cases more <;> exact ⟨rfl, rfl⟩
    | cons a args => exact ⟨rfl, rfl⟩
  · rfl

end Chunk

end Template

namespace Uncached

open Template.Chunk (staged_of_mem_chunks supplied_chunks_supplied)

variable {template : String}

theorem render_render {C : Context} (h : Template.Staged template)
    (hC : ∀ k ∈ Template.keys template, ∀ v, C.get? k = some v → '$' ∉ v.display.toList)
    (D : Context) : render D (render C template) = render (D.union C) template := by
  rw [Template.keys_eq] at hC
  rw [← String.toList_inj, toList_render_eq_supplied, toList_render_eq_supplied,
    toList_render_eq_supplied,
    supplied_chunks_supplied (fun _ => staged_of_mem_chunks h) (Supply.undollared_byKey hC),
    Template.Chunk.supplied_orElse_byKey]

theorem renderInOrder_renderInOrder {args : List Value} (h : Template.Staged template)
    (ha : ∀ v ∈ args, '$' ∉ v.display.toList) (more : List Value) :
    renderInOrder (renderInOrder template args) more = renderInOrder template (args ++ more) := by
  have hs : ∀ text ∈ args.map Value.display, '$' ∉ text.toList := by
    simpa using ha
  rw [← String.toList_inj, toList_renderInOrder_eq_supplied, toList_renderInOrder_eq_supplied,
    toList_renderInOrder_eq_supplied,
    supplied_chunks_supplied (fun _ => staged_of_mem_chunks h) (Supply.undollared_inOrder hs _),
    Template.Chunk.supplied_orElse_inOrder, List.map_append]

end Uncached

/-- Filling a template in stages has the result of filling it at once: with a second context under the
first one, or with more values behind the first ones. -/
theorem Caches.render_render_of_staged {c d e : Caches} (hc : c.Reached) (hd : d.Reached)
    (he : e.Reached) {template : String} (h : Template.Staged template) :
    (∀ C D : Context,
      (∀ k ∈ Template.keys template, ∀ v, C.get? k = some v → '$' ∉ v.display.toList) →
      (d.render D (c.render C template).1).1 = (e.render (D.union C) template).1) ∧
    ∀ args more : List Value, (∀ v ∈ args, '$' ∉ v.display.toList) →
      (d.renderInOrder (c.renderInOrder template args).1 more).1 =
        (e.renderInOrder template (args ++ more)).1 := by
  constructor
  · intro C D hC
    rw [hc.fst_render, hd.fst_render, he.fst_render]
    exact Uncached.render_render h hC D
  · intro args more ha
    rw [hc.fst_renderInOrder, hd.fst_renderInOrder, he.fst_renderInOrder]
    exact Uncached.renderInOrder_renderInOrder h ha more

theorem Caches.render_render_of_staged_braces :
    let template := "{${a$}${b}}"
    let C : Context := .ofList [("b", .string "\x7d\n\x7b")]
    let D : Context := .ofList [("a$", .string "${b}"), ("b", .null)]
    let c : Caches := .empty {}
    let d : Caches := ((Caches.empty ⟨1, 1⟩).reply (.tokens template)).2
    c.Reached ∧ d.Reached ∧ Template.Staged template ∧
      (d.render D (c.render C template).1).1 = (c.render (D.union C) template).1 ∧
      (d.renderInOrder (c.renderInOrder template [.string ""]).1 [.string "${b}", .null]).1 =
        (c.renderInOrder template [.string "", .string "${b}", .null]).1 := by
  intro template C D c d
  have hc : c.Reached := .empty {}
  have hd : d.Reached := .reply (.empty ⟨1, 1⟩) (by decide)
  have ht : template.toList =
      '{' :: (Template.enclose ['a', '$'] ++ (Template.enclose ['b'] ++ ['}'])) := by decide
  have hts : Template.tokens template =
      [.literal "\x7b" ⟨0, 1⟩, .placeholder "a$" "${a$}" ⟨1, 6⟩, .placeholder "b" "${b}" ⟨6, 10⟩,
        .literal "\x7d" ⟨10, 11⟩] := by
    rw [Template.tokens, ht, Template.chunks_of_none rfl, Template.chunks_enclose_append rfl,
      Template.chunks_enclose_append rfl, Template.chunks_of_none rfl, Template.chunks_nil]
    rfl
  have hs : Template.Staged template := by
    constructor
    · intro text span hm
      simp only [hts, List.mem_cons, Token.literal.injEq, reduceCtorEq, List.not_mem_nil,
        false_or, or_false] at hm
      rcases hm with ⟨rfl, -⟩ | ⟨rfl, -⟩ <;> decide
    · intro key fallback span hm
      simp only [hts, List.mem_cons, Token.placeholder.injEq, reduceCtorEq, List.not_mem_nil,
        false_or, or_false] at hm
      rcases hm with ⟨rfl, rfl, rfl⟩ | ⟨rfl, rfl, rfl⟩ <;> decide
  have hC : ∀ k ∈ Template.keys template, ∀ v, C.get? k = some v → '$' ∉ v.display.toList := by
    rw [Template.keys, hts]
    have hb : ∀ k ∈ ["a$", "b"], ∀ v ∈ C.get? k, '$' ∉ v.display.toList := by decide
    exact hb
  obtain ⟨hr, ho⟩ := render_render_of_staged hc hd hc hs
  exact ⟨hc, hd, hs, hr C D hC, ho [.string ""] [.string "${b}", .null] (by decide)⟩

end Stencil
