import Stencil.Proofs.Rendering.Dependence
import Stencil.Proofs.Rendering.Supply

namespace Stencil

namespace Template

def escapeChar (c : Char) : List Char := if c = '$' then enclose [] else [c]

def escape (s : String) : String := String.ofList (s.toList.flatMap escapeChar)

theorem Chunk.supplied_chunks_escapeChar {σ : Type} (next : Supply σ) (s : σ) (cs : List Char) :
    supplied next s (chunks (cs.flatMap escapeChar)) = cs := by
  induction cs with
  | nil => rw [List.flatMap_nil, chunks_nil, supplied]
  | cons c cs ih =>
    rw [List.flatMap_cons, escapeChar]
    split
    · rename_i hc
      rw [chunks_enclose_append rfl, ofInner_nil, supplied, ih, hc, List.nil_append]
    · rename_i hc
      rw [List.singleton_append, chunks_of_none (occurrence?_cons_of_ne hc _), supplied_cons, ih]

end Template

namespace Uncached

theorem render_escaped (context : Context) (s : String) : render context (Template.escape s) = s := by
  rw [← String.toList_inj, toList_render_eq_supplied, Template.escape, String.toList_ofList,
    Template.Chunk.supplied_chunks_escapeChar]

theorem renderInOrder_escaped (s : String) (args : List Value) :
    renderInOrder (Template.escape s) args = s := by
  rw [← String.toList_inj, toList_renderInOrder_eq_supplied, Template.escape, String.toList_ofList,
    Template.Chunk.supplied_chunks_escapeChar]

end Uncached

theorem Template.keys_escape (s : String) : keys (escape s) = [] := by
  rw [List.eq_nil_iff_forall_not_mem]
  intro key h
  obtain ⟨C, D, -, hne⟩ := Uncached.exists_render_ne h
  exact hne ((Uncached.render_escaped C s).trans (Uncached.render_escaped D s).symm)

/-- An escaped text has no keys and is rendered as the text, from every context and with all values. -/
theorem Caches.render_escape {c : Caches} (h : c.Reached) (s : String) :
    (∀ context, (c.render context (Template.escape s)).1 = s) ∧
      (∀ args, (c.renderInOrder (Template.escape s) args).1 = s) ∧
      Template.keys (Template.escape s) = [] := by
  refine ⟨?_, ?_, Template.keys_escape s⟩
  · intro context
    rw [h.fst_render]
    exact Uncached.render_escaped context s
  · intro args
    rw [h.fst_renderInOrder]
    exact Uncached.renderInOrder_escaped s args

theorem Caches.render_escape_placeholders :
    let s := "$${}{$}${x: y}\n$"
    let c : Caches := ((Caches.empty ⟨1, 1⟩).reply (.tokens (Template.escape s))).2
    c.Reached ∧ Template.escape s = "${}${}{}{${}}${}{x: y}\n${}" ∧
      (c.render (.ofList [("x", .null), ("", .string "$")]) (Template.escape s)).1 = s ∧
      (c.renderInOrder (Template.escape s) [.null]).1 = s := by
  intro s c
  have hc : c.Reached := .reply (.empty ⟨1, 1⟩) (by decide)
  obtain ⟨hr, ho, -⟩ := render_escape hc s
  exact ⟨hc, by decide, hr _, ho _⟩

end Stencil
