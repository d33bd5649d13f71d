import Stencil.Proofs.Caches.Reached

namespace Stencil

namespace Token

theorem fillInOrder_eq_map_fill {text? : String → Option String} {ts : List Token}
    {args : List String} {unfilled : Nat}
    (h : (ts.filterMap key?).map text? = args.map some ++ List.replicate unfilled none) :
    fillInOrder ts args = ts.map (fill text?) := by
  induction ts generalizing args unfilled with
  | nil => rfl
  | cons t ts ih =>
    cases t with
    | literal text span =>
      rw [List.filterMap_cons, key?] at h
      rw [fillInOrder, List.map_cons, fill, ih h]
    | placeholder key fallback span =>
      rw [List.filterMap_cons, key?, List.map_cons] at h
      cases args with
      | nil =>
        cases unfilled with
        | zero => cases h
        | succ unfilled =>
          obtain ⟨hk, h⟩ := List.cons.inj h
          have rest : fillInOrder ts [] = ts.map (fill text?) := ih h
          rw [fillInOrder, List.map_cons, fill, hk, rest, Option.getD_none]
      | cons a args =>
        obtain ⟨hk, h⟩ := List.cons.inj h
        rw [fillInOrder, List.map_cons, fill, hk, ih h, Option.getD_some]

theorem fillInOrder_append {ts : List Token} {args : List String}
    (h : (ts.filterMap key?).length ≤ args.length) (more : List String) :
    fillInOrder ts (args ++ more) = fillInOrder ts args := by
  induction ts generalizing args with
  | nil => rfl
  | cons t ts ih =>
    cases t with
    | literal text span => rw [fillInOrder, fillInOrder, ih h]
    | placeholder key fallback span =>
      cases args with
      | nil => cases h
      | cons a args =>
        rw [List.cons_append, fillInOrder, fillInOrder, ih (Nat.le_of_succ_le_succ h)]

end Token

namespace Uncached

variable {context : Context} {template : String} {args : List Value}

theorem exists_map_get?_keys
    (bound : ((Template.keys template).take args.length).map context.get? = args.map some)
    (unbound : ∀ k ∈ (Template.keys template).drop args.length, context.get? k = none) :
    ∃ unfilled, (Template.keys template).map context.get? =
      args.map some ++ List.replicate unfilled none := by
  refine ⟨((Template.keys template).drop args.length).length, ?_⟩
  rw [← List.map_const', ← List.map_congr_left unbound, ← bound, ← List.map_append,
    List.take_append_drop]

theorem renderInOrder_eq_render
    (bound : ((Template.keys template).take args.length).map context.get? = args.map some)
    (unbound : ∀ k ∈ (Template.keys template).drop args.length, context.get? k = none) :
    renderInOrder template args = render context template := by
  obtain ⟨unfilled, hv⟩ := exists_map_get?_keys bound unbound
  have texts : (Template.keys template).map context.display? =
      (args.map Value.display).map some ++ List.replicate unfilled none := calc
    _ = ((Template.keys template).map context.get?).map (Option.map Value.display) := by
      rw [List.map_map]
      rfl
    _ = _ := by
      rw [hv]
      simp
  rw [renderInOrder, render, Token.fillInOrder_eq_map_fill texts]

theorem renderInOrder_append (h : (Template.keys template).length ≤ args.length)
    (more : List Value) : renderInOrder template (args ++ more) = renderInOrder template args := by
  rw [renderInOrder, renderInOrder, List.map_append, Token.fillInOrder_append]
  rw [List.length_map]
  exact h

end Uncached

/-- A context that binds the keys of the first placeholders to the given values, and those of no other
placeholder, renders a template as the values in order do. With a value for each placeholder, further
ones are not asked for. -/
theorem Caches.render_eq_renderInOrder {c d : Caches} (hc : c.Reached) (hd : d.Reached)
    {template : String} {context : Context} {args : List Value}
    (bound : ((Template.keys template).take args.length).map context.get? = args.map some)
    (unbound : ∀ k ∈ (Template.keys template).drop args.length, context.get? k = none) :
    (c.render context template).1 = (d.renderInOrder template args).1 ∧
      (args.length = (Template.keys template).length → ∀ more,
        (d.renderInOrder template (args ++ more)).1 = (d.renderInOrder template args).1) := by
  rw [(hc.coherent.render context template).result,
    (hd.coherent.renderInOrder template args).result]
  refine ⟨(Uncached.renderInOrder_eq_render bound unbound).symm, ?_⟩
  intro hm more
  rw [(hd.coherent.renderInOrder template (args ++ more)).result]
  exact Uncached.renderInOrder_append (Nat.le_of_eq hm.symm) more

theorem Caches.render_eq_renderInOrder_repeated :
    let template := "${a}${}${a: x} ${b: y}"
    let few : Context := .ofList [("a", .string "1"), ("c", .null)]
    let all : Context := .ofList [("a", .string "1"), ("b", .null)]
    let c : Caches := .empty {}
    let d : Caches := ((Caches.empty ⟨1, 1⟩).reply (.tokens template)).2
    c.Reached ∧ d.Reached ∧ Template.keys template = ["a", "a", "b"] ∧
      (c.render few template).1 = (d.renderInOrder template [.string "1", .string "1"]).1 ∧
      (c.render all template).1 =
        (d.renderInOrder template [.string "1", .string "1", .null, .string "2"]).1 := by
  intro template few all c d
  have hc : c.Reached := .empty {}
  have hd : d.Reached := .reply (.empty ⟨1, 1⟩) (by decide)
  have ht : template.toList = Template.enclose ['a'] ++ (Template.enclose [] ++
      (Template.enclose "a: x".toList ++ ' ' :: (Template.enclose "b: y".toList ++ []))) := by decide
  have hk : Template.keys template = ["a", "a", "b"] := by
    rw [Template.keys, Template.tokens, ht, Template.chunks_enclose_append rfl,
      Template.chunks_enclose_append rfl, Template.chunks_enclose_append rfl,
      Template.chunks_of_none rfl, Template.chunks_enclose_append rfl, Template.chunks_nil]
    rfl
  have hfew := @render_eq_renderInOrder c d hc hd template few [.string "1", .string "1"]
    (by rw [hk]; rfl) (by rw [hk]; decide)
  have hall := @render_eq_renderInOrder c d hc hd template all [.string "1", .string "1", .null]
    (by rw [hk]; rfl) (by rw [hk]; decide)
  exact ⟨hc, hd, hk, hfew.1, hall.1.trans (hall.2 (by rw [hk]; rfl) [.string "2"]).symm⟩

end Stencil
