import Mathlib.Algebra.Order.BigOperators.Group.List
import Mathlib.Algebra.Order.Ring.Nat
import Mathlib.Data.Set.Operations
import Stencil.Proofs.Rendering.Substitution
import Stencil.Proofs.Template.Rebuilding

namespace Stencil

namespace Token

theorem fill_congr {t : Token} {f g : String → Option String} (h : ∀ k ∈ t.key?, f k = g k) :
    t.fill f = t.fill g := by
  cases t with
  | literal text span => rfl
  | placeholder key fallback span => rw [fill, fill, h key rfl]

theorem fill_insert (t : Token) (context : Context) (key : String) (v : Value) :
    t.fill (Context.display? (context.insert key v)) =
      if t.key? = some key then v.display else t.fill context.display? := by
  cases t with
  | literal text span => rfl
  | placeholder other fallback span =>
    simp only [fill, key?, Context.display?, Dict.get?_insert, Option.some_inj]
    split <;> rfl

end Token

namespace Template

/-- What can be the key of a placeholder: any text that may stand inside of one and is not cut short by
a delimiter. -/
def IsKey (key : String) : Prop :=
  (∀ c ∈ ['{', '}', '\n'], c ∉ key.toList) ∧ ¬ delimiter <:+: key.toList

theorem all_isInner_iff {cs : List Char} :
    cs.all isInner ↔ ∀ c ∈ ['{', '}', '\n'], c ∉ cs := by
  rw [List.all_eq_true]
  constructor
  · intro h c hc hm
    have := h c hm
    simp only [List.mem_cons, List.not_mem_nil, or_false] at hc
    rcases hc with rfl | rfl | rfl <;> cases this
  · intro h c hm
    have hne : ∀ d ∈ ['{', '}', '\n'], c ≠ d := by
      rintro d hd rfl
      exact h c hd hm
    simpa [isInner, and_assoc] using hne

theorem mem_keys_iff {template key : String} :
    key ∈ keys template ↔ ∃ t ∈ tokens template, t.key? = some key :=
  List.mem_filterMap

theorem isKey_of_mem_keys {template key : String} (h : key ∈ keys template) : IsKey key := by
  obtain ⟨t, ht, hk⟩ := mem_keys_iff.1 h
  have hw := (faithful_tokens template).wellFormed t ht
  cases t with
  | literal text span => cases hk
  | placeholder other fallback span =>
    cases hk
    refine ⟨all_isInner_iff.1 hw.1, ?_⟩
    rintro ⟨a, b, he⟩
    exact hw.2.1 a b he.symm

theorem exists_mem_keys {key : String} (h : IsKey key) : ∃ template, key ∈ keys template := by
  have hi : (key.toList ++ delimiter ++ []).all isInner := by
    rw [List.all_append, List.all_append, all_isInner_iff.2 h.1]
    rfl
  have hk : keyAndFallback (key.toList ++ delimiter ++ []) = (key.toList, []) :=
    keyAndFallback_append (fun a b he => h.2 ⟨a, b, he.symm⟩) []
  refine ⟨String.ofList (enclose (key.toList ++ delimiter ++ []) ++ []), ?_⟩
  rw [mem_keys_iff, tokens, String.toList_ofList, chunks_enclose_append hi, chunks_nil,
    Chunk.ofInner_of_ne_nil (by simp [delimiter]), tokensFrom, tokensFrom, Chunk.token_hole, hk]
  exact ⟨_, List.mem_cons_self, congrArg some String.ofList_toList⟩

end Template

namespace Uncached

variable {template : String}

theorem render_eq_join (context : Context) (template : String) :
    render context template =
      String.join ((Template.tokens template).map (Token.fill context.display?)) := by
  rw [← String.toList_inj, Template.toList_render]
  exact (Template.toList_join_fill 0 _).symm

theorem render_congr {C D : Context} (h : ∀ k ∈ Template.keys template, C.get? k = D.get? k) :
    render C template = render D template := by
  rw [render_eq_join, render_eq_join]
  congr 1
  apply List.map_congr_left
  intro t ht
  apply Token.fill_congr
  intro k hk
  rw [Context.display?, Context.display?, h k (Template.mem_keys_iff.2 ⟨t, ht, hk⟩)]

theorem length_render_insert_lt {key : String} (h : key ∈ Template.keys template) (context : Context)
    {v w : Value} (hvw : v.display.length < w.display.length) :
    (render (context.insert key v) template).length <
      (render (context.insert key w) template).length := by
  rw [render_eq_join, render_eq_join, String.length_join, String.length_join, List.map_map,
    List.map_map]
  apply List.sum_lt_sum
  · intro t _
    simp only [Function.comp_apply, Token.fill_insert]
    split
    · exact Nat.le_of_lt hvw
    · exact Nat.le_refl _
  · obtain ⟨t, ht, hk⟩ := Template.mem_keys_iff.1 h
    refine ⟨t, ht, ?_⟩
    simp only [Function.comp_apply, Token.fill_insert, if_pos hk]
    exact hvw

theorem exists_render_ne {key : String} (h : key ∈ Template.keys template) :
    ∃ C D : Context, Set.EqOn C.get? D.get? {key}ᶜ ∧ render C template ≠ render D template := by
  refine ⟨Dict.empty.insert key (.string ""), Dict.empty.insert key (.string "x"), ?_, ?_⟩
  · intro k (hk : k ≠ key)
    rw [Dict.get?_insert, Dict.get?_insert, if_neg hk, if_neg hk]
  · intro he
    have hlt := length_render_insert_lt h .empty (v := .string "") (w := .string "x") (by decide)
    rw [he] at hlt
    exact Nat.lt_irrefl _ hlt

theorem render_congr_of_not_mem {key : String} (h : key ∉ Template.keys template) {C D : Context}
    (hCD : Set.EqOn C.get? D.get? {key}ᶜ) : render C template = render D template := by
  apply render_congr
  intro k hk
  apply hCD
  rintro rfl
  exact h hk

end Uncached

/-- The keys of a template are those that its rendering depends on, through whichever caches without a
put from outside: contexts that differ at such a key alone can render it differently, and contexts that
agree on all of them render it alike. What cannot be a key makes no difference to any template. -/
theorem Caches.mem_keys_iff_render_ne {c d : Caches} (hc : c.Reached) (hd : d.Reached)
    (template key : String) :
    (key ∈ Template.keys template ↔ ∃ C D : Context, Set.EqOn C.get? D.get? {key}ᶜ ∧
      (c.render C template).1 ≠ (d.render D template).1) ∧
    (∀ C D : Context, (∀ k ∈ Template.keys template, C.get? k = D.get? k) →
      (c.render C template).1 = (d.render D template).1) ∧
    ((∃ other, key ∈ Template.keys other) ↔ Template.IsKey key) ∧
    (¬ Template.IsKey key → ∀ other, ∀ C D : Context, Set.EqOn C.get? D.get? {key}ᶜ →
      (c.render C other).1 = (d.render D other).1) := by
  have hcr := fun C t => (hc.coherent.render C t).result
  have hdr := fun D t => (hd.coherent.render D t).result
  simp only [hcr, hdr]
  refine ⟨⟨Uncached.exists_render_ne, ?_⟩, fun C D => Uncached.render_congr,
    ⟨?_, Template.exists_mem_keys⟩, ?_⟩
  · rintro ⟨C, D, hCD, hne⟩
    by_contra hk
    exact hne (Uncached.render_congr_of_not_mem hk hCD)
  · rintro ⟨other, hk⟩
    exact Template.isKey_of_mem_keys hk
  · intro hkey other C D
    exact Uncached.render_congr_of_not_mem fun hk => hkey (Template.isKey_of_mem_keys hk)

theorem Caches.mem_keys_iff_render_ne_colon :
    let template := "${k:: v}${}"
    let c : Caches := .empty {}
    let d : Caches := ((Caches.empty ⟨1, 1⟩).reply (.tokens template)).2
    c.Reached ∧ d.Reached ∧ "k:" ∈ Template.keys template ∧
      (∃ C D : Context, Set.EqOn C.get? D.get? {"k:"}ᶜ ∧
        (c.render C template).1 ≠ (d.render D template).1) ∧
      (∀ D : Context, D.get? "k:" = none →
        (c.render .empty template).1 = (d.render D template).1) ∧
      ∀ other, ∀ C D : Context, Set.EqOn C.get? D.get? {"k: v"}ᶜ →
        (c.render C other).1 = (d.render D other).1 := by
  intro template c d
  have hc : c.Reached := .empty {}
  have hd : d.Reached := .reply (.empty ⟨1, 1⟩) (by decide)
  have ht : template.toList = Template.enclose "k:: v".toList ++ (Template.enclose [] ++ []) := by
    decide
  have hk : Template.keys template = ["k:"] := by
    rw [Template.keys, Template.tokens, ht, Template.chunks_enclose_append rfl,
      Template.chunks_enclose_append rfl, Template.chunks_nil]
    rfl
  have hmem : "k:" ∈ Template.keys template := by rw [hk]; exact List.mem_cons_self
  obtain ⟨hiff, hagree, -⟩ := mem_keys_iff_render_ne hc hd template "k:"
  refine ⟨hc, hd, hmem, hiff.1 hmem, ?_, ?_⟩
  · intro D hD
    apply hagree
    rw [hk, List.forall_mem_singleton, hD]
    rfl
  · have hn : ¬ Template.IsKey "k: v" := fun h => h.2 ⟨['k'], ['v'], rfl⟩
    exact (mem_keys_iff_render_ne hc hd template "k: v").2.2.2 hn

end Stencil
