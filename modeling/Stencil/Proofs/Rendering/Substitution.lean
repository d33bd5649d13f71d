import Stencil.Proofs.Caches.Reached
import Stencil.Proofs.Template.Recognition

namespace Stencil

namespace Template

/-- What stands in the place of a placeholder: a dollar sign if it is empty, else the value of its key,
be it null, else its fallback. -/
inductive Filling (context : Context) : List Char → List Char → Prop
  | dollar : Filling context [] ['$']
  | value {inner key fallback : List Char} {v : Value} : inner ≠ [] → Parts inner key fallback →
    context.get? (String.ofList key) = some v → Filling context inner v.display.toList
  | fallback {inner key fallback : List Char} : inner ≠ [] → Parts inner key fallback →
    context.get? (String.ofList key) = none → Filling context inner fallback

inductive Substitutes (context : Context) : List Char → List Char → Prop
  | nil : Substitutes context [] []
  | fill {inner filling rest out : List Char} : inner.all isInner → Filling context inner filling →
    Substitutes context rest out → Substitutes context (enclose inner ++ rest) (filling ++ out)
  | copy {c : Char} {cs out : List Char} :
    (∀ inner rest, inner.all isInner → c :: cs ≠ enclose inner ++ rest) →
    Substitutes context cs out → Substitutes context (c :: cs) (c :: out)

namespace Chunk

def filled (context : Context) : Chunk → List Char
  | .plain s => s
  | .dollar s => s ++ ['$']
  | .hole inner =>
    match context.get? (String.ofList (keyAndFallback inner).1) with
    | some v => v.display.toList
    | none => (keyAndFallback inner).2

variable {context : Context}

theorem flatMap_filled_cons (c : Char) (ks : List Chunk) :
    (cons c ks).flatMap (filled context) = c :: ks.flatMap (filled context) := by
  match ks with
  | [] => rfl
  | .plain _ :: _ => rfl
  | .dollar _ :: _ => rfl
  | .hole _ :: _ => rfl

theorem filling_ofInner (inner : List Char) :
    Filling context inner ((ofInner inner).filled context) := by
  cases inner with
  | nil => exact .dollar
  | cons c inner =>
    have hp := parts_keyAndFallback (c :: inner)
    rw [ofInner, List.isEmpty_cons, if_neg Bool.false_ne_true, filled]
    split
    · rename_i v hv
      exact .value (List.cons_ne_nil c inner) hp hv
    · rename_i hv
      exact .fallback (List.cons_ne_nil c inner) hp hv

end Chunk

variable {context : Context}

theorem Filling.unique {inner filling other : List Char} (h : Filling context inner filling)
    (h' : Filling context inner other) : filling = other := by
  cases h with
  | dollar =>
    cases h' with
    | dollar => rfl
    | value hne => exact absurd rfl hne
    | fallback hne => exact absurd rfl hne
  | value hne hp hv =>
    cases h' with
    | dollar => exact absurd rfl hne
    | value _ hp' hv' =>
      rw [(hp.unique hp').1, hv'] at hv
      cases hv
      rfl
    | fallback _ hp' hv' =>
      rw [(hp.unique hp').1, hv'] at hv
      cases hv
  | fallback hne hp hv =>
    cases h' with
    | dollar => exact absurd rfl hne
    | value _ hp' hv' =>
      rw [(hp.unique hp').1, hv'] at hv
      cases hv
    | fallback _ hp' _ => exact (hp.unique hp').2

theorem substitutes_chunks (cs : List Char) :
    Substitutes context cs ((chunks cs).flatMap (Chunk.filled context)) := by
  fun_induction chunks cs with
  | case1 => exact .nil
  | case2 c cs inner rest h ih =>
    obtain ⟨hc, hi⟩ := occurrence?_eq_some_iff.1 h
    rw [hc, List.flatMap_cons]
    exact .fill hi (Chunk.filling_ofInner inner) ih
  | case3 c cs h ih =>
    rw [Chunk.flatMap_filled_cons]
    exact .copy (occurrence?_eq_none_iff.1 h) ih

theorem Substitutes.eq_flatMap {cs out : List Char} (h : Substitutes context cs out) :
    out = (chunks cs).flatMap (Chunk.filled context) := by
  induction h with
  | nil => rw [chunks_nil]; rfl
  | @fill inner filling rest out hi hf _ ih =>
    rw [chunks_enclose_append hi, List.flatMap_cons, ← ih,
      hf.unique (Chunk.filling_ofInner inner)]
  | @copy c cs out hn _ ih =>
    rw [chunks_of_none (occurrence?_eq_none_iff.2 hn), Chunk.flatMap_filled_cons, ← ih]

theorem substitutes_iff {cs out : List Char} :
    Substitutes context cs out ↔ (chunks cs).flatMap (Chunk.filled context) = out := by
  constructor
  · intro h
    exact h.eq_flatMap.symm
  · rintro rfl
    exact substitutes_chunks cs

theorem toList_fill_token (start : Nat) (k : Chunk) :
    ((k.token start).fill context.display?).toList = k.filled context := by
  cases k with
  | plain s => simp [Token.fill, Chunk.filled]
  | dollar s => simp [Token.fill, Chunk.filled]
  | hole inner =>
    rw [Chunk.token_hole, Token.fill, Chunk.filled, Context.display?]
    cases context.get? (String.ofList (keyAndFallback inner).1) with
    | some v => rfl
    | none => simp

theorem toList_join_fill (start : Nat) (ks : List Chunk) :
    (String.join ((tokensFrom start ks).map (Token.fill context.display?))).toList =
      ks.flatMap (Chunk.filled context) := by
  induction ks generalizing start with
  | nil => rfl
  | cons k ks ih =>
    rw [tokensFrom, List.map_cons, String.join_cons, String.toList_append, toList_fill_token, ih,
      List.flatMap_cons]

theorem substitutes_self_of_allBlank {cs : List Char} (h : Text.allBlank cs) :
    Substitutes context cs cs := by
  induction cs with
  | nil => exact .nil
  | cons c cs ih =>
    rw [Text.allBlank, List.all_cons, Bool.and_eq_true] at h
    refine .copy ?_ (ih h.2)
    intro inner rest _ hc
    obtain ⟨rfl, -⟩ := List.cons.inj hc
    exact absurd h.1 (by decide)

theorem toList_render (context : Context) (template : String) :
    (Uncached.render context template).toList =
      (chunks template.toList).flatMap (Chunk.filled context) := by
  rw [Uncached.render]
  split
  · rename_i hb
    exact (substitutes_self_of_allBlank hb).eq_flatMap
  · exact toList_join_fill 0 _

end Template

open Template (Substitutes)

/-- Through caches that nobody put anything into, a template is rendered as one pass substitutes its
placeholders, which is what its tokens make up also if it is blank. -/
theorem Caches.render_eq_iff_substitutes {c : Caches} (h : c.Reached) (context : Context)
    (template out : String) :
    ((c.render context template).1 = out ↔ Substitutes context template.toList out.toList) ∧
      (c.render context template).1 =
        String.join ((Template.tokens template).map (Token.fill context.display?)) := by
  have hr := (h.coherent.render context template).result
  have hl := Template.toList_render context template
  rw [hr]
  constructor
  · rw [Template.substitutes_iff, ← hl, String.toList_inj]
  · rw [← String.toList_inj, hl]
    exact (Template.toList_join_fill 0 _).symm

theorem Caches.render_eq_iff_substitutes_null :
    let context : Context := .ofList [("x", .null), ("y", .string "${x}")]
    let template := "=${x: d}${y}${z: e}${}"
    let c : Caches := ((Caches.empty ⟨1, 1⟩).reply (.tokens template)).2
    c.Reached ∧ (c.render context template).1 = "=null${x}e$" := by
  intro context template c
  have h : c.Reached := .reply (.empty ⟨1, 1⟩) (by decide)
  have last : Substitutes context (Template.enclose []) ['$'] := .fill rfl .dollar .nil
  have hz : Substitutes context (Template.enclose "z: e".toList ++ Template.enclose []) _ :=
    .fill rfl (.fallback (by decide) (Template.parts_keyAndFallback _) rfl) last
  have hy : Substitutes context (Template.enclose ['y'] ++ _) _ :=
    .fill rfl (.value (by decide) (Template.parts_keyAndFallback _) rfl) hz
  have hx : Substitutes context (Template.enclose "x: d".toList ++ _) _ :=
    .fill rfl (.value (by decide) (Template.parts_keyAndFallback _) rfl) hy
  have hs : Substitutes context ('=' :: _) ('=' :: _) := .copy (by rintro _ _ _ ⟨⟩) hx
  have ht : template.toList = '=' :: (Template.enclose "x: d".toList ++ (Template.enclose ['y'] ++
      (Template.enclose "z: e".toList ++ Template.enclose []))) := by decide
  have ho : "=null${x}e$".toList = '=' :: (Value.null.display.toList ++ ("${x}".toList ++
      (['e'] ++ ['$']))) := by decide
  exact ⟨h, (render_eq_iff_substitutes h context template "=null${x}e$").1.2 (ht ▸ ho ▸ hs)⟩

end Stencil
