import Stencil.Proofs.Rendering.Substitution
import Stencil.Proofs.Template.Spacing

/-! The placeholders of a template are filled one after the other from a supply of texts, which is asked by
the key and may answer otherwise the next time. A context and a list of values are two such supplies, and
what holds of each supply holds of both renderings. -/

namespace Stencil

abbrev Supply (σ : Type) := σ → String → Option String × σ

namespace Supply

def byKey : Supply Context := fun context key => (context.display? key, context)

def inOrder : Supply (List String)
  | [], _ => (none, [])
  | a :: args, _ => (some a, args)

end Supply

namespace Template

namespace Chunk

variable {σ τ : Type} {next : Supply σ}

def key? : Chunk → Option String
  | .hole inner => some (String.ofList (keyAndFallback inner).1)
  | _ => none

def supplied (next : Supply σ) (s : σ) : List Chunk → List Char
  | [] => []
  | .plain text :: ks => text ++ supplied next s ks
  | .dollar text :: ks => text ++ '$' :: supplied next s ks
  | .hole inner :: ks =>
    (next s (String.ofList (keyAndFallback inner).1)).1.elim (keyAndFallback inner).2 String.toList ++
      supplied next (next s (String.ofList (keyAndFallback inner).1)).2 ks

theorem supplied_cons (s : σ) (c : Char) (ks : List Chunk) :
    supplied next s (cons c ks) = c :: supplied next s ks := by
  match ks with
  | [] => rfl
  | .plain _ :: _ => rfl
  | .dollar _ :: _ => rfl
  | .hole _ :: _ => rfl

theorem supplied_foldr_cons (s : σ) (cs : List Char) (ks : List Chunk) :
    supplied next s (cs.foldr cons ks) = cs ++ supplied next s ks := by
  induction cs with
  | nil => rfl
  | cons c cs ih => rw [List.foldr_cons, supplied_cons, ih, List.cons_append]

theorem filterMap_key?_cons (c : Char) (ks : List Chunk) :
    (cons c ks).filterMap key? = ks.filterMap key? := by
  match ks with
  | [] => rfl
  | .plain _ :: _ => rfl
  | .dollar _ :: _ => rfl
  | .hole _ :: _ => rfl

theorem filterMap_key?_foldr_cons (cs : List Char) (ks : List Chunk) :
    (cs.foldr cons ks).filterMap key? = ks.filterMap key? := by
  induction cs with
  | nil => rfl
  | cons c cs ih => rw [List.foldr_cons, filterMap_key?_cons, ih]

theorem supplied_eq_of_rel {other : Supply τ} (R : σ → τ → Prop)
    (step : ∀ s t key, R s t → (next s key).1 = (other t key).1 ∧ R (next s key).2 (other t key).2)
    {s : σ} {t : τ} (h : R s t) (ks : List Chunk) : supplied next s ks = supplied other t ks := by
  induction ks generalizing s t with
  | nil => rfl
  | cons k ks ih =>
    cases k with
    | plain text => rw [supplied, supplied, ih h]
    | dollar text => rw [supplied, supplied, ih h]
    | hole inner =>
      obtain ⟨htext, hrest⟩ := step s t (String.ofList (keyAndFallback inner).1) h
      rw [supplied, supplied, htext, ih hrest]

theorem supplied_byKey (context : Context) (ks : List Chunk) :
    supplied .byKey context ks = ks.flatMap (filled context) := by
  induction ks with
  | nil => rfl
  | cons k ks ih =>
    rw [List.flatMap_cons, ← ih]
    cases k with
    | plain text => rfl
    | dollar text => rw [supplied, filled, List.append_assoc, List.singleton_append]
    | hole inner =>
      rw [supplied, filled, Supply.byKey, Context.display?]
      cases context.get? (String.ofList (keyAndFallback inner).1) <;> rfl

theorem toList_join_fillInOrder (start : Nat) (ks : List Chunk) (args : List String) :
    (String.join (Token.fillInOrder (tokensFrom start ks) args)).toList =
      supplied .inOrder args ks := by
  induction ks generalizing start args with
  | nil => rfl
  | cons k ks ih =>
    cases k with
    | plain text =>
      rw [tokensFrom, token_plain, Token.fillInOrder, String.join_cons, String.toList_append, ih,
        String.toList_ofList, supplied]
    | dollar text =>
      rw [tokensFrom, token_dollar, Token.fillInOrder, String.join_cons, String.toList_append, ih,
        String.toList_ofList, supplied, List.append_assoc, List.singleton_append]
    | hole inner =>
      rw [tokensFrom, token_hole, supplied]
      cases args with
      | nil =>
        rw [Token.fillInOrder, String.join_cons, String.toList_append, ih, String.toList_ofList]
        rfl
      | cons a args =>
        rw [Token.fillInOrder, String.join_cons, String.toList_append, ih]
        rfl

end Chunk

theorem filterMap_key?_tokensFrom (start : Nat) (ks : List Chunk) :
    (tokensFrom start ks).filterMap Token.key? = ks.filterMap Chunk.key? := by
  induction ks generalizing start with
  | nil => rfl
  | cons k ks ih =>
    rw [tokensFrom, List.filterMap_cons, List.filterMap_cons, ih]
    cases k <;> rfl

theorem keys_eq (template : String) :
    keys template = (chunks template.toList).filterMap Chunk.key? :=
  filterMap_key?_tokensFrom 0 _

theorem occurrence?_cons_of_ne {c : Char} (h : c ≠ '$') (cs : List Char) :
    occurrence? (c :: cs) = none := by
  cases cs with
  | nil => rfl
  | cons d cs => rw [occurrence?, if_neg fun hc => h hc.1]

theorem chunks_append_of_not_mem {cs : List Char} (h : '$' ∉ cs) (rest : List Char) :
    chunks (cs ++ rest) = cs.foldr Chunk.cons (chunks rest) := by
  induction cs with
  | nil => rfl
  | cons c cs ih =>
    rw [List.mem_cons, not_or] at h
    rw [List.cons_append, chunks_of_none (occurrence?_cons_of_ne (Ne.symm h.1) _), ih h.2,
      List.foldr_cons]

theorem dollar_not_mem_of_allBlank {cs : List Char} (h : Text.allBlank cs) : '$' ∉ cs := by
  intro hm
  exact absurd (List.all_eq_true.1 h _ hm) (by decide)

end Template

namespace Uncached

open Template (chunks)
open Template.Chunk (supplied)

theorem toList_render_eq_supplied (context : Context) (template : String) :
    (render context template).toList = supplied .byKey context (chunks template.toList) := by
  rw [Template.toList_render, Template.Chunk.supplied_byKey]

theorem toList_renderInOrder_eq_supplied (template : String) (args : List Value) :
    (renderInOrder template args).toList =
      supplied .inOrder (args.map Value.display) (chunks template.toList) := by
  rw [renderInOrder]
  split
  · -- a blank template is a single text, and asks the supply for nothing
    rename_i hb
    have hc := Template.chunks_append_of_not_mem (Template.dollar_not_mem_of_allBlank hb) []
    rw [List.append_nil, Template.chunks_nil] at hc
    rw [hc, Template.Chunk.supplied_foldr_cons, supplied, List.append_nil]
  · exact Template.Chunk.toList_join_fillInOrder 0 _ _

end Uncached

end Stencil
