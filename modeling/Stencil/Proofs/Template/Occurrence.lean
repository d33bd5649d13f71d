import Stencil.Template.Chunk

/-! Every placeholder in a text, wherever it starts, is a chunk of its own or the end of one: two
placeholders never overlap, so that taking the first one never hides another. -/

namespace Stencil.Template

theorem append_of_inner_append {inner rest a tail : List Char} (hi : inner.all isInner)
    (h : inner ++ '}' :: rest = a ++ '$' :: '{' :: tail) :
    ∃ a', a = inner ++ '}' :: a' ∧ rest = a' ++ '$' :: '{' :: tail := by
  induction inner generalizing a with
  | nil =>
    cases a with
    | nil => simp at h
    | cons x a =>
      simp only [List.nil_append, List.cons_append, List.cons.injEq] at h
      exact ⟨a, by rw [h.1]; rfl, h.2⟩
  | cons d inner ih =>
    rw [List.all_cons, Bool.and_eq_true] at hi
    cases a with
    | nil =>
      cases inner with
      | nil => simp at h
      | cons e inner =>
        simp only [List.cons_append, List.nil_append, List.cons.injEq] at h
        simp [h.2.1, isInner] at hi
    | cons x a =>
      simp only [List.cons_append, List.cons.injEq] at h
      obtain ⟨a', ha, hr⟩ := ih hi.2 h.2
      exact ⟨a', by rw [ha, h.1]; rfl, hr⟩

theorem append_of_enclose_append {inner rest a other b : List Char} (hi : inner.all isInner)
    (h : enclose inner ++ rest = a ++ enclose other ++ b) :
    a = [] ∨ ∃ a', a = enclose inner ++ a' ∧ rest = a' ++ enclose other ++ b := by
  cases a with
  | nil => exact .inl rfl
  | cons c a =>
    cases a with
    | nil => simp [enclose] at h
    | cons d a =>
      simp only [enclose, List.cons_append, List.append_assoc, List.nil_append,
        List.cons.injEq] at h
      obtain ⟨rfl, rfl, h⟩ := h
      obtain ⟨a', rfl, rfl⟩ := append_of_inner_append hi h
      exact .inr ⟨a', by simp [enclose], by simp [enclose]⟩

theorem enclose_injective {inner other : List Char} (h : enclose inner = enclose other) :
    inner = other := by
  simpa [enclose] using h

/-- No placeholder, be it empty or not, stands in the text. -/
def Clean (cs : List Char) : Prop :=
  ∀ a inner b, inner.all isInner → cs ≠ a ++ enclose inner ++ b

theorem clean_nil : Clean [] := by
  intro a inner b _ h
  simp [enclose] at h

theorem Clean.cons {c : Char} {cs rest : List Char} (h : Clean cs)
    (hn : occurrence? (c :: (cs ++ rest)) = none) : Clean (c :: cs) := by
  intro a inner b hi he
  cases a with
  | nil =>
    have ho : occurrence? (c :: (cs ++ rest)) = some (inner, b ++ rest) := by
      rw [occurrence?_eq_some_iff, ← List.cons_append, he]
      exact ⟨by simp, hi⟩
    rw [hn] at ho
    cases ho
  | cons d a =>
    simp only [List.cons_append, List.cons.injEq] at he
    exact h a inner b hi he.2

namespace Chunk

def Proper : Chunk → Prop
  | .plain s => s ≠ [] ∧ Clean s
  | .dollar s => Clean s
  | .hole inner => inner ≠ [] ∧ inner.all isInner

/-- A chunk that ends with the placeholder of an inner text, behind some other text. -/
inductive Closes : Chunk → List Char → List Char → Prop
  | dollar (s : List Char) : Closes (.dollar s) s []
  | hole {inner : List Char} : inner ≠ [] → Closes (.hole inner) [] inner

theorem proper_ofInner {inner : List Char} (h : inner.all isInner) : (ofInner inner).Proper := by
  cases inner with
  | nil => exact clean_nil
  | cons c inner => exact ⟨List.cons_ne_nil c inner, h⟩

theorem closes_ofInner (inner : List Char) : (ofInner inner).Closes [] inner := by
  cases inner with
  | nil => exact .dollar []
  | cons c inner => exact .hole (List.cons_ne_nil c inner)

theorem cons_cons (c : Char) (k : Chunk) (ks : List Chunk) : cons c (k :: ks) = cons c [k] ++ ks := by
  cases k <;> rfl

theorem proper_cons {c : Char} {ks : List Chunk} (h : ∀ k ∈ ks, k.Proper)
    (hn : occurrence? (c :: ks.flatMap source) = none) : ∀ k ∈ cons c ks, k.Proper := by
  have single : Clean [c] := clean_nil.cons hn
  cases ks with
  | nil => simpa [cons, Proper] using single
  | cons k ks =>
    rw [List.forall_mem_cons] at h
    rw [List.flatMap_cons] at hn
    cases k with
    | plain s =>
      rw [cons, List.forall_mem_cons]
      exact ⟨⟨List.cons_ne_nil c s, h.1.2.cons hn⟩, h.2⟩
    | dollar s =>
      rw [source, List.append_assoc] at hn
      rw [cons, List.forall_mem_cons]
      exact ⟨Clean.cons h.1 hn, h.2⟩
    | hole inner =>
      simp only [cons, List.forall_mem_cons]
      exact ⟨⟨List.cons_ne_nil c [], single⟩, h⟩

end Chunk

open Chunk (Closes)

theorem proper_of_mem_chunks (cs : List Char) : ∀ k ∈ chunks cs, k.Proper := by
  fun_induction chunks cs with
  | case1 => simp
  | case2 c cs inner rest h ih =>
    rw [List.forall_mem_cons]
    exact ⟨Chunk.proper_ofInner (occurrence?_eq_some_iff.1 h).2, ih⟩
  | case3 c cs h ih =>
    apply Chunk.proper_cons ih
    rw [flatMap_source_chunks]
    exact h

theorem exists_closes {cs a inner b : List Char} (hi : inner.all isInner)
    (h : cs = a ++ enclose inner ++ b) :
    ∃ before k behind s, chunks cs = before ++ k :: behind ∧ Closes k s inner ∧
      a = before.flatMap Chunk.source ++ s ∧ b = behind.flatMap Chunk.source := by
  fun_induction chunks cs generalizing a with
  | case1 => simp [enclose] at h
  | case2 c cs other rest ho ih =>
    obtain ⟨hc, hother⟩ := occurrence?_eq_some_iff.1 ho
    rw [hc] at h
    cases append_of_enclose_append hother h with
    | inl ha =>
      have hb : occurrence? (c :: cs) = some (inner, b) :=
        occurrence?_eq_some_iff.2 ⟨by rw [hc, h, ha]; rfl, hi⟩
      rw [ho] at hb
      cases hb
      exact ⟨[], _, _, [], rfl, Chunk.closes_ofInner _, ha, (flatMap_source_chunks _).symm⟩
    | inr ha =>
      obtain ⟨a', rfl, hr⟩ := ha
      obtain ⟨before, k, behind, s, hk, hcl, ha', hb⟩ := ih hr
      refine ⟨.ofInner other :: before, k, behind, s, by rw [hk]; rfl, hcl, ?_, hb⟩
      rw [List.flatMap_cons, Chunk.source_ofInner, ha', List.append_assoc]
  | case3 c cs ho ih =>
    cases a with
    | nil =>
      rw [occurrence?_eq_some_iff.2 ⟨h, hi⟩] at ho
      cases ho
    | cons d a =>
      simp only [List.cons_append, List.cons.injEq] at h
      obtain ⟨rfl, h⟩ := h
      obtain ⟨before, k, behind, s, hk, hcl, ha, hb⟩ := ih h
      rw [hk]
      cases before with
      | nil =>
        cases hcl with
        | dollar => exact ⟨[], _, behind, c :: s, rfl, .dollar _, by rw [ha]; rfl, hb⟩
        | hole hne => exact ⟨[.plain [c]], _, behind, [], rfl, .hole hne, by rw [ha]; rfl, hb⟩
      | cons k' before =>
        refine ⟨Chunk.cons c [k'] ++ before, k, behind, s, ?_, hcl, ?_, hb⟩
        · rw [List.cons_append, Chunk.cons_cons, List.append_assoc]
        · rw [ha, List.flatMap_append, Chunk.flatMap_source_cons]
          simp

end Stencil.Template
