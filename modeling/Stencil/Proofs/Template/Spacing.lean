import Stencil.Proofs.Template.Occurrence

namespace Stencil.Template

namespace Chunk

/-- No text stands beside other text that it could be one chunk with. -/
inductive Spaced : List Chunk → Prop
  | nil : Spaced []
  | dollar {s : List Char} {ks : List Chunk} : Spaced ks → Spaced (.dollar s :: ks)
  | hole {inner : List Char} {ks : List Chunk} : Spaced ks → Spaced (.hole inner :: ks)
  | last {s : List Char} : Spaced [.plain s]
  | plain {s inner : List Char} {ks : List Chunk} :
    Spaced (.hole inner :: ks) → Spaced (.plain s :: .hole inner :: ks)

theorem Spaced.ofInner {ks : List Chunk} (h : Spaced ks) (inner : List Char) :
    Spaced (ofInner inner :: ks) := by
  cases inner with
  | nil => exact .dollar h
  | cons c inner => exact .hole h

theorem Spaced.cons {ks : List Chunk} (h : Spaced ks) (c : Char) : Spaced (Chunk.cons c ks) := by
  cases h with
  | nil => exact .last
  | dollar h => exact .dollar h
  | hole h => exact .plain (.hole h)
  | last => exact .last
  | plain h => exact .plain h

theorem spaced_singleton (k : Chunk) : Spaced [k] := by
  cases k with
  | plain s => exact .last
  | dollar s => exact .dollar .nil
  | hole inner => exact .hole .nil

theorem spaced_cons_cons_iff {k k' : Chunk} {ks : List Chunk} :
    Spaced (k :: k' :: ks) ↔
      ((∃ inner, k = .hole inner) ∨ (∃ s, k = .dollar s) ∨ ∃ inner, k' = .hole inner) ∧
        Spaced (k' :: ks) := by
  constructor
  · intro h
    cases h with
    | dollar h => exact ⟨.inr (.inl ⟨_, rfl⟩), h⟩
    | hole h => exact ⟨.inl ⟨_, rfl⟩, h⟩
    | plain h => exact ⟨.inr (.inr ⟨_, rfl⟩), h⟩
  · rintro ⟨⟨inner, rfl⟩ | ⟨s, rfl⟩ | ⟨inner, rfl⟩, h⟩
    · exact .hole h
    · exact .dollar h
    · cases k with
      | plain s => exact .plain h
      | dollar s => exact .dollar h
      | hole inner => exact .hole h

@[simp] theorem ofInner_nil : ofInner [] = .dollar [] := rfl

theorem ofInner_of_ne_nil {inner : List Char} (h : inner ≠ []) : ofInner inner = .hole inner := by
  cases inner with
  | nil => exact absurd rfl h
  | cons c inner => rfl

theorem foldr_cons_dollar (s t : List Char) (ks : List Chunk) :
    s.foldr cons (.dollar t :: ks) = .dollar (s ++ t) :: ks := by
  induction s with
  | nil => rfl
  | cons c s ih => rw [List.foldr_cons, ih]; rfl

theorem foldr_cons_plain {s : List Char} (hs : s ≠ []) {ks : List Chunk}
    (hk : ∀ c, cons c ks = .plain [c] :: ks) : s.foldr cons ks = .plain s :: ks := by
  induction s with
  | nil => exact absurd rfl hs
  | cons c s ih =>
    cases s with
    | nil => exact hk c
    | cons d s => rw [List.foldr_cons, ih (List.cons_ne_nil d s)]; rfl

end Chunk

open Chunk (Spaced)

theorem spaced_chunks (cs : List Char) : Spaced (chunks cs) := by
  fun_induction chunks cs with
  | case1 => exact .nil
  | case2 c cs inner rest h ih => exact ih.ofInner inner
  | case3 c cs h ih => exact ih.cons c

theorem Clean.tail {c : Char} {cs : List Char} (h : Clean (c :: cs)) : Clean cs := by
  intro a inner b hi he
  exact h (c :: a) inner b hi (by rw [he]; rfl)

def Breaks (cs : List Char) : Prop :=
  cs = [] ∨ ∃ inner rest, inner.all isInner ∧ cs = enclose inner ++ rest

theorem breaks_enclose_append {inner : List Char} (hi : inner.all isInner) (rest : List Char) :
    Breaks (enclose inner ++ rest) :=
  .inr ⟨inner, rest, hi, rfl⟩

theorem Clean.occurrence?_eq_none {c : Char} {cs rest : List Char} (h : Clean (c :: cs))
    (hr : Breaks rest) : occurrence? (c :: (cs ++ rest)) = none := by
  rw [occurrence?_eq_none_iff]
  intro other behind hother he
  rw [← List.cons_append] at he
  cases hr with
  | inl hr =>
    rw [hr, List.append_nil] at he
    exact h [] other behind hother he
  | inr hr =>
    obtain ⟨inner, tail, -, rfl⟩ := hr
    rw [← List.append_assoc] at he
    cases append_of_enclose_append hother he.symm with
    | inl hnil => cases hnil
    | inr ha =>
      obtain ⟨a', ha, -⟩ := ha
      exact h [] other a' hother ha

theorem chunks_append_of_clean {s rest : List Char} (hs : Clean s) (hr : Breaks rest) :
    chunks (s ++ rest) = s.foldr Chunk.cons (chunks rest) := by
  induction s with
  | nil => rfl
  | cons c s ih =>
    have hn := hs.occurrence?_eq_none hr
    rw [List.cons_append, chunks_of_none hn, ih hs.tail, List.foldr_cons]

theorem chunks_flatMap_source {ks : List Chunk} (hp : ∀ k ∈ ks, k.Proper) (hs : Spaced ks) :
    chunks (ks.flatMap Chunk.source) = ks := by
  induction hs with
  | nil => exact chunks_nil
  | @dollar s ks _ ih =>
    rw [List.forall_mem_cons] at hp
    have hb : Breaks (enclose [] ++ ks.flatMap Chunk.source) := breaks_enclose_append rfl _
    rw [List.flatMap_cons, Chunk.source, List.append_assoc, chunks_append_of_clean hp.1 hb,
      chunks_enclose_append rfl, ih hp.2, Chunk.ofInner_nil, Chunk.foldr_cons_dollar,
      List.append_nil]
  | @hole inner ks _ ih =>
    rw [List.forall_mem_cons] at hp
    rw [List.flatMap_cons, Chunk.source, chunks_enclose_append hp.1.2,
      Chunk.ofInner_of_ne_nil hp.1.1, ih hp.2]
  | @last s =>
    obtain ⟨hne, hclean⟩ := hp _ List.mem_cons_self
    rw [List.flatMap_cons, Chunk.source, List.flatMap_nil, chunks_append_of_clean hclean (.inl rfl),
      chunks_nil, Chunk.foldr_cons_plain hne fun _ => rfl]
  | @plain s inner ks _ ih =>
    rw [List.forall_mem_cons] at hp
    -- text may go on only up to a placeholder: other text would join it
    have hi := (hp.2 _ List.mem_cons_self).2
    have hb : Breaks ((Chunk.hole inner :: ks).flatMap Chunk.source) := breaks_enclose_append hi _
    rw [List.flatMap_cons, Chunk.source, chunks_append_of_clean hp.1.2 hb, ih hp.2,
      Chunk.foldr_cons_plain hp.1.1 fun _ => rfl]

end Stencil.Template
