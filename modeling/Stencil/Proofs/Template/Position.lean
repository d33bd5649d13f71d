import Stencil.Template

namespace Stencil

theorem Text.width_eq_utf8ByteSize (cs : List Char) :
    width cs = (String.ofList cs).utf8ByteSize := by
  induction cs with
  | nil => rfl
  | cons c cs ih =>
    rw [width_cons, ih, String.ofList_cons, String.utf8ByteSize_append,
      String.utf8ByteSize_singleton]

@[simp] theorem Text.width_toList (s : String) : width s.toList = s.utf8ByteSize := by
  rw [width_eq_utf8ByteSize, String.ofList_toList]

namespace Template

open Text (width between?)

@[simp] theorem width_enclose (inner : List Char) : width (enclose inner) = 2 + width inner + 1 := by
  rw [enclose, List.cons_append, List.cons_append, Text.width_cons, Text.width_cons,
    Text.width_append, ← Nat.add_assoc, ← Nat.add_assoc]
  rfl

@[simp] theorem Chunk.token_plain (start : Nat) (s : List Char) :
    (plain s).token start = .literal (String.ofList s) ⟨start, start + width s⟩ := rfl

@[simp] theorem Chunk.token_dollar (start : Nat) (s : List Char) :
    (dollar s).token start =
      .literal (String.ofList (s ++ ['$'])) ⟨start, start + width (s ++ enclose [])⟩ := rfl

@[simp] theorem Chunk.token_hole (start : Nat) (inner : List Char) :
    (hole inner).token start =
      .placeholder (String.ofList (keyAndFallback inner).1)
        (String.ofList (keyAndFallback inner).2) ⟨start, start + width (enclose inner)⟩ := rfl

theorem mem_tokensFrom_iff {start : Nat} {ks : List Chunk} {t : Token} :
    t ∈ tokensFrom start ks ↔
      ∃ before k behind, ks = before ++ k :: behind ∧
        t = k.token (start + width (before.flatMap Chunk.source)) := by
  induction ks generalizing start with
  | nil => simp [tokensFrom]
  | cons k ks ih =>
    rw [tokensFrom, List.mem_cons, ih]
    constructor
    · intro h
      cases h with
      | inl h => exact ⟨[], k, ks, rfl, h⟩
      | inr h =>
        obtain ⟨before, k', behind, rfl, ht⟩ := h
        refine ⟨k :: before, k', behind, rfl, ?_⟩
        rw [ht, List.flatMap_cons, Text.width_append, Nat.add_assoc]
    · intro ⟨before, k', behind, hk, ht⟩
      cases before with
      | nil =>
        obtain ⟨rfl, rfl⟩ := List.cons.inj hk
        exact .inl ht
      | cons k₀ before =>
        obtain ⟨rfl, rfl⟩ := List.cons.inj hk
        refine .inr ⟨before, k', behind, rfl, ?_⟩
        rw [ht, List.flatMap_cons, Text.width_append, Nat.add_assoc]

theorem mem_tokens_iff {template : String} {t : Token} :
    t ∈ tokens template ↔
      ∃ before k behind, chunks template.toList = before ++ k :: behind ∧
        t = k.token (width (before.flatMap Chunk.source)) := by
  rw [tokens, mem_tokensFrom_iff]
  simp only [Nat.zero_add]

theorem toList_eq_of_chunks {template : String} {before behind : List Chunk} {k : Chunk}
    (h : chunks template.toList = before ++ k :: behind) :
    template.toList =
      before.flatMap Chunk.source ++ k.source ++ behind.flatMap Chunk.source := by
  rw [← flatMap_source_chunks template.toList, h, List.flatMap_append, List.flatMap_cons,
    List.append_assoc]

theorem between?_of_chunks {template : String} {before behind : List Chunk} {k : Chunk} {s t : List Char}
    (h : chunks template.toList = before ++ k :: behind) (hk : k.source = s ++ t) :
    between? (width (before.flatMap Chunk.source) + width s)
      (width (before.flatMap Chunk.source) + width s + width t) template.toList = some t := by
  rw [Text.between?_eq_some_iff]
  refine ⟨before.flatMap Chunk.source ++ s, behind.flatMap Chunk.source, ?_, by simp, by simp⟩
  rw [toList_eq_of_chunks h, hk]
  simp

theorem source_token {template : String} {before behind : List Chunk} {k : Chunk}
    (h : chunks template.toList = before ++ k :: behind) :
    (k.token (width (before.flatMap Chunk.source))).source template = String.ofList k.source := by
  apply Token.source_eq (a := before.flatMap Chunk.source) (b := behind.flatMap Chunk.source)
  · rw [String.toList_ofList]
    exact toList_eq_of_chunks h
  · rw [Chunk.span_token]
  · rw [Chunk.span_token, String.toList_ofList]

end Template

end Stencil
