import Stencil.Proofs.Template.Occurrence
import Stencil.Proofs.Template.Position

namespace Stencil

theorem Text.length_le_of_splitOnce? {sep cs a b a' b' : List Char}
    (h : splitOnce? sep cs = some (a, b)) (h' : cs = a' ++ sep ++ b') : a.length ≤ a'.length := by
  fun_induction splitOnce? sep cs generalizing a a' with
  | case1 hs =>
    obtain ⟨rfl, rfl⟩ : [] = a ∧ [] = b := by simpa using h
    exact Nat.zero_le _
  | case2 => cases h
  | case3 c cs hp =>
    obtain ⟨rfl, -⟩ : [] = a ∧ _ = b := by simpa using h
    exact Nat.zero_le _
  | case4 c cs hp ih =>
    simp only [Option.map_eq_some_iff, Prod.exists, Prod.mk.injEq] at h
    obtain ⟨x, y, hxy, rfl, rfl⟩ := h
    cases a' with
    | nil =>
      exact absurd (List.isPrefixOf_iff_prefix.2 ⟨b', by simpa using h'.symm⟩) hp
    | cons d a' =>
      simp only [List.cons_append, List.cons.injEq] at h'
      exact Nat.succ_le_succ (ih hxy h'.2)

namespace Template

/-- The key and the fallback that an inner text stands for: what precedes and what follows the first
delimiter, or without one the whole inner text and the placeholder itself. -/
inductive Parts (inner : List Char) : List Char → List Char → Prop
  | split {key fallback : List Char} (whole : inner = key ++ delimiter ++ fallback)
    (first : ∀ a b, inner = a ++ delimiter ++ b → key.length ≤ a.length) :
    Parts inner key fallback
  | whole (none : ∀ a b, inner ≠ a ++ delimiter ++ b) : Parts inner inner (enclose inner)

theorem parts_keyAndFallback (inner : List Char) :
    Parts inner (keyAndFallback inner).1 (keyAndFallback inner).2 := by
  rw [keyAndFallback]
  cases h : Text.splitOnce? delimiter inner with
  | some p =>
    apply Parts.split
    · exact Text.eq_of_splitOnce? h
    · intro a b he
      exact Text.length_le_of_splitOnce? h he
  | none => exact .whole (Text.splitOnce?_eq_none_iff.1 h)

theorem Parts.unique {inner key fallback key' fallback' : List Char}
    (h : Parts inner key fallback) (h' : Parts inner key' fallback') :
    key = key' ∧ fallback = fallback' := by
  cases h with
  | split hw hf =>
    cases h' with
    | split hw' hf' =>
      have hl : key.length = key'.length := Nat.le_antisymm (hf _ _ hw') (hf' _ _ hw)
      rw [hw, List.append_assoc, List.append_assoc] at hw'
      obtain ⟨hk, hr⟩ := List.append_inj hw' hl
      exact ⟨hk, List.append_cancel_left hr⟩
    | whole hn => exact absurd hw (hn _ _)
  | whole hn =>
    cases h' with
    | split hw' _ => exact absurd hw' (hn _ _)
    | whole _ => exact ⟨rfl, rfl⟩

open Text (width between?)
open Chunk (Closes)

variable {template : String} {start stop : Nat}

theorem exists_closes_of_between? {inner : List Char} (hi : inner.all isInner)
    (h : between? start stop template.toList = some (enclose inner)) :
    ∃ before k behind s, chunks template.toList = before ++ k :: behind ∧ Closes k s inner ∧
      start = width (before.flatMap Chunk.source) + width s ∧
      stop = start + width (enclose inner) := by
  obtain ⟨a, b, hc, ha, hb⟩ := Text.between?_eq_some_iff.1 h
  obtain ⟨before, k, behind, s, hk, hs, rfl, -⟩ := exists_closes hi hc
  refine ⟨before, k, behind, s, hk, hs, ?_, ?_⟩
  · rw [← ha, Text.width_append]
  · rw [← hb, ha]

theorem placeholder_mem_tokens_iff {key fallback : String} :
    .placeholder key fallback ⟨start, stop⟩ ∈ tokens template ↔
      ∃ inner, inner ≠ [] ∧ inner.all isInner ∧
        between? start stop template.toList = some (enclose inner) ∧
        Parts inner key.toList fallback.toList := by
  rw [mem_tokens_iff]
  constructor
  · intro ⟨before, k, behind, hk, ht⟩
    have hp := proper_of_mem_chunks template.toList k (by rw [hk]; simp)
    cases k with
    | plain s => cases ht
    | dollar s => cases ht
    | hole inner =>
      rw [Chunk.token_hole, Token.placeholder.injEq, Span.mk.injEq] at ht
      obtain ⟨rfl, rfl, rfl, rfl⟩ := ht
      refine ⟨inner, hp.1, hp.2, between?_of_chunks (s := []) hk rfl, ?_⟩
      rw [String.toList_ofList, String.toList_ofList]
      exact parts_keyAndFallback inner
  · intro ⟨inner, hne, hi, hs, hparts⟩
    obtain ⟨before, k, behind, s, hk, hcl, rfl, rfl⟩ := exists_closes_of_between? hi hs
    cases hcl with
    | dollar => exact absurd rfl hne
    | hole =>
      refine ⟨before, .hole inner, behind, hk, ?_⟩
      obtain ⟨hkey, hfall⟩ := hparts.unique (parts_keyAndFallback inner)
      rw [Chunk.token_hole, ← hkey, ← hfall, String.ofList_toList, String.ofList_toList]
      rfl

theorem exists_placeholder_mem_tokens_iff :
    (∃ key fallback, .placeholder key fallback ⟨start, stop⟩ ∈ tokens template) ↔
      ∃ inner, inner ≠ [] ∧ inner.all isInner ∧
        between? start stop template.toList = some (enclose inner) := by
  constructor
  · intro ⟨key, fallback, h⟩
    obtain ⟨inner, hne, hi, hs, -⟩ := placeholder_mem_tokens_iff.1 h
    exact ⟨inner, hne, hi, hs⟩
  · intro ⟨inner, hne, hi, hs⟩
    refine ⟨String.ofList (keyAndFallback inner).1, String.ofList (keyAndFallback inner).2, ?_⟩
    apply placeholder_mem_tokens_iff.2
    refine ⟨inner, hne, hi, hs, ?_⟩
    rw [String.toList_ofList, String.toList_ofList]
    exact parts_keyAndFallback inner

theorem append_braces_ne (s : String) : s ≠ s ++ "{}" := by
  intro h
  have := congrArg String.length h
  rw [String.length_append] at this
  exact absurd this (Nat.ne_of_lt (Nat.lt_add_of_pos_right (by decide)))

theorem ofList_append_enclose_nil (s : List Char) :
    String.ofList (s ++ enclose []) = String.ofList (s ++ ['$']) ++ "{}" := by
  rw [← String.toList_inj, String.toList_append, String.toList_ofList, String.toList_ofList,
    List.append_assoc]
  rfl

theorem literal_mem_tokens {text : String} {span : Span}
    (h : .literal text span ∈ tokens template) :
    (Token.literal text span).source template = text ∧ Clean text.toList ∨
      (Token.literal text span).source template = text ++ "{}" ∧
        ∃ first, first + 3 = span.stop ∧
          between? first span.stop template.toList = some (enclose []) := by
  obtain ⟨before, k, behind, hk, ht⟩ := mem_tokens_iff.1 h
  have hp := proper_of_mem_chunks template.toList k (by rw [hk]; simp)
  have hs := source_token hk
  rw [← ht] at hs
  rw [hs]
  cases k with
  | plain s =>
    obtain ⟨rfl, rfl⟩ := Token.literal.inj ht
    rw [String.toList_ofList]
    exact .inl ⟨rfl, hp.2⟩
  | dollar s =>
    obtain ⟨rfl, rfl⟩ := Token.literal.inj ht
    have hb := between?_of_chunks hk (s := s) (t := enclose []) rfl
    rw [Nat.add_assoc _ (width s), ← Text.width_append s] at hb
    refine .inr ⟨ofList_append_enclose_nil s,
      width (before.flatMap Chunk.source) + width s, ?_, hb⟩
    rw [Chunk.source, Text.width_append, ← Nat.add_assoc]
    rfl
  | hole inner => cases ht

theorem between?_eq_dollar_iff :
    between? start stop template.toList = some (enclose []) ↔
      start + 3 = stop ∧ ∃ text first, .literal text ⟨first, stop⟩ ∈ tokens template ∧
        (Token.literal text ⟨first, stop⟩).source template = text ++ "{}" := by
  constructor
  · intro h
    obtain ⟨before, k, behind, s, hk, hcl, rfl, rfl⟩ := exists_closes_of_between? rfl h
    cases hcl with
    | dollar =>
      have hm : (Chunk.dollar s).token (width (before.flatMap Chunk.source)) ∈ tokens template :=
        mem_tokens_iff.2 ⟨before, _, behind, hk, rfl⟩
      have hs := source_token hk
      rw [Chunk.token_dollar, Text.width_append, ← Nat.add_assoc] at hm hs
      exact ⟨rfl, _, _, hm, hs.trans (ofList_append_enclose_nil s)⟩
    | hole hne => exact absurd rfl hne
  · intro ⟨hstop, text, first, hm, hs⟩
    cases literal_mem_tokens hm with
    | inl h => exact absurd (h.1.symm.trans hs) (append_braces_ne text)
    | inr h =>
      obtain ⟨-, start', hstart, hb⟩ := h
      rw [Nat.add_right_cancel (hstop.trans hstart.symm)]
      exact hb

/-- The slice between two offsets is a placeholder with an inner text exactly if a placeholder token
spans it, whose key and fallback are the parts of that text, and it is an empty placeholder exactly if
it ends a literal that loses its braces. All other literals are their source, in which no placeholder
stands. -/
theorem mem_tokens_iff_between? (template : String) (start stop : Nat) :
    ((∃ inner, inner ≠ [] ∧ inner.all isInner ∧
        between? start stop template.toList = some (enclose inner)) ↔
      ∃ key fallback, .placeholder key fallback ⟨start, stop⟩ ∈ tokens template) ∧
    (∀ inner key fallback, between? start stop template.toList = some (enclose inner) →
      .placeholder key fallback ⟨start, stop⟩ ∈ tokens template →
      Parts inner key.toList fallback.toList) ∧
    (between? start stop template.toList = some (enclose []) ↔
      start + 3 = stop ∧ ∃ text first, .literal text ⟨first, stop⟩ ∈ tokens template ∧
        (Token.literal text ⟨first, stop⟩).source template = text ++ "{}") ∧
    (∀ text span, .literal text span ∈ tokens template →
      (Token.literal text span).source template ≠ text ++ "{}" →
      (Token.literal text span).source template = text ∧ Clean text.toList) := by
  refine ⟨exists_placeholder_mem_tokens_iff.symm, ?_, between?_eq_dollar_iff, ?_⟩
  · intro inner key fallback hs hm
    obtain ⟨other, -, -, hother, hp⟩ := placeholder_mem_tokens_iff.1 hm
    rw [hs] at hother
    rwa [enclose_injective (Option.some.inj hother)]
  · intro text span hm hne
    cases literal_mem_tokens hm with
    | inl h => exact h
    | inr h => exact absurd h.1 hne

end Template

end Stencil
