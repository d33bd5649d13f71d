import Stencil.Proofs.Template.Occurrence
import Stencil.Proofs.Template.Position

namespace Stencil

def Span.Tile : Nat → Nat → List Span → Prop
  | start, stop, [] => start = stop
  | start, stop, s :: ss => s.start = start ∧ s.start < s.stop ∧ Tile s.stop stop ss

/-- The slices of a template that a token is made from: the text of a literal, or a placeholder and
the text inside its braces. -/
def Token.Sliced (template : String) : Token → Prop
  | .literal text span =>
    Text.between? span.start (span.start + text.utf8ByteSize) template.toList = some text.toList
  | .placeholder _ _ span => ∃ inner,
    Text.between? span.start span.stop template.toList = some (Template.enclose inner) ∧
    Text.between? (span.start + 2) (span.stop - 1) template.toList = some inner

theorem Text.width_pos {cs : List Char} (h : cs ≠ []) : 0 < width cs := by
  cases cs with
  | nil => exact absurd rfl h
  | cons c cs =>
    rw [width_cons]
    exact Nat.add_pos_left c.utf8Size_pos (width cs)

theorem Text.isValid_width {s : String} {a b : List Char} (h : s.toList = a ++ b) :
    (⟨width a⟩ : String.Pos.Raw).IsValid s := by
  rw [String.Pos.Raw.isValid_iff_exists_append]
  refine ⟨String.ofList a, String.ofList b, ?_, ?_⟩
  · rw [← String.ofList_append, ← h, String.ofList_toList]
  · apply String.Pos.Raw.ext
    rw [String.byteIdx_rawEndPos, ← Text.width_eq_utf8ByteSize]

namespace Template

open Text (width between?)

variable {template : String}

theorem Chunk.Proper.source_ne_nil {k : Chunk} (h : k.Proper) : k.source ≠ [] := by
  cases k with
  | plain s => exact h.1
  | dollar s => simp [source, enclose]
  | hole inner => simp [source, enclose]

theorem tile_tokensFrom {start : Nat} {ks : List Chunk} (h : ∀ k ∈ ks, k.Proper) :
    Span.Tile start (start + width (ks.flatMap Chunk.source))
      ((tokensFrom start ks).map Token.span) := by
  induction ks generalizing start with
  | nil => rfl
  | cons k ks ih =>
    rw [List.forall_mem_cons] at h
    have hk : 0 < width k.source := Text.width_pos h.1.source_ne_nil
    rw [tokensFrom, List.map_cons, Chunk.span_token, List.flatMap_cons, Text.width_append,
      ← Nat.add_assoc]
    exact ⟨rfl, Nat.lt_add_of_pos_right hk, ih h.2⟩

theorem tile_tokens (template : String) :
    Span.Tile 0 template.utf8ByteSize ((tokens template).map Token.span) := by
  have hw : template.utf8ByteSize =
      0 + width ((chunks template.toList).flatMap Chunk.source) := by
    rw [flatMap_source_chunks, Text.width_toList, Nat.zero_add]
  rw [hw]
  exact tile_tokensFrom (proper_of_mem_chunks template.toList)

theorem tokens_eq_nil_iff : tokens template = [] ↔ template = "" := by
  constructor
  · intro h
    have ht := tile_tokens template
    rw [h] at ht
    exact String.utf8ByteSize_eq_zero_iff.1 ht.symm
  · intro h
    rw [h, tokens, String.toList_empty, chunks_nil]
    rfl

theorem isValid_span {t : Token} (h : t ∈ tokens template) :
    (⟨t.span.start⟩ : String.Pos.Raw).IsValid template ∧
      (⟨t.span.stop⟩ : String.Pos.Raw).IsValid template := by
  obtain ⟨before, k, behind, hk, rfl⟩ := mem_tokens_iff.1 h
  have hl := toList_eq_of_chunks hk
  rw [Chunk.span_token, ← Text.width_append]
  constructor
  · apply Text.isValid_width
    rw [hl, List.append_assoc]
  · exact Text.isValid_width hl

theorem between?_span_of_mem_tokens {t : Token} (h : t ∈ tokens template) :
    between? t.span.start t.span.stop template.toList = some (t.source template).toList := by
  obtain ⟨before, k, behind, hk, rfl⟩ := mem_tokens_iff.1 h
  rw [source_token hk, String.toList_ofList, Chunk.span_token]
  exact between?_of_chunks (s := []) hk rfl

theorem sliced_of_mem_tokens {t : Token} (h : t ∈ tokens template) : t.Sliced template := by
  obtain ⟨before, k, behind, hk, rfl⟩ := mem_tokens_iff.1 h
  have hl := toList_eq_of_chunks hk
  cases k with
  | plain s =>
    rw [Chunk.token_plain, Token.Sliced, String.toList_ofList, ← Text.width_eq_utf8ByteSize,
      Text.between?_eq_some_iff]
    exact ⟨_, _, hl, rfl, rfl⟩
  | dollar s =>
    rw [Chunk.token_dollar, Token.Sliced, String.toList_ofList, ← Text.width_eq_utf8ByteSize,
      Text.between?_eq_some_iff]
    refine ⟨before.flatMap Chunk.source, ['{', '}'] ++ behind.flatMap Chunk.source, ?_, rfl, rfl⟩
    rw [hl, Chunk.source]
    simp [enclose]
  | hole inner =>
    rw [Chunk.token_hole]
    refine ⟨inner, Text.between?_eq_some_iff.2 ⟨_, _, hl, rfl, rfl⟩, ?_⟩
    rw [Text.between?_eq_some_iff]
    refine ⟨before.flatMap Chunk.source ++ ['$', '{'], '}' :: behind.flatMap Chunk.source, ?_, ?_, ?_⟩
    · rw [hl, Chunk.source]
      simp [enclose]
    · rw [Text.width_append]
      rfl
    · rw [Text.width_append, width_enclose, ← Nat.add_assoc, ← Nat.add_assoc]
      rfl

theorem map_source_tokensFrom {before ks : List Chunk}
    (h : chunks template.toList = before ++ ks) :
    (tokensFrom (width (before.flatMap Chunk.source)) ks).map (Token.source template) =
      ks.map fun k => String.ofList k.source := by
  induction ks generalizing before with
  | nil => rfl
  | cons k ks ih =>
    have hks : chunks template.toList = before ++ [k] ++ ks := by
      rw [h, List.append_assoc, List.singleton_append]
    have hw : width ((before ++ [k]).flatMap Chunk.source) =
        width (before.flatMap Chunk.source) + width k.source := by
      simp
    rw [tokensFrom, List.map_cons, List.map_cons, source_token h, ← hw, ih hks]

theorem join_source_tokens :
    String.join ((tokens template).map (Token.source template)) = template := by
  have h : (tokens template).map (Token.source template) =
      (chunks template.toList).map fun k => String.ofList k.source :=
    map_source_tokensFrom (List.nil_append _).symm
  rw [h, ← String.toList_inj, String.toList_join, List.flatMap_map]
  simp only [String.toList_ofList]
  exact flatMap_source_chunks template.toList

/-- The spans of the tokens tile the template, at bounds of its characters, so that each slice that a
token is made from exists, and what the tokens hold at their spans makes up the template. -/
theorem spans_tile (template : String) :
    Span.Tile 0 template.utf8ByteSize ((tokens template).map Token.span) ∧
    (tokens template = [] ↔ template = "") ∧
    (∀ t ∈ tokens template, (⟨t.span.start⟩ : String.Pos.Raw).IsValid template ∧
      (⟨t.span.stop⟩ : String.Pos.Raw).IsValid template) ∧
    (∀ t ∈ tokens template, t.Sliced template ∧
      between? t.span.start t.span.stop template.toList = some (t.source template).toList) ∧
    String.join ((tokens template).map (Token.source template)) = template := by
  refine ⟨tile_tokens template, tokens_eq_nil_iff, fun _ h => isValid_span h, ?_, join_source_tokens⟩
  intro t h
  exact ⟨sliced_of_mem_tokens h, between?_span_of_mem_tokens h⟩

end Template

end Stencil
