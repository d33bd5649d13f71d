import Stencil.Proofs.Template.Recognition
import Stencil.Proofs.Template.Spacing

namespace Stencil

open Template (enclose delimiter isInner)
open Text (width)

namespace Token

def isBraced : Token → Bool
  | .literal text span => span.stop == span.start + text.utf8ByteSize + 2
  | .placeholder _ _ _ => false

def written : Token → List Char
  | .literal text span =>
    if (literal text span).isBraced then text.toList ++ ['{', '}'] else text.toList
  | .placeholder key fallback _ =>
    if '{' ∈ fallback.toList then fallback.toList
    else enclose (key.toList ++ delimiter ++ fallback.toList)

def rebuild (ts : List Token) : String := String.ofList (ts.flatMap written)

/-- What a token of a template holds. A placeholder in the written form of a literal can only be the
empty one at the end of a braced literal. -/
def WellFormed : Token → Prop
  | .literal text span =>
    text ≠ "" ∧ ((literal text span).isBraced → ∃ s, text.toList = s ++ ['$']) ∧
      ∀ a inner b, inner.all isInner → (literal text span).written = a ++ enclose inner ++ b →
        (literal text span).isBraced ∧ inner = [] ∧ b = []
  | .placeholder key fallback _ =>
    key.toList.all isInner ∧ (∀ a b, key.toList ≠ a ++ delimiter ++ b) ∧
      (key ≠ "" ∧ fallback.toList = enclose key.toList ∨ fallback.toList.all isInner)

def Consecutive : Nat → List Token → Prop
  | _, [] => True
  | start, t :: ts =>
    t.span = ⟨start, start + width t.written⟩ ∧ Consecutive (start + width t.written) ts

/-- A literal that is not braced is the last token or stands before a placeholder. -/
def Separate : List Token → Prop
  | [] => True
  | [_] => True
  | t :: u :: ts => (t.isPlaceholder ∨ t.isBraced ∨ u.isPlaceholder) ∧ Separate (u :: ts)

structure Faithful (ts : List Token) : Prop where
  wellFormed : ∀ t ∈ ts, t.WellFormed
  consecutive : Consecutive 0 ts
  separate : Separate ts

end Token

namespace Template

open Chunk (Spaced)

theorem brace_not_mem {cs : List Char} (h : cs.all isInner) : '{' ∉ cs := by
  intro hm
  have := List.all_eq_true.1 h _ hm
  simp [isInner] at this

theorem length_le_of_append_delimiter {key fallback a b : List Char}
    (hk : ∀ a b, key ≠ a ++ delimiter ++ b)
    (h : key ++ delimiter ++ fallback = a ++ delimiter ++ b) : key.length ≤ a.length := by
  rw [List.append_assoc, List.append_assoc, List.append_eq_append_iff] at h
  cases h with
  | inl h =>
    obtain ⟨more, rfl, -⟩ := h
    simp
  | inr h =>
    obtain ⟨more, rfl, h⟩ := h
    match more with
    | [] => simp
    | [c] => simp [delimiter] at h -- a colon ends the key, but no blank follows it
    | c :: d :: more =>
      simp only [delimiter, List.cons_append, List.nil_append, List.cons.injEq] at h
      obtain ⟨rfl, rfl, -⟩ := h
      exact absurd (by simp [delimiter]) (hk a more)

theorem keyAndFallback_append {key : List Char} (hk : ∀ a b, key ≠ a ++ delimiter ++ b)
    (fallback : List Char) : keyAndFallback (key ++ delimiter ++ fallback) = (key, fallback) := by
  have hp : Parts (key ++ delimiter ++ fallback) key fallback :=
    .split rfl fun _ _ => length_le_of_append_delimiter hk
  obtain ⟨hkey, hfall⟩ := (parts_keyAndFallback _).unique hp
  exact Prod.ext hkey hfall

theorem keyAndFallback_of_forall_ne {key : List Char} (hk : ∀ a b, key ≠ a ++ delimiter ++ b) :
    keyAndFallback key = (key, enclose key) := by
  obtain ⟨hkey, hfall⟩ := (parts_keyAndFallback key).unique (.whole hk)
  exact Prod.ext hkey hfall

variable {start : Nat}

theorem isBraced_plain (s : List Char) : ((Chunk.plain s).token start).isBraced = false := by
  rw [Chunk.token_plain, Token.isBraced, ← Text.width_eq_utf8ByteSize, beq_eq_false_iff_ne]
  exact Nat.ne_of_lt (Nat.lt_add_of_pos_right Nat.two_pos)

theorem isBraced_dollar (s : List Char) : ((Chunk.dollar s).token start).isBraced = true := by
  rw [Chunk.token_dollar, Token.isBraced, ← Text.width_eq_utf8ByteSize, Text.width_append,
    Text.width_append, beq_iff_eq]
  rfl

theorem Parts.enclose_eq {inner key fallback : List Char} (h : Parts inner key fallback)
    (hi : inner.all isInner) :
    (if '{' ∈ fallback then fallback else enclose (key ++ delimiter ++ fallback)) =
      enclose inner := by
  cases h with
  | split whole _ =>
    rw [whole, List.all_append, Bool.and_eq_true] at hi
    rw [if_neg (brace_not_mem hi.2), ← whole]
  | whole _ => rw [if_pos (by simp [enclose])]

theorem written_token {k : Chunk} (hp : k.Proper) : (k.token start).written = k.source := by
  cases k with
  | plain s =>
    have hb : ((Chunk.plain s).token start).isBraced = false := isBraced_plain s
    rw [Chunk.token_plain] at hb ⊢
    rw [Token.written, hb, if_neg Bool.false_ne_true, String.toList_ofList, Chunk.source]
  | dollar s =>
    have hb : ((Chunk.dollar s).token start).isBraced = true := isBraced_dollar s
    rw [Chunk.token_dollar] at hb ⊢
    rw [Token.written, hb, if_pos rfl, String.toList_ofList, Chunk.source, List.append_assoc]
    rfl
  | hole inner =>
    rw [Chunk.token_hole, Token.written, String.toList_ofList, String.toList_ofList, Chunk.source]
    exact (parts_keyAndFallback inner).enclose_eq hp.2

theorem flatMap_written_tokensFrom {ks : List Chunk} (hp : ∀ k ∈ ks, k.Proper) :
    (tokensFrom start ks).flatMap Token.written = ks.flatMap Chunk.source := by
  induction ks generalizing start with
  | nil => rfl
  | cons k ks ih =>
    rw [List.forall_mem_cons] at hp
    rw [tokensFrom, List.flatMap_cons, List.flatMap_cons, written_token hp.1, ih hp.2]

theorem rebuild_tokens (template : String) : Token.rebuild (tokens template) = template := by
  rw [Token.rebuild, tokens, flatMap_written_tokensFrom (proper_of_mem_chunks _),
    flatMap_source_chunks, String.ofList_toList]

theorem eq_nil_of_append_enclose_nil {s a inner b : List Char} (hs : Clean s)
    (hi : inner.all isInner) (h : s ++ enclose [] = a ++ enclose inner ++ b) :
    inner = [] ∧ b = [] := by
  have hk : chunks (s ++ enclose []) = [.dollar s] := by
    have hp : ∀ k ∈ [Chunk.dollar s], k.Proper := List.forall_mem_singleton.2 hs
    have hk := chunks_flatMap_source hp (.dollar .nil)
    rwa [List.flatMap_singleton] at hk
  obtain ⟨before, k, behind, s', hc, hcl, -, rfl⟩ := exists_closes hi h
  rw [hk] at hc
  cases before with
  | nil =>
    cases hc
    cases hcl
    exact ⟨rfl, rfl⟩
  | cons k' before => simp at hc

theorem Parts.wellFormed {inner key fallback : List Char} (h : Parts inner key fallback)
    (hne : inner ≠ []) (hi : inner.all isInner) (span : Span) :
    (Token.placeholder (String.ofList key) (String.ofList fallback) span).WellFormed := by
  simp only [Token.WellFormed, String.toList_ofList]
  cases h with
  | split whole first =>
    rw [whole, List.all_append, List.all_append, Bool.and_eq_true, Bool.and_eq_true] at hi
    refine ⟨hi.1.1, ?_, .inr hi.2⟩
    intro a b he
    -- a delimiter in the key would stand before the first one
    have hle := first a (b ++ delimiter ++ fallback) (by rw [whole, he]; simp)
    rw [he, List.length_append, List.length_append] at hle
    have : 0 < delimiter.length := by decide
    omega
  | whole none =>
    refine ⟨hi, none, .inl ⟨?_, rfl⟩⟩
    rw [ne_eq, String.ofList_eq_empty_iff]
    exact hne

theorem wellFormed_token {k : Chunk} (hp : k.Proper) : (k.token start).WellFormed := by
  have hw : (k.token start).written = k.source := written_token hp
  cases k with
  | plain s =>
    have hb : ((Chunk.plain s).token start).isBraced = false := isBraced_plain s
    rw [Chunk.token_plain] at hb hw ⊢
    rw [Token.WellFormed, hw, hb]
    refine ⟨?_, fun h => absurd h Bool.false_ne_true, ?_⟩
    · rw [ne_eq, String.ofList_eq_empty_iff]
      exact hp.1
    · intro a inner b hi he
      exact absurd he (hp.2 a inner b hi)
  | dollar s =>
    have hb : ((Chunk.dollar s).token start).isBraced = true := isBraced_dollar s
    rw [Chunk.token_dollar] at hb hw ⊢
    rw [Token.WellFormed, hw, hb, String.toList_ofList]
    refine ⟨?_, fun _ => ⟨s, rfl⟩, ?_⟩
    · rw [ne_eq, String.ofList_eq_empty_iff]
      simp
    · intro a inner b hi he
      exact ⟨rfl, eq_nil_of_append_enclose_nil hp hi he⟩
  | hole inner =>
    rw [Chunk.token_hole]
    exact (parts_keyAndFallback inner).wellFormed hp.1 hp.2 _

theorem consecutive_tokensFrom {ks : List Chunk} (hp : ∀ k ∈ ks, k.Proper) :
    Token.Consecutive start (tokensFrom start ks) := by
  induction ks generalizing start with
  | nil => exact trivial
  | cons k ks ih =>
    rw [List.forall_mem_cons] at hp
    rw [tokensFrom, Token.Consecutive, written_token hp.1, Chunk.span_token]
    exact ⟨rfl, ih hp.2⟩

theorem isPlaceholder_token_iff {k : Chunk} :
    (k.token start).isPlaceholder ↔ ∃ inner, k = .hole inner := by
  cases k <;> simp [Token.isPlaceholder, Token.key?]

theorem isBraced_token_iff {k : Chunk} : (k.token start).isBraced ↔ ∃ s, k = .dollar s := by
  cases k with
  | plain s => rw [isBraced_plain]; simp
  | dollar s => rw [isBraced_dollar]; simp
  | hole inner => simp [Token.isBraced]

theorem separate_tokensFrom_iff {ks : List Chunk} :
    Token.Separate (tokensFrom start ks) ↔ Spaced ks := by
  induction ks generalizing start with
  | nil => exact ⟨fun _ => .nil, fun _ => trivial⟩
  | cons k ks ih =>
    cases ks with
    | nil => exact ⟨fun _ => Chunk.spaced_singleton k, fun _ => trivial⟩
    | cons k' ks =>
      rw [tokensFrom, tokensFrom, Token.Separate, ← tokensFrom, ih, isPlaceholder_token_iff,
        isBraced_token_iff, isPlaceholder_token_iff, Chunk.spaced_cons_cons_iff]

theorem faithful_tokens (template : String) : Token.Faithful (tokens template) := by
  have hp := proper_of_mem_chunks template.toList
  refine ⟨?_, consecutive_tokensFrom hp, separate_tokensFrom_iff.2 (spaced_chunks _)⟩
  intro t ht
  obtain ⟨before, k, behind, hk, rfl⟩ := mem_tokens_iff.1 ht
  exact wellFormed_token (hp k (by rw [hk]; simp))

theorem Clean.of_append_enclose {s : List Char}
    (h : ∀ a inner b, inner.all isInner → s ++ enclose [] = a ++ enclose inner ++ b → b = []) :
    Clean s := by
  intro a inner b hi he
  have hb := h a inner (b ++ enclose []) hi (by rw [he, List.append_assoc])
  simp [enclose] at hb

theorem exists_chunk_of_literal {text : String} {span : Span}
    (hw : (Token.literal text span).WellFormed)
    (hs : span = ⟨start, start + width (Token.literal text span).written⟩) :
    ∃ k : Chunk, k.Proper ∧ k.token start = .literal text span := by
  obtain ⟨hne, hend, hocc⟩ := hw
  cases hb : (Token.literal text span).isBraced with
  | false =>
    rw [Token.written, hb, if_neg Bool.false_ne_true] at hs hocc
    refine ⟨.plain text.toList, ⟨?_, ?_⟩, ?_⟩
    · rwa [ne_eq, String.toList_eq_nil_iff]
    · intro a inner b hi he
      exact Bool.false_ne_true (hb ▸ (hocc a inner b hi he).1)
    · rw [Chunk.token_plain, String.ofList_toList, ← hs]
  | true =>
    rw [Token.written, hb, if_pos rfl] at hs hocc
    obtain ⟨s, ht⟩ := hend hb
    have hd : text.toList ++ ['{', '}'] = s ++ enclose [] := by rw [ht, List.append_assoc]; rfl
    rw [hd] at hs hocc
    refine ⟨.dollar s, Clean.of_append_enclose fun a inner b hi he => (hocc a inner b hi he).2.2, ?_⟩
    rw [Chunk.token_dollar, ← ht, String.ofList_toList, ← hs]

theorem exists_chunk_of_placeholder {key fallback : String} {span : Span}
    (hw : (Token.placeholder key fallback span).WellFormed)
    (hs : span = ⟨start, start + width (Token.placeholder key fallback span).written⟩) :
    ∃ k : Chunk, k.Proper ∧ k.token start = .placeholder key fallback span := by
  obtain ⟨hi, hk, hf⟩ := hw
  cases hf with
  | inl hf =>
    obtain ⟨hne, hf⟩ := hf
    rw [Token.written, hf, if_pos (by simp [enclose])] at hs
    refine ⟨.hole key.toList, ⟨by rwa [ne_eq, String.toList_eq_nil_iff], hi⟩, ?_⟩
    rw [Chunk.token_hole, keyAndFallback_of_forall_ne hk, ← hf, String.ofList_toList,
      String.ofList_toList, hf, ← hs]
  | inr hf =>
    rw [Token.written, if_neg (brace_not_mem hf)] at hs
    refine ⟨.hole (key.toList ++ delimiter ++ fallback.toList), ⟨?_, ?_⟩, ?_⟩
    · simp [delimiter]
    · rw [List.all_append, List.all_append, hi, hf]
      rfl
    · rw [Chunk.token_hole, keyAndFallback_append hk, String.ofList_toList, String.ofList_toList,
        ← hs]

theorem exists_chunk {t : Token} (hw : t.WellFormed)
    (hs : t.span = ⟨start, start + width t.written⟩) :
    ∃ k : Chunk, k.Proper ∧ k.token start = t := by
  cases t with
  | literal text span => exact exists_chunk_of_literal hw hs
  | placeholder key fallback span => exact exists_chunk_of_placeholder hw hs

theorem exists_tokensFrom {ts : List Token} (hw : ∀ t ∈ ts, t.WellFormed)
    (hc : Token.Consecutive start ts) :
    ∃ ks, (∀ k ∈ ks, k.Proper) ∧ tokensFrom start ks = ts := by
  induction ts generalizing start with
  | nil => exact ⟨[], by simp, rfl⟩
  | cons t ts ih =>
    rw [List.forall_mem_cons] at hw
    obtain ⟨k, hk, rfl⟩ := exists_chunk hw.1 hc.1
    -- the next token starts where the chunk ends
    have hrest := hc.2
    rw [written_token hk] at hrest
    obtain ⟨ks, hks, rfl⟩ := ih hw.2 hrest
    exact ⟨k :: ks, List.forall_mem_cons.2 ⟨hk, hks⟩, rfl⟩

theorem tokens_rebuild {ts : List Token} (h : Token.Faithful ts) :
    tokens (Token.rebuild ts) = ts := by
  obtain ⟨ks, hp, rfl⟩ := exists_tokensFrom h.wellFormed h.consecutive
  have hs := separate_tokensFrom_iff.1 h.separate
  rw [Token.rebuild, flatMap_written_tokensFrom hp, tokens, String.toList_ofList,
    chunks_flatMap_source hp hs]

/-- Writing out the tokens of a template gives it back, so that no two templates have the same
tokens, and a list of tokens comes back from what it writes out exactly if it is faithful. -/
theorem tokens_rebuild_eq_iff_faithful :
    (∀ template, Token.rebuild (tokens template) = template) ∧
    (∀ template other, tokens template = tokens other ↔ template = other) ∧
    ∀ ts, tokens (Token.rebuild ts) = ts ↔ Token.Faithful ts := by
  refine ⟨rebuild_tokens, ?_, ?_⟩
  · intro template other
    constructor
    · intro h
      rw [← rebuild_tokens template, h, rebuild_tokens]
    · exact congrArg tokens
  · intro ts
    constructor
    · intro h
      rw [← h]
      exact faithful_tokens _
    · exact tokens_rebuild

end Template

end Stencil
