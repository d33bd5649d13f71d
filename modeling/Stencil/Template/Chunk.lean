import Stencil.Text.Offset
import Stencil.Text.Search

/-! Templates taken apart at their placeholders. A placeholder is a text without braces and line
breaks between `${` and `}`; the empty one writes a dollar sign. -/

namespace Stencil.Template

def inner? : List Char → Option (List Char × List Char)
  | [] => none
  | c :: cs =>
    if c = '}' then some ([], cs)
    else if c = '{' ∨ c = '\n' then none
    else (inner? cs).map fun (inner, rest) => (c :: inner, rest)

def isInner (c : Char) : Bool := c ≠ '{' && c ≠ '}' && c ≠ '\n'

theorem inner?_eq_some_iff {cs inner rest : List Char} :
    inner? cs = some (inner, rest) ↔ cs = inner ++ '}' :: rest ∧ inner.all isInner := by
  induction cs generalizing inner with
  | nil => simp [inner?]
  | cons c cs ih =>
    rw [inner?]
    split
    · rename_i hc
      subst hc
      constructor
      · intro h
        obtain ⟨rfl, rfl⟩ : [] = inner ∧ cs = rest := by simpa using h
        simp
      · rintro ⟨h, hi⟩
        cases inner with
        | nil => simpa using h
        | cons d inner =>
          simp only [List.cons_append, List.cons.injEq] at h
          simp [← h.1, isInner] at hi
    · rename_i hc
      split
      · rename_i hb
        simp only [reduceCtorEq, false_iff]
        rintro ⟨h, hi⟩
        cases inner with
        | nil => simp at h; exact hc h.1
        | cons d inner =>
          simp only [List.cons_append, List.cons.injEq] at h
          rcases hb with hb | hb <;> simp [← h.1, isInner, hb] at hi
      · rename_i hb
        simp only [Option.map_eq_some_iff, Prod.exists, Prod.mk.injEq]
        constructor
        · rintro ⟨i, r, h, rfl, rfl⟩
          obtain ⟨rfl, hi⟩ := ih.1 h
          have hbr : c ≠ '{' := fun he => hb (.inl he)
          have hn : c ≠ '\n' := fun he => hb (.inr he)
          simp [isInner, hc, hbr, hn] at hi ⊢
          exact hi
        · rintro ⟨h, hi⟩
          cases inner with
          | nil => simp at h; exact absurd h.1 hc
          | cons d inner =>
            simp only [List.cons_append, List.cons.injEq] at h
            obtain ⟨rfl, h⟩ := h
            rw [List.all_cons, Bool.and_eq_true] at hi
            exact ⟨inner, rest, ih.2 ⟨h, hi.2⟩, rfl, rfl⟩

def occurrence? : List Char → Option (List Char × List Char)
  | c :: d :: cs => if c = '$' ∧ d = '{' then inner? cs else none
  | _ => none

def enclose (inner : List Char) : List Char := '$' :: '{' :: inner ++ ['}']

theorem occurrence?_eq_some_iff {cs inner rest : List Char} :
    occurrence? cs = some (inner, rest) ↔ cs = enclose inner ++ rest ∧ inner.all isInner := by
  match cs with
  | [] => simp [occurrence?, enclose]
  | [c] => simp [occurrence?, enclose]
  | c :: d :: cs =>
    simp only [occurrence?]
    split
    · rename_i h
      obtain ⟨rfl, rfl⟩ := h
      simp [inner?_eq_some_iff, enclose]
    · rename_i h
      simp only [reduceCtorEq, false_iff, enclose]
      rintro ⟨he, -⟩
      simp only [List.cons_append, List.cons.injEq] at he
      exact h ⟨he.1, he.2.1⟩

theorem occurrence?_eq_none_iff {cs : List Char} :
    occurrence? cs = none ↔ ∀ inner rest, inner.all isInner → cs ≠ enclose inner ++ rest := by
  rw [Option.eq_none_iff_forall_ne_some]
  constructor
  · intro h inner rest hi hc
    exact h (inner, rest) (occurrence?_eq_some_iff.2 ⟨hc, hi⟩)
  · intro h (inner, rest) ho
    obtain ⟨hc, hi⟩ := occurrence?_eq_some_iff.1 ho
    exact h inner rest hi hc

theorem length_of_occurrence? {cs inner rest : List Char}
    (h : occurrence? cs = some (inner, rest)) : rest.length < cs.length := by
  rw [(occurrence?_eq_some_iff.1 h).1]
  simp [enclose]
  omega

/-- A stretch of a template: text up to a placeholder or the end, text up to and with an empty
placeholder, or a placeholder. -/
inductive Chunk
  | plain (text : List Char)
  | dollar (text : List Char)
  | hole (inner : List Char)
  deriving DecidableEq

namespace Chunk

def source : Chunk → List Char
  | .plain s => s
  | .dollar s => s ++ enclose []
  | .hole inner => enclose inner

def cons (c : Char) : List Chunk → List Chunk
  | .plain s :: ks => .plain (c :: s) :: ks
  | .dollar s :: ks => .dollar (c :: s) :: ks
  | ks => .plain [c] :: ks

def ofInner (inner : List Char) : Chunk := if inner.isEmpty then .dollar [] else .hole inner

@[simp] theorem source_ofInner (inner : List Char) : (ofInner inner).source = enclose inner := by
  cases inner <;> rfl

@[simp] theorem flatMap_source_cons (c : Char) (ks : List Chunk) :
    (cons c ks).flatMap source = c :: ks.flatMap source := by
  match ks with
  | [] => rfl
  | .plain _ :: _ => rfl
  | .dollar _ :: _ => rfl
  | .hole _ :: _ => rfl

end Chunk

def chunks : List Char → List Chunk
  | [] => []
  | c :: cs =>
    match _h : occurrence? (c :: cs) with
    | some (inner, rest) => Chunk.ofInner inner :: chunks rest
    | none => Chunk.cons c (chunks cs)
termination_by cs => cs.length
decreasing_by
  · exact length_of_occurrence? _h
  · simp

@[simp] theorem chunks_nil : chunks [] = [] := by rw [chunks]

theorem chunks_of_occurrence {cs inner rest : List Char}
    (h : occurrence? cs = some (inner, rest)) :
    chunks cs = Chunk.ofInner inner :: chunks rest := by
  cases cs with
  | nil => simp [occurrence?] at h
  | cons c cs => rw [chunks]; split <;> simp_all

theorem chunks_enclose_append {inner : List Char} (hi : inner.all isInner) (rest : List Char) :
    chunks (enclose inner ++ rest) = Chunk.ofInner inner :: chunks rest :=
  chunks_of_occurrence (occurrence?_eq_some_iff.2 ⟨rfl, hi⟩)

theorem chunks_of_none {c : Char} {cs : List Char} (h : occurrence? (c :: cs) = none) :
    chunks (c :: cs) = Chunk.cons c (chunks cs) := by
  rw [chunks]; split <;> simp_all

theorem flatMap_source_chunks (cs : List Char) : (chunks cs).flatMap Chunk.source = cs := by
  fun_induction chunks cs with
  | case1 => rfl
  | case2 c cs inner rest h ih =>
    rw [List.flatMap_cons, ih, Chunk.source_ofInner]
    exact (occurrence?_eq_some_iff.1 h).1.symm
  | case3 c cs h ih => rw [Chunk.flatMap_source_cons, ih]

end Stencil.Template
