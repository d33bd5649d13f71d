import Stencil.Proofs.Renderer.Touch

namespace Stencil

namespace KeyStyle

def keyOf? (style : KeyStyle) (k : Value) : Option String := k.string?.bind style.key?

theorem keyOf?_plain_eq_some_iff {k : Value} {raw : String} :
    plain.keyOf? k = some raw ↔ k = .string raw := by
  constructor
  · intro h
    obtain ⟨s, hs, he⟩ := Option.bind_eq_some_iff.1 h
    cases he
    exact Value.eq_string_of_string? hs
  · rintro rfl
    rfl

end KeyStyle

namespace Arguments

/-- All keys, at the even positions, have a property. -/
def EachKey (P : Value → Prop) (kvs : List Value) : Prop :=
  ∀ i k, i % 2 = 0 → kvs[i]? = some k → P k

structure FirstKey (P : Value → Prop) (kvs : List Value) (i : Nat) (k : Value) : Prop where
  even : i % 2 = 0
  found : kvs[i]? = some k
  holds : P k
  first : ∀ j k', j < i → j % 2 = 0 → kvs[j]? = some k' → ¬ P k'

structure LastKey (P : Value → Prop) (kvs : List Value) (i : Nat) (k : Value) : Prop where
  even : i % 2 = 0
  found : kvs[i]? = some k
  holds : P k
  last : ∀ j k', i < j → j % 2 = 0 → kvs[j]? = some k' → ¬ P k'

variable {P : Value → Prop} {k v k' : Value} {kvs : List Value} {i j : Nat}

@[simp] theorem eachKey_nil : EachKey P [] := by
  intro i k _ h
  cases h

@[simp] theorem eachKey_cons_cons : EachKey P (k :: v :: kvs) ↔ P k ∧ EachKey P kvs := by
  constructor
  · intro h
    exact ⟨h 0 k rfl rfl, fun i k' hi hk => h (i + 2) k' (by omega) hk⟩
  · rintro ⟨hk, h⟩ i k' hi hf
    match i with
    | 0 =>
      cases hf
      exact hk
    | 1 => cases hi
    | i + 2 => exact h i k' (by omega) hf

namespace FirstKey

theorem head (h : P k) : FirstKey P (k :: v :: kvs) 0 k :=
  ⟨rfl, rfl, h, fun _ _ hj => absurd hj (Nat.not_lt_zero _)⟩

theorem tail (hk : ¬ P k) (h : FirstKey P kvs i k') : FirstKey P (k :: v :: kvs) (i + 2) k' := by
  refine ⟨by have := h.even; omega, h.found, h.holds, ?_⟩
  intro j k'' hj he hf
  match j with
  | 0 =>
    cases hf
    exact hk
  | 1 => cases he
  | j + 2 => exact h.first j k'' (by omega) (by omega) hf

theorem unique (h : FirstKey P kvs i k) (h' : FirstKey P kvs j k') : i = j ∧ k = k' := by
  have hle : ¬ i < j := fun hl => h'.first i k hl h.even h.found h.holds
  have hge : ¬ j < i := fun hl => h.first j k' hl h'.even h'.found h'.holds
  obtain rfl : i = j := by omega
  exact ⟨rfl, Option.some.inj (h.found.symm.trans h'.found)⟩

end FirstKey

theorem lastKey_cons_cons : LastKey P (k :: v :: kvs) i k' ↔
    i = 0 ∧ k = k' ∧ P k ∧ EachKey (¬ P ·) kvs ∨ ∃ j, i = j + 2 ∧ LastKey P kvs j k' := by
  constructor
  · intro h
    match i with
    | 0 =>
      cases h.found
      exact .inl ⟨rfl, rfl, h.holds, fun j k' he hf => h.last (j + 2) k' (by omega) (by omega) hf⟩
    | 1 => cases h.even
    | i + 2 =>
      refine .inr ⟨i, rfl, by have := h.even; omega, h.found, h.holds, ?_⟩
      exact fun j k' hj he hf => h.last (j + 2) k' (by omega) (by omega) hf
  · rintro (⟨rfl, rfl, hk, hn⟩ | ⟨j, rfl, h⟩)
    · refine ⟨rfl, rfl, hk, ?_⟩
      intro j k' hj he hf
      match j with
      | 1 => cases he
      | j + 2 => exact hn j k' (by omega) hf
    · refine ⟨by have := h.even; omega, h.found, h.holds, ?_⟩
      intro m k'' hm he hf
      match m with
      | m + 2 => exact h.last m k'' (by omega) (by omega) hf

section Keyed

variable {style : KeyStyle} {es : List (String × Value)}

theorem check_eq_ok_iff : check kvs = .ok es ↔ keyed? .plain kvs = some es := by
  rw [← toOption_check]
  cases check kvs <;> simp [Except.toOption]

theorem keyed?_cons_cons_eq_some_iff : keyed? style (k :: v :: kvs) = some es ↔
    ∃ key rest, style.keyOf? k = some key ∧ keyed? style kvs = some rest ∧ es = (key, v) :: rest := by
  rw [keyed?, ← KeyStyle.keyOf?]
  cases style.keyOf? k <;> cases keyed? style kvs <;> simp [eq_comm]

theorem length_of_keyed? (h : keyed? style kvs = some es) : kvs.length = 2 * es.length := by
  induction kvs using pairs?.induct generalizing es with
  | case1 =>
    cases h
    rfl
  | case2 k => cases h
  | case3 k v kvs ih =>
    obtain ⟨key, rest, -, hr, rfl⟩ := keyed?_cons_cons_eq_some_iff.1 h
    rw [List.length_cons, List.length_cons, List.length_cons, ih hr, Nat.mul_succ]

theorem eachKey_of_keyed? (h : keyed? style kvs = some es) : EachKey (style.keyOf? · ≠ none) kvs := by
  induction kvs using pairs?.induct generalizing es with
  | case1 => exact eachKey_nil
  | case2 k => cases h
  | case3 k v kvs ih =>
    obtain ⟨key, rest, hk, hr, rfl⟩ := keyed?_cons_cons_eq_some_iff.1 h
    exact eachKey_cons_cons.2 ⟨by simp [hk], ih hr⟩

theorem lookup_reverse_eq_none_iff (h : keyed? style kvs = some es) (key : String) :
    es.reverse.lookup key = none ↔ EachKey (style.keyOf? · ≠ some key) kvs := by
  induction kvs using pairs?.induct generalizing es with
  | case1 =>
    cases h
    simp
  | case2 k => cases h
  | case3 k v kvs ih =>
    obtain ⟨key', rest, hk, hr, rfl⟩ := keyed?_cons_cons_eq_some_iff.1 h
    rw [eachKey_cons_cons, Dict.lookup_reverse_cons, Option.or_eq_none_iff, ih hr, hk, and_comm]
    simp [eq_comm]

theorem lookup_reverse_eq_some_iff (h : keyed? style kvs = some es) (key : String) (a : Value) :
    es.reverse.lookup key = some a ↔
      ∃ i k, LastKey (style.keyOf? · = some key) kvs i k ∧ kvs[i + 1]? = some a := by
  induction kvs using pairs?.induct generalizing es with
  | case1 =>
    cases h
    simp
  | case2 k => cases h
  | case3 k v kvs ih =>
    obtain ⟨key', rest, hk, hr, rfl⟩ := keyed?_cons_cons_eq_some_iff.1 h
    have hn := lookup_reverse_eq_none_iff hr key
    rw [Dict.lookup_reverse_cons]
    constructor
    · intro hl
      cases hrest : rest.reverse.lookup key with
      | some b =>
        rw [hrest, Option.some_or] at hl
        obtain ⟨i, k', hi, ha⟩ := (ih hr).1 (hrest.trans hl)
        exact ⟨i + 2, k', lastKey_cons_cons.2 (.inr ⟨i, rfl, hi⟩), ha⟩
      | none =>
        rw [hrest, Option.none_or] at hl
        split at hl
        · rename_i he
          cases hl
          exact ⟨0, k, lastKey_cons_cons.2 (.inl ⟨rfl, rfl, he ▸ hk, hn.1 hrest⟩), rfl⟩
        · cases hl
    · rintro ⟨i, k', hi, ha⟩
      rcases lastKey_cons_cons.1 hi with ⟨rfl, rfl, hkey, he⟩ | ⟨j, rfl, hj⟩
      · cases hk.symm.trans hkey
        rw [hn.2 he, Option.none_or, if_pos rfl]
        exact ha
      · rw [(ih hr).2 ⟨j, k', hj, ha⟩, Option.some_or]

end Keyed

end Arguments

end Stencil
