import Stencil.Proofs.Lru.Refinement

namespace Stencil

namespace Lru

structure Result.Kept {ν : Type} (a b : Result ν) : Prop where
  found : ∀ v, a = .value (some v) → b = .value (some v)
  missed : b.isMiss → a.isMiss

theorem Result.Kept.refl {ν : Type} (a : Result ν) : a.Kept a := ⟨fun _ => id, id⟩

theorem Result.Kept.isHit {ν : Type} {a b : Result ν} (h : a.Kept b) (ha : a.isHit) : b.isHit := by
  match a with
  | .value (some v) => simp [h.found v rfl, Result.isHit]

theorem countP_le_of_forall₂ {α β : Type} {p : α → Bool} {q : β → Bool} {as : List α} {bs : List β}
    (h : List.Forall₂ (fun a b => p a → q b) as bs) : as.countP p ≤ bs.countP q := by
  induction h with
  | nil => exact Nat.le_refl 0
  | @cons a b as bs hab _ ih =>
    rw [List.countP_cons, List.countP_cons]
    cases ha : p a with
    | true => simpa [hab ha] using ih
    | false => simpa using Nat.le_add_right_of_le ih

end Lru

namespace Recency

open Lru (Call Result)

theorem dropLast_sublist_dropLast {α : Type} {s l : List α} (h : s.Sublist l) :
    s.dropLast.Sublist l.dropLast := by
  have ht := h.reverse.tail
  rwa [List.tail_reverse, List.tail_reverse, List.reverse_sublist] at ht

variable {κ ν : Type} [DecidableEq κ] {small large : Nat} {s l : List (κ × ν)}

/-- The row of a smaller cache beside that of a larger one: a part of it in the same order, and full
unless it is all of it. -/
structure Inside (small : Nat) (s l : List (κ × ν)) : Prop where
  sublist : s.Sublist l
  full : s = l ∨ s.length = small

namespace Inside

theorem sublist_without (h : Inside small s l) (k : κ) : (without k s).Sublist (without k l) :=
  h.sublist.filter _

theorem lookup (h : Inside small s l) (hl : Bounded large l) {k : κ} {v : ν}
    (hv : s.lookup k = some v) : l.lookup k = some v := by
  apply lookup_of_mem hl.nodup
  apply h.sublist.subset
  apply mem_of_lookup hv

theorem put (h : Inside small s l) (hs : Bounded small s) (hl : Bounded large l)
    (hc : small ≤ large) (k : κ) (v : ν) :
    Inside small (put small s k v) (put large l k v) := by
  have hsub := (h.sublist_without k).cons_cons (k, v)
  have hlen := length_without_le k s
  have hfit := hs.length_le
  rw [Recency.put, Recency.put]
  by_cases hroom : small < ((k, v) :: without k s).length
  · rw [if_pos hroom]
    constructor
    · split
      · exact dropLast_sublist_dropLast hsub
      · exact (List.dropLast_sublist _).trans hsub
    · right
      rw [List.length_dropLast]
      rw [List.length_cons] at hroom ⊢
      omega
  · rw [if_neg hroom]
    cases h.full with
    | inl he =>
      subst he
      rw [if_neg (by omega)]
      exact ⟨hsub, .inl rfl⟩
    | inr hfull =>
      -- a full row that needs no room has the key already, and so has the larger one
      rw [List.length_cons] at hroom
      have hlt : (without k s).length < s.length := by omega
      obtain ⟨e, he, hk⟩ := List.length_filter_lt_length_iff_exists.1 hlt
      have hlarge : (without k l).length < l.length :=
        List.length_filter_lt_length_iff_exists.2 ⟨e, h.sublist.subset he, hk⟩
      have hone := length_le_length_without hs.nodup k
      have hfits := hl.length_le
      rw [if_neg (by rw [List.length_cons]; omega)]
      refine ⟨hsub, .inr ?_⟩
      rw [List.length_cons]
      omega

theorem get? (h : Inside small s l) (hs : Bounded small s) (hl : Bounded large l) (k : κ) :
    Inside small (get? s k).2 (get? l k).2 := by
  rw [Recency.get?, Recency.get?]
  cases hk : s.lookup k with
  | some v =>
    rw [h.lookup hl hk]
    refine ⟨(h.sublist_without k).cons_cons (k, v), ?_⟩
    cases h.full with
    | inl he => exact .inl (by rw [he])
    | inr hfull =>
      have hlt := length_without_lt (mem_of_lookup hk)
      have hone := length_le_length_without hs.nodup k
      right
      rw [List.length_cons]
      omega
  | none =>
    cases hk' : l.lookup k with
    | some v =>
      have hrest := h.sublist_without k
      rw [without_eq_self hk] at hrest
      refine ⟨hrest.cons (k, v), .inr ?_⟩
      cases h.full with
      | inl he => rw [he, hk'] at hk; cases hk
      | inr hfull => exact hfull
    | none => exact h

theorem call (h : Inside small s l) (hs : Bounded small s) (hl : Bounded large l)
    (hc : small ≤ large) (x : Call κ ν) :
    (call small s x).1.Kept (call large l x).1 ∧
      Inside small (call small s x).2 (call large l x).2 := by
  cases x with
  | put k v => exact ⟨.refl .done, h.put hs hl hc k v⟩
  | get k =>
    refine ⟨⟨?_, ?_⟩, h.get? hs hl k⟩
    · simp only [Recency.call, fst_get?, Result.value.injEq]
      exact fun v => h.lookup hl
    · simp only [Recency.call, fst_get?, Result.isMiss]
      cases hk : s.lookup k with
      | some v => simp [h.lookup hl hk]
      | none => simp
  | contains | size | isEmpty =>
    refine ⟨⟨?_, id⟩, h⟩
    intro v hv
    cases hv

end Inside

theorem inside_run (hc : small ≤ large) (calls : List (Call κ ν)) :
    let a := Machine.run (call small) [] calls
    let b := Machine.run (call large) [] calls
    List.Forall₂ Result.Kept a.1 b.1 ∧ Inside small a.2 b.2 := by
  let R := fun s l : List (κ × ν) => Bounded small s ∧ Bounded large l ∧ Inside small s l
  have step : ∀ s l x, True → R s l → (call small s x).1.Kept (call large l x).1 ∧
      R (call small s x).2 (call large l x).2 := by
    intro s l x _ ⟨hs, hl, h⟩
    have hx := h.call hs hl hc x
    exact ⟨hx.1, hs.call x, hl.call x, hx.2⟩
  have start : R [] [] := ⟨bounded_nil small, bounded_nil large, .slnil, .inl rfl⟩
  have all : ∀ x ∈ calls, True := fun _ _ => trivial
  have h := Machine.run_forall₂ step all start
  exact ⟨h.1, h.2.2.2⟩

end Recency

namespace Lru

variable {κ ν : Type} [Ord κ]

theorem Represents.mem_bindings_iff {c : Lru κ ν} {l : List (Use κ ν)} (h : Represents c l) {k : κ}
    {v : ν} : (k, v) ∈ l.map Use.binding ↔ ∃ t, c.entries[k]? = some (v, t) := by
  simp only [h.indexes.entries_iff, List.mem_map]
  constructor
  · rintro ⟨u, hu, hk⟩
    cases hk
    exact ⟨u.time, hu⟩
  · rintro ⟨t, ht⟩
    exact ⟨_, ht, rfl⟩

theorem hits_run_empty (capacity : Nat) (calls : List (Call κ ν)) :
    (Machine.run call (empty capacity) calls).2.hits =
      (Machine.run call (empty capacity) calls).1.countP Result.isHit :=
  (counts_run (empty capacity) calls).1.trans (Nat.zero_add _)

theorem misses_run_empty (capacity : Nat) (calls : List (Call κ ν)) :
    (Machine.run call (empty capacity) calls).2.misses =
      (Machine.run call (empty capacity) calls).1.countP Result.isMiss :=
  (counts_run (empty capacity) calls).2.1.trans (Nat.zero_add _)

variable [Std.TransOrd κ] [Std.LawfulEqOrd κ] [DecidableEq κ]

/-- After the same calls a larger cache holds every key that a smaller one holds, with the same value,
and it has found whatever the smaller one found. -/
theorem run_mono_capacity {small large : Nat} (h : small ≤ large) (calls : List (Call κ ν)) :
    let a := Machine.run call (empty small) calls
    let b := Machine.run call (empty large) calls
    a.2.recency.Sublist b.2.recency ∧
      (∀ (k : κ) (v : ν) t, a.2.entries[k]? = some (v, t) → ∃ t', b.2.entries[k]? = some (v, t')) ∧
      List.Forall₂ (fun x y => ∀ v, x = .value (some v) → y = .value (some v)) a.1 b.1 ∧
      a.2.hits ≤ b.2.hits ∧ b.2.misses ≤ a.2.misses := by
  intro a b
  have hc : max small 1 ≤ max large 1 := by omega
  obtain ⟨hk, hi⟩ := Recency.inside_run hc calls
  obtain ⟨ha, -, s, hs, es⟩ := follows_run small calls
  obtain ⟨hb, -, l, hl, el⟩ := follows_run large calls
  have hsub : (s.map Use.binding).Sublist (l.map Use.binding) := by
    rw [es, el]
    exact hi.sublist
  rw [← ha, ← hb] at hk
  refine ⟨?_, ?_, hk.imp fun _ _ hxy => hxy.found, ?_, ?_⟩
  · rw [hs.recency_eq, hl.recency_eq]
    exact hsub
  · intro k v t ht
    apply hl.mem_bindings_iff.1
    apply hsub.subset
    exact hs.mem_bindings_iff.2 ⟨t, ht⟩
  · rw [hits_run_empty, hits_run_empty]
    exact countP_le_of_forall₂ (hk.imp fun _ _ hxy => hxy.isHit)
  · rw [misses_run_empty, misses_run_empty]
    exact countP_le_of_forall₂ (hk.flip.imp fun _ _ hxy => hxy.missed)

theorem run_mono_capacity_refreshed :
    Std.TransOrd String ∧ Std.LawfulEqOrd String ∧ 2 ≤ 3 ∧
    let calls : List (Call String Nat) :=
      [.put "a" 1, .put "b" 2, .put "c" 3, .get "a", .put "d" 4, .get "c", .get "b", .put "a" 5]
    let a := Machine.run call (empty 2) calls
    let b := Machine.run call (empty 3) calls
    a.2.recency = [("a", 5), ("c", 3)] ∧ b.2.recency = [("a", 5), ("c", 3), ("d", 4)] ∧
      a.2.recency.Sublist b.2.recency ∧ a.2.hits ≤ b.2.hits ∧ b.2.misses ≤ a.2.misses := by
  refine ⟨inferInstance, inferInstance, by decide, ?_⟩
  intro calls a b
  obtain ⟨hsub, -, -, hh, hm⟩ := run_mono_capacity (show 2 ≤ 3 by decide) calls
  obtain ⟨-, -, s, hs, es⟩ := follows_run 2 calls
  obtain ⟨-, -, l, hl, el⟩ := follows_run 3 calls
  refine ⟨?_, ?_, hsub, hh, hm⟩
  · rw [hs.recency_eq, es]
    decide
  · rw [hl.recency_eq, el]
    decide

end Lru

end Stencil
