import Stencil.Proofs.Lru.Content
import Stencil.Proofs.Lru.Refinement

namespace Stencil

namespace Recency

variable {κ ν : Type} [DecidableEq κ]

def fetch (make : κ → Option ν) (room : Nat) (row : List (κ × ν)) (k : κ) :
    Option ν × List (κ × ν) :=
  match get? row k with
  | (some v, row) => (some v, row)
  | (none, row) =>
    match make k with
    | some v => (some v, put room row k v)
    | none => (none, row)

theorem snd_fetch {make : κ → Option ν} {room : Nat} {row : List (κ × ν)} (h : row.length ≤ room)
    (hm : ∀ e ∈ row, make e.1 = some e.2) (k : κ) :
    (fetch make room row k).2 =
      match make k with
        | some v => put room row k v
        | none => row := by
  cases hk : row.lookup k with
  | some v =>
    rw [hm _ (mem_of_lookup hk)]
    dsimp only
    rw [← snd_get?_eq_put h hk, fetch, get?, hk]
  | none =>
    rw [fetch, get?, hk]
    cases make k <;> rfl

end Recency

namespace Lru

variable {κ ν : Type} [Ord κ]

def fetch (make : κ → Option ν) (c : Lru κ ν) (k : κ) : Option ν × Lru κ ν :=
  match c.get? k with
  | (some v, c) => (some v, c)
  | (none, c) =>
    match make k with
    | some v => (some v, c.put k v)
    | none => (none, c)

variable {make : κ → Option ν} {c : Lru κ ν} {P : κ → ν → Prop} {k : κ}

theorem All.fst_fetch (h : All P c) (make : κ → Option ν) (k : κ) :
    (c.fetch make k).1 = make k ∨ ∃ v, (c.fetch make k).1 = some v ∧ P k v := by
  have hv := fun v => h.of_get? (k := k) (v := v)
  rw [fetch]
  revert hv
  rcases c.get? k with ⟨_ | v, c⟩
  · intro _
    left
    cases make k <;> rfl
  · intro hv
    right
    exact ⟨v, rfl, hv v rfl⟩

theorem counts_get? (c : Lru κ ν) (k : κ) :
    (c.get? k).2.hits = c.hits + (if (c.get? k).1.isSome then 1 else 0) ∧
      (c.get? k).2.hits + (c.get? k).2.misses = c.hits + c.misses + 1 := by
  rw [Lru.get?]
  cases c.entries[k]? with
  | some e => exact ⟨rfl, Nat.add_right_comm _ _ _⟩
  | none => exact ⟨rfl, rfl⟩

theorem counts_put (c : Lru κ ν) (k : κ) (v : ν) :
    (c.put k v).hits = c.hits ∧ (c.put k v).misses = c.misses := by
  rw [Lru.put]
  cases c.entries[k]? <;> exact ⟨rfl, rfl⟩

theorem counts_fetch (make : κ → Option ν) (c : Lru κ ν) (k : κ) :
    (c.fetch make k).2.hits = c.hits + (if (c.get? k).1.isSome then 1 else 0) ∧
      (c.fetch make k).2.hits + (c.fetch make k).2.misses = c.hits + c.misses + 1 := by
  have hg := counts_get? c k
  rw [fetch]
  revert hg
  rcases c.get? k with ⟨_ | v, c'⟩
  · cases make k with
    | some v => simp [counts_put c' k v]
    | none => exact id
  · exact id

variable [Std.TransOrd κ] [Std.LawfulEqOrd κ]

theorem All.fetch (h : All P c) (hm : ∀ v, make k = some v → P k v) :
    All P (c.fetch make k).2 := by
  have hg := h.get? k
  rw [Lru.fetch]
  revert hg
  rcases c.get? k with ⟨_ | v, c⟩
  · intro hg
    cases hk : make k with
    | some v => exact hg.put (hm v hk)
    | none => exact hg
  · exact id

variable [DecidableEq κ] {room : Nat} {row : List (κ × ν)}

theorem Follows.fetch (h : Follows room c row) (make : κ → Option ν) (k : κ) :
    (c.fetch make k).1 = (Recency.fetch make room row k).1 ∧
      Follows room (c.fetch make k).2 (Recency.fetch make room row k).2 := by
  obtain ⟨hv, hg⟩ := h.get? k
  rw [← Recency.fst_get?] at hv
  rw [Lru.fetch, Recency.fetch]
  revert hv hg
  rcases c.get? k with ⟨found, c⟩
  rcases Recency.get? row k with ⟨found', row⟩
  rintro rfl hg
  cases found with
  | some v => exact ⟨rfl, hg⟩
  | none =>
    cases make k with
    | some v => exact ⟨rfl, hg.put k v⟩
    | none => exact ⟨rfl, hg⟩

end Lru

end Stencil
