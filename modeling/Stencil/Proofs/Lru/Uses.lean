import Mathlib.Data.List.Nodup
import Stencil.Lru

/-! The two maps of a cache, seen as one row of uses: bindings with the time of their last use, the
latest in front. Both maps index the row, the first by key and the second by time. Every change of
the maps is a change of the row, so that they never come apart. -/

namespace Stencil.Lru

variable {κ ν : Type}

structure Use (κ ν : Type) where
  key : κ
  value : ν
  time : Nat

def Use.binding (u : Use κ ν) : κ × ν := (u.key, u.value)

variable [Ord κ]

structure Indexes (entries : Std.TreeMap κ (ν × Nat)) (order : Std.TreeMap Nat κ)
    (l : List (Use κ ν)) : Prop where
  entries_iff : ∀ k v t, entries[k]? = some (v, t) ↔ ⟨k, v, t⟩ ∈ l
  order_iff : ∀ t k, order[t]? = some k ↔ ∃ v, ⟨k, v, t⟩ ∈ l
  descending : l.Pairwise fun a b => b.time < a.time

variable {entries : Std.TreeMap κ (ν × Nat)} {order : Std.TreeMap Nat κ} {l : List (Use κ ν)}

namespace Indexes

theorem eq_of_key (h : Indexes entries order l) {a b : Use κ ν} (ha : a ∈ l) (hb : b ∈ l)
    (he : a.key = b.key) : a = b := by
  have h1 := (h.entries_iff a.key a.value a.time).2 ha
  have h2 := (h.entries_iff b.key b.value b.time).2 hb
  rw [he, h2] at h1
  cases a
  cases b
  simp_all

theorem nodup_times (h : Indexes entries order l) : (l.map Use.time).Nodup := by
  rw [List.Nodup, List.pairwise_map]
  apply h.descending.imp
  intro a b hab he
  exact absurd hab (he ▸ Nat.lt_irrefl _)

theorem nodup (h : Indexes entries order l) : l.Nodup := List.Nodup.of_map _ h.nodup_times

theorem nodup_keys (h : Indexes entries order l) : (l.map Use.key).Nodup := by
  apply h.nodup.map_on
  intro a ha b hb he
  exact h.eq_of_key ha hb he

theorem eq_of_time (h : Indexes entries order l) {a b : Use κ ν} (ha : a ∈ l) (hb : b ∈ l)
    (he : a.time = b.time) : a = b :=
  List.inj_on_of_nodup_map h.nodup_times ha hb he

end Indexes

variable [Std.TransOrd κ] [Std.LawfulEqOrd κ]

theorem size_eq_length {α β : Type} (m : Std.TreeMap κ β) {l : List α} (f : α → κ × β)
    (hn : (l.map f).Nodup) (h : ∀ k b, m[k]? = some b ↔ (k, b) ∈ l.map f) :
    m.size = l.length := by
  have hm : m.toList.Nodup := by
    apply Std.TreeMap.distinct_keys_toList.imp
    intro a b hab he
    exact hab (by rw [he, Std.LawfulEqCmp.compare_eq_iff_eq])
  have hp : m.toList.Perm (l.map f) := by
    rw [List.perm_ext_iff_of_nodup hm hn]
    intro (k, b)
    rw [Std.TreeMap.mem_toList_iff_getElem?_eq_some, h]
  rw [← Std.TreeMap.length_toList, hp.length_eq, List.length_map]

theorem Indexes.size_entries (h : Indexes entries order l) : entries.size = l.length := by
  apply size_eq_length entries fun u => (u.key, u.value, u.time)
  · apply List.Nodup.of_map Prod.fst
    rw [List.map_map]
    exact h.nodup_keys
  · intro k (v, t)
    rw [h.entries_iff, List.mem_map]
    constructor
    · intro hm
      exact ⟨_, hm, rfl⟩
    · intro ⟨u, hm, he⟩
      cases he
      exact hm

omit [Std.TransOrd κ] [Std.LawfulEqOrd κ] in
theorem Indexes.size_order (h : Indexes entries order l) : order.size = l.length := by
  apply size_eq_length order fun u => (u.time, u.key)
  · apply List.Nodup.of_map Prod.fst
    rw [List.map_map]
    exact h.nodup_times
  · intro t k
    rw [h.order_iff, List.mem_map]
    constructor
    · intro ⟨v, hm⟩
      exact ⟨_, hm, rfl⟩
    · intro ⟨u, hm, he⟩
      cases he
      exact ⟨u.value, hm⟩

variable [DecidableEq κ]

theorem getElem?_insert_eq_ite {β : Type} (m : Std.TreeMap κ β) (k j : κ) (b : β) :
    (m.insert k b)[j]? = if j = k then some b else m[j]? := by
  simp only [Std.TreeMap.getElem?_insert, Std.LawfulEqCmp.compare_eq_iff_eq,
    @eq_comm _ k]

theorem getElem?_erase_eq_ite {β : Type} (m : Std.TreeMap κ β) (k j : κ) :
    (m.erase k)[j]? = if j = k then none else m[j]? := by
  simp only [Std.TreeMap.getElem?_erase, Std.LawfulEqCmp.compare_eq_iff_eq,
    @eq_comm _ k]

namespace Indexes

omit [Std.LawfulEqOrd κ] [DecidableEq κ] in
theorem empty : Indexes (∅ : Std.TreeMap κ (ν × Nat)) ∅ [] := by
  constructor <;> simp

theorem insert (h : Indexes entries order l) {k : κ} {now : Nat} (hk : ∀ u ∈ l, u.key ≠ k)
    (hn : ∀ u ∈ l, u.time < now) (v : ν) :
    Indexes (entries.insert k (v, now)) (order.insert now k) (⟨k, v, now⟩ :: l) := by
  constructor
  · intro j w t
    rw [getElem?_insert_eq_ite, List.mem_cons]
    by_cases hj : j = k
    · subst hj
      have : (⟨j, w, t⟩ : Use κ ν) ∉ l := fun hm => hk _ hm rfl
      simp [this, eq_comm]
    · simp [hj, h.entries_iff]
  · intro t j
    rw [getElem?_insert_eq_ite]
    by_cases ht : t = now
    · subst ht
      have : ∀ w, (⟨j, w, t⟩ : Use κ ν) ∉ l := fun w hm => Nat.lt_irrefl _ (hn _ hm)
      simp [this, eq_comm]
    · simp [ht, h.order_iff]
  · exact List.pairwise_cons.2 ⟨hn, h.descending⟩

theorem erase (h : Indexes entries order l) {k : κ} {v : ν} {time : Nat} (hm : ⟨k, v, time⟩ ∈ l) :
    Indexes (entries.erase k) (order.erase time) (l.filter fun u => u.key ≠ k) := by
  constructor
  · intro j w t
    rw [getElem?_erase_eq_ite, List.mem_filter]
    by_cases hj : j = k
    · simp [hj]
    · simp [hj, h.entries_iff]
  · intro t j
    rw [getElem?_erase_eq_ite]
    simp only [List.mem_filter, decide_eq_true_eq]
    by_cases ht : t = time
    · subst ht
      have : ∀ w, (⟨j, w, t⟩ : Use κ ν) ∈ l → j = k := by
        intro w hw
        exact congrArg Use.key (h.eq_of_time hw hm rfl)
      simpa using this
    · have : ∀ w, (⟨j, w, t⟩ : Use κ ν) ∈ l → j ≠ k := by
        intro w hw he
        exact ht (congrArg Use.time (h.eq_of_key hw hm he))
      simp only [ht, if_false, h.order_iff]
      constructor
      · intro ⟨w, hw⟩
        exact ⟨w, hw, this w hw⟩
      · intro ⟨w, hw, _⟩
        exact ⟨w, hw⟩
  · exact h.descending.filter _

end Indexes

end Stencil.Lru
