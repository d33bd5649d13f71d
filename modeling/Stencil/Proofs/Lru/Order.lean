import Stencil.Proofs.Lru.Recency
import Stencil.Proofs.Lru.Uses

namespace Stencil.Lru

variable {κ ν : Type} [Ord κ]

variable {entries : Std.TreeMap κ (ν × Nat)} {order : Std.TreeMap Nat κ} {l : List (Use κ ν)}

theorem Indexes.minKey?_order {u : Use κ ν} (h : Indexes entries order (l ++ [u])) :
    order.minKey? = some u.time := by
  rw [Std.TreeMap.minKey?_eq_some_iff_mem_and_forall]
  constructor
  · rw [Std.TreeMap.mem_iff_isSome_getElem?, (h.order_iff u.time u.key).2 ⟨u.value, by simp⟩]
    rfl
  · intro t ht
    rw [Std.TreeMap.mem_iff_isSome_getElem?, Option.isSome_iff_exists] at ht
    obtain ⟨k, hk⟩ := ht
    obtain ⟨v, hv⟩ := (h.order_iff t k).1 hk
    have hd := (List.pairwise_append.1 h.descending).2.2
    rw [List.mem_append, List.mem_singleton] at hv
    rw [Nat.isLE_compare]
    cases hv with
    | inl hv => exact Nat.le_of_lt (hd _ hv u (by simp))
    | inr hv => exact Nat.le_of_eq (congrArg Use.time hv).symm

theorem evict_of_le {capacity : Nat} (hs : entries.size ≤ capacity) (rounds : Nat) :
    evict capacity rounds entries order = (entries, order) := by
  cases rounds with
  | zero => rfl
  | succ rounds => rw [evict, if_neg (Nat.not_lt.2 hs)]

variable [DecidableEq κ]

omit [Ord κ] in
theorem map_binding_filter (k : κ) (l : List (Use κ ν)) :
    (l.filter fun u => u.key ≠ k).map Use.binding = Recency.without k (l.map Use.binding) := by
  rw [Recency.without, List.filter_map]
  rfl

theorem Indexes.filter_last {u : Use κ ν} (h : Indexes entries order (l ++ [u])) :
    ((l ++ [u]).filter fun a => a.key ≠ u.key) = l := by
  have : ∀ a ∈ l, a.key ≠ u.key := by
    intro a ha he
    obtain rfl := h.eq_of_key (List.mem_append_left [u] ha) (by simp) he
    exact List.disjoint_of_nodup_append h.nodup ha (by simp)
  simpa [List.filter_append] using this

theorem Indexes.lookup (h : Indexes entries order l) (k : κ) :
    (l.map Use.binding).lookup k = entries[k]?.map Prod.fst := by
  cases he : entries[k]? with
  | some e =>
    have hm := (h.entries_iff k e.1 e.2).1 he
    apply Recency.lookup_of_mem
    · rw [List.map_map]
      exact h.nodup_keys
    · exact List.mem_map.2 ⟨_, hm, rfl⟩
  | none =>
    rw [Option.map_none, List.lookup_eq_none_iff]
    intro e hm
    obtain ⟨u, hu, rfl⟩ := List.mem_map.1 hm
    rw [bne_iff_ne]
    intro hk
    have := (h.entries_iff u.key u.value u.time).2 hu
    rw [show u.key = k from hk.symm, he] at this
    cases this

variable [Std.TransOrd κ] [Std.LawfulEqOrd κ]

namespace Indexes

variable {capacity : Nat}

theorem restamp (h : Indexes entries order l) {k : κ} {v : ν} {last now : Nat}
    (hm : ⟨k, v, last⟩ ∈ l) (hn : ∀ u ∈ l, u.time < now) (w : ν) :
    Indexes (entries.insert k (w, now)) (restamp order last now)
      (⟨k, w, now⟩ :: l.filter fun u => u.key ≠ k) := by
  have ho : order[last]? = some k := (h.order_iff last k).2 ⟨v, hm⟩
  have hk : ∀ u ∈ l.filter fun u => u.key ≠ k, u.key ≠ k := by simp
  have hi := (h.erase hm).insert hk (fun u hu => hn u (List.mem_of_mem_filter hu)) w
  rw [Lru.restamp, ho]
  refine ⟨?_, hi.order_iff, hi.descending⟩
  intro j x t
  rw [← hi.entries_iff, getElem?_insert_eq_ite, getElem?_insert_eq_ite, getElem?_erase_eq_ite]
  by_cases hj : j = k <;> simp [hj]

theorem erase_last {u : Use κ ν} (h : Indexes entries order (l ++ [u])) :
    Indexes (entries.erase u.key) (order.erase u.time) l := by
  have he := h.erase (List.mem_append_right l (List.mem_singleton_self u))
  rwa [h.filter_last] at he

theorem evict_last {u : Use κ ν} (h : Indexes entries order (l ++ [u]))
    (hc : l.length = capacity) (rounds : Nat) :
    evict capacity (rounds + 1) entries order = (entries.erase u.key, order.erase u.time) := by
  have ho : order[u.time]? = some u.key := (h.order_iff u.time u.key).2 ⟨u.value, by simp⟩
  have hover : capacity < entries.size := by
    rw [h.size_entries, List.length_append, hc]
    exact Nat.lt_succ_self capacity
  rw [Lru.evict, if_pos hover, h.minKey?_order]
  simp only [ho]
  apply evict_of_le
  exact Nat.le_of_eq (h.erase_last.size_entries.trans hc)

theorem evict (h : Indexes entries order l) (hl : l.length ≤ capacity + 1) (rounds : Nat) :
    Indexes (evict capacity (rounds + 1) entries order).1
      (Lru.evict capacity (rounds + 1) entries order).2
      (if capacity < l.length then l.dropLast else l) := by
  split
  · rename_i hc
    cases l.eq_nil_or_concat with
    | inl hn => simp [hn] at hc
    | inr hn =>
      obtain ⟨init, u, rfl⟩ := hn
      rw [List.concat_eq_append] at h hl hc ⊢
      rw [List.length_append, List.length_singleton] at hl hc
      rw [h.evict_last (by omega), List.dropLast_concat]
      exact h.erase_last
  · rename_i hc
    rw [evict_of_le (by rw [h.size_entries]; omega)]
    exact h

end Indexes

/-- The row of uses behind a cache: both maps index it, no time in it is past the clock, and it fits
into the capacity. -/
structure Represents (c : Lru κ ν) (l : List (Use κ ν)) : Prop where
  indexes : Indexes c.entries c.order l
  time_pos : ∀ u ∈ l, 0 < u.time
  time_le : ∀ u ∈ l, u.time ≤ c.clock
  length_le : l.length ≤ c.capacity
  capacity_pos : 0 < c.capacity

namespace Represents

variable {c : Lru κ ν}

omit [DecidableEq κ] [Std.LawfulEqOrd κ] in
theorem empty (capacity : Nat) : Represents (empty capacity : Lru κ ν) [] := by
  refine ⟨Indexes.empty, ?_, ?_, ?_, ?_⟩
  · simp
  · simp
  · exact Nat.zero_le _
  · exact Nat.lt_of_lt_of_le Nat.zero_lt_one (Nat.le_max_right capacity 1)

omit [DecidableEq κ] [Std.TransOrd κ] [Std.LawfulEqOrd κ] in
theorem tick (h : Represents c l) (hits misses : Nat) :
    Represents { c with clock := c.clock + 1, hits, misses } l :=
  ⟨h.indexes, h.time_pos, fun u hu => Nat.le_succ_of_le (h.time_le u hu), h.length_le,
    h.capacity_pos⟩

theorem refresh (h : Represents c l) {k : κ} {v : ν} {last : Nat} (hm : ⟨k, v, last⟩ ∈ l) (w : ν)
    (hits misses : Nat) :
    Represents
      { c with
        entries := c.entries.insert k (w, c.clock + 1)
        order := restamp c.order last (c.clock + 1)
        clock := c.clock + 1
        hits, misses }
      (⟨k, w, c.clock + 1⟩ :: l.filter fun u => u.key ≠ k) := by
  have hlt : (l.filter fun u => u.key ≠ k).length < l.length :=
    List.length_filter_lt_length_iff_exists.2 ⟨_, hm, by simp⟩
  refine ⟨?_, ?_, ?_, ?_, h.capacity_pos⟩
  · apply h.indexes.restamp hm
    intro u hu
    exact Nat.lt_succ_of_le (h.time_le u hu)
  · intro u hu
    cases hu with
    | head => exact Nat.succ_pos _
    | tail _ hu => exact h.time_pos u (List.mem_of_mem_filter hu)
  · intro u hu
    cases hu with
    | head => exact Nat.le_refl _
    | tail _ hu => exact Nat.le_succ_of_le (h.time_le u (List.mem_of_mem_filter hu))
  · exact Nat.le_trans hlt h.length_le

theorem extend (h : Represents c l) {k : κ} (hk : ∀ u ∈ l, u.key ≠ k) (v : ν) :
    let order := c.order.insert (c.clock + 1) k
    let kept := evict c.capacity order.size (c.entries.insert k (v, c.clock + 1)) order
    Represents { c with entries := kept.1, order := kept.2, clock := c.clock + 1 }
      (if c.capacity < l.length + 1 then (⟨k, v, c.clock + 1⟩ :: l).dropLast
        else ⟨k, v, c.clock + 1⟩ :: l) := by
  intro order kept
  have hi : Indexes (c.entries.insert k (v, c.clock + 1)) order (⟨k, v, c.clock + 1⟩ :: l) :=
    h.indexes.insert hk (fun u hu => Nat.lt_succ_of_le (h.time_le u hu)) v
  have hl := h.length_le
  have hsub : ∀ u ∈ (if c.capacity < l.length + 1 then (⟨k, v, c.clock + 1⟩ :: l).dropLast
      else ⟨k, v, c.clock + 1⟩ :: l), u = ⟨k, v, c.clock + 1⟩ ∨ u ∈ l := by
    intro u hu
    split at hu
    · exact List.mem_cons.1 ((List.dropLast_sublist _).subset hu)
    · exact List.mem_cons.1 hu
  refine ⟨?_, ?_, ?_, ?_, h.capacity_pos⟩
  · have he := hi.evict (Nat.succ_le_succ hl) l.length
    have hr : order.size = l.length + 1 := hi.size_order
    rw [← hr] at he
    exact he
  · intro u hu
    cases hsub u hu with
    | inl hu => simp [hu]
    | inr hu => exact h.time_pos u hu
  · intro u hu
    cases hsub u hu with
    | inl hu => simp [hu]
    | inr hu => exact Nat.le_succ_of_le (h.time_le u hu)
  · split
    · rw [List.length_dropLast, List.length_cons]
      exact hl
    · rename_i hc
      exact Nat.not_lt.1 hc

end Represents

end Stencil.Lru
