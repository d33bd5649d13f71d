import Stencil.Proofs.Lru.Refinement

namespace Stencil.Lru

variable {κ ν : Type} [Ord κ]

structure Synchronized (c : Lru κ ν) : Prop where
  order_iff : ∀ (k : κ) (t : Nat), c.order[t]? = some k ↔ ∃ v, c.entries[k]? = some (v, t)
  time_pos : ∀ (k : κ) (v : ν) (t : Nat), c.entries[k]? = some (v, t) → 0 < t
  time_le : ∀ (k : κ) (v : ν) (t : Nat), c.entries[k]? = some (v, t) → t ≤ c.clock
  size_le : c.entries.size ≤ c.capacity

theorem Synchronized.restamp_eq {c : Lru κ ν} (h : c.Synchronized) {k : κ} {v : ν} {last : Nat}
    (he : c.entries[k]? = some (v, last)) (now : Nat) :
    restamp c.order last now = (c.order.erase last).insert now k := by
  rw [restamp, (h.order_iff k last).2 ⟨v, he⟩]

inductive Ending
  | fits
  | orderEmpty
  deriving DecidableEq

/-- Giving up entries round by round, with the keys given up, the way it stops and what is kept. A round
gives up the oldest entry as long as there are more than fit, unless the order has no key to give up. -/
inductive Evicts (capacity : Nat) : Std.TreeMap κ (ν × Nat) → Std.TreeMap Nat κ → List κ → Ending →
    Std.TreeMap κ (ν × Nat) × Std.TreeMap Nat κ → Prop
  | fits {entries : Std.TreeMap κ (ν × Nat)} {order : Std.TreeMap Nat κ} :
    entries.size ≤ capacity → Evicts capacity entries order [] .fits (entries, order)
  | orderEmpty {entries : Std.TreeMap κ (ν × Nat)} {order : Std.TreeMap Nat κ} :
    capacity < entries.size → order.minKey? = none →
    Evicts capacity entries order [] .orderEmpty (entries, order)
  | round {entries : Std.TreeMap κ (ν × Nat)} {order : Std.TreeMap Nat κ} {time : Nat} {k : κ}
      {ks : List κ} {ending : Ending} {kept : Std.TreeMap κ (ν × Nat) × Std.TreeMap Nat κ} :
    capacity < entries.size → order.minKey? = some time → order[time]? = some k →
    Evicts capacity (entries.erase k) (order.erase time) ks ending kept →
    Evicts capacity entries order (k :: ks) ending kept

variable {capacity : Nat} {entries : Std.TreeMap κ (ν × Nat)} {order : Std.TreeMap Nat κ}
  {ks ks' : List κ} {ending ending' : Ending}
  {kept kept' : Std.TreeMap κ (ν × Nat) × Std.TreeMap Nat κ}

theorem Evicts.unique (h : Evicts capacity entries order ks ending kept)
    (h' : Evicts capacity entries order ks' ending' kept') :
    ks = ks' ∧ ending = ending' ∧ kept = kept' := by
  induction h generalizing ks' with
  | fits hs =>
    cases h' with
    | fits => exact ⟨rfl, rfl, rfl⟩
    | orderEmpty hl => exact absurd hs (Nat.not_le.2 hl)
    | round hl => exact absurd hs (Nat.not_le.2 hl)
  | orderEmpty hl hn =>
    cases h' with
    | fits hs => exact absurd hs (Nat.not_le.2 hl)
    | orderEmpty => exact ⟨rfl, rfl, rfl⟩
    | round _ ht => cases hn.symm.trans ht
  | round hl ht hk _ ih =>
    cases h' with
    | fits hs => exact absurd hs (Nat.not_le.2 hl)
    | orderEmpty _ hn => cases hn.symm.trans ht
    | round _ ht' hk' h' =>
      cases ht.symm.trans ht'
      cases hk.symm.trans hk'
      obtain ⟨hks, he⟩ := ih h'
      exact ⟨congrArg _ hks, he⟩

theorem exists_evicts_evict (capacity : Nat) (entries : Std.TreeMap κ (ν × Nat))
    (order : Std.TreeMap Nat κ) :
    ∃ ks ending, Evicts capacity entries order ks ending
      (evict capacity order.size entries order) := by
  generalize hr : order.size = rounds
  induction rounds generalizing entries order with
  | zero =>
    by_cases hl : capacity < entries.size
    · refine ⟨[], .orderEmpty, .orderEmpty hl ?_⟩
      rw [Std.TreeMap.minKey?_eq_none_iff, Std.TreeMap.isEmpty_eq_size_eq_zero, hr]
      rfl
    · exact ⟨[], .fits, .fits (Nat.not_lt.1 hl)⟩
  | succ rounds ih =>
    by_cases hl : capacity < entries.size
    · rw [evict, if_pos hl]
      cases ht : order.minKey? with
      | none => exact ⟨[], .orderEmpty, .orderEmpty hl ht⟩
      | some time =>
        have hm : time ∈ order := (Std.TreeMap.minKey?_eq_some_iff_mem_and_forall.1 ht).1
        have hsize : (order.erase time).size = rounds := by
          rw [Std.TreeMap.size_erase, if_pos (Std.TreeMap.contains_iff_mem.2 hm), hr, Nat.add_sub_cancel]
        obtain ⟨k, hk⟩ := Option.isSome_iff_exists.1 (Std.TreeMap.mem_iff_isSome_getElem?.1 hm)
        obtain ⟨ks, ending, he⟩ := ih (entries.erase k) (order.erase time) hsize
        simp only [hk]
        exact ⟨k :: ks, ending, .round hl ht hk he⟩
    · rw [evict, if_neg hl]
      exact ⟨[], .fits, .fits (Nat.not_lt.1 hl)⟩

theorem exists_evicts_put (c : Lru κ ν) {k : κ} (hk : c.entries[k]? = none) (v : ν) :
    ∃ ks ending, Evicts c.capacity (c.entries.insert k (v, c.clock + 1))
      (c.order.insert (c.clock + 1) k) ks ending ((c.put k v).entries, (c.put k v).order) := by
  rw [put, hk]
  exact exists_evicts_evict _ _ _

variable [Std.TransOrd κ] [Std.LawfulEqOrd κ]

theorem Evicts.getElem?_kept (h : Evicts capacity entries order ks ending kept) {k : κ}
    (hk : k ∉ ks) : kept.1[k]? = entries[k]? := by
  induction h with
  | fits => rfl
  | orderEmpty => rfl
  | round _ _ _ _ ih =>
    rw [List.mem_cons, not_or] at hk
    rw [ih hk.2, Std.TreeMap.getElem?_erase, if_neg]
    rw [Std.LawfulEqCmp.compare_eq_iff_eq]
    exact Ne.symm hk.1

variable [DecidableEq κ] {c : Lru κ ν} {l : List (Use κ ν)}

theorem Indexes.evicts {u : Use κ ν} (h : Indexes entries order (u :: l)) (hl : l.length ≤ capacity)
    (hc : 0 < capacity) :
    ∃ ks kept, Evicts capacity entries order ks .fits kept ∧ ks.length ≤ 1 ∧ u.key ∉ ks := by
  have hsize : entries.size = l.length + 1 := h.size_entries
  cases Nat.lt_or_eq_of_le hl with
  | inl hlt =>
    refine ⟨[], _, .fits ?_, Nat.zero_le 1, List.not_mem_nil⟩
    rw [hsize]
    exact hlt
  | inr heq =>
    cases l.eq_nil_or_concat with
    | inl hn =>
      rw [← heq, hn] at hc
      exact absurd hc (Nat.lt_irrefl 0)
    | inr hn =>
      obtain ⟨init, last, rfl⟩ := hn
      rw [List.concat_eq_append] at h heq hsize
      have hu : Indexes entries order ((u :: init) ++ [last]) := h
      have hne : u.key ≠ last.key := by
        intro he
        have hk := h.nodup_keys
        simp [he] at hk
      have hfit : (entries.erase last.key).size ≤ capacity := by
        rw [hu.erase_last.size_entries, ← heq]
        simp
      refine ⟨[last.key], _, .round ?_ hu.minKey?_order ?_ (.fits hfit), Nat.le_refl 1, ?_⟩
      · rw [hsize, heq]
        exact Nat.lt_succ_self capacity
      · rw [hu.order_iff]
        exact ⟨last.value, by simp⟩
      · rw [List.mem_singleton]
        exact hne

namespace Represents

variable (h : Represents c l)

include h

omit [DecidableEq κ] in
theorem synchronized : c.Synchronized := by
  constructor
  · intro k t
    rw [h.indexes.order_iff]
    simp only [h.indexes.entries_iff]
  · intro k v t he
    exact h.time_pos _ ((h.indexes.entries_iff k v t).1 he)
  · intro k v t he
    exact h.time_le _ ((h.indexes.entries_iff k v t).1 he)
  · rw [h.indexes.size_entries]
    exact h.length_le

theorem evicts_put {k : κ} (hk : c.entries[k]? = none) (v : ν) :
    ∃ ks, Evicts c.capacity (c.entries.insert k (v, c.clock + 1)) (c.order.insert (c.clock + 1) k)
      ks .fits ((c.put k v).entries, (c.put k v).order) ∧ ks.length ≤ 1 ∧ k ∉ ks := by
  have hnew : ∀ u ∈ l, u.key ≠ k := by
    intro u hu he
    have := (h.indexes.entries_iff u.key u.value u.time).2 hu
    rw [he, hk] at this
    cases this
  have hi := h.indexes.insert hnew (fun u hu => Nat.lt_succ_of_le (h.time_le u hu)) v
  obtain ⟨ks, kept, he, hlen, hks⟩ := hi.evicts h.length_le h.capacity_pos
  obtain ⟨ks', ending, hput⟩ := exists_evicts_put c hk v
  obtain ⟨rfl, rfl, rfl⟩ := he.unique hput
  exact ⟨ks, hput, hlen, hks⟩

theorem getElem?_put (k : κ) (v : ν) : (c.put k v).entries[k]? = some (v, c.clock + 1) := by
  cases hk : c.entries[k]? with
  | some e =>
    rw [Lru.put, hk]
    exact Std.TreeMap.getElem?_insert_self
  | none =>
    obtain ⟨ks, he, -, hks⟩ := h.evicts_put hk v
    rw [he.getElem?_kept hks]
    exact Std.TreeMap.getElem?_insert_self

end Represents

/-- In every state that a cache comes to, its two maps are inverse to each other, and no time in them is
past the clock, which has ticked once for each look-up and each put. So the time of an entry is always
found in the order when the entry is used again. A put stores its key. If the key is new, the put gives up
one key at most, which is another one, and stops as the others fit. -/
theorem synchronized_run (capacity : Nat) (calls : List (Call κ ν)) :
    let c := (Machine.run call (empty capacity) calls).2
    c.Synchronized ∧ c.capacity = max capacity 1 ∧ c.clock = calls.countP Call.isUse ∧
    (∀ k v last, c.entries[k]? = some (v, last) → c.order[last]? = some k ∧
      restamp c.order last (c.clock + 1) = (c.order.erase last).insert (c.clock + 1) k) ∧
    (∀ k v, (c.put k v).entries[k]? = some (v, c.clock + 1)) ∧
    ∀ k v, c.entries[k]? = none → ∃ ks, ks.length ≤ 1 ∧ k ∉ ks ∧ ∀ ks' ending kept,
      Evicts c.capacity (c.entries.insert k (v, c.clock + 1)) (c.order.insert (c.clock + 1) k)
          ks' ending kept ↔
        ks' = ks ∧ ending = .fits ∧ kept = ((c.put k v).entries, (c.put k v).order) := by
  intro c
  obtain ⟨-, hc, l, h, -⟩ := follows_run capacity calls
  have hs := h.synchronized
  have ht := (counts_run (empty capacity) calls).2.2
  rw [empty, Nat.zero_add] at ht
  refine ⟨hs, hc, ht, ?_, h.getElem?_put, ?_⟩
  · intro k v last he
    exact ⟨(hs.order_iff k last).2 ⟨v, he⟩, hs.restamp_eq he _⟩
  · intro k v hk
    obtain ⟨ks, he, hlen, hks⟩ := h.evicts_put hk v
    refine ⟨ks, hlen, hks, fun ks' ending kept => ⟨fun he' => he'.unique he, ?_⟩⟩
    rintro ⟨rfl, rfl, rfl⟩
    exact he

theorem synchronized_run_full :
    Std.TransOrd String ∧ Std.LawfulEqOrd String ∧
    let calls : List (Call String Nat) := [.put "a" 1, .put "b" 2, .get "a"]
    let c := (Machine.run call (empty 2) calls).2
    c.Synchronized ∧ c.capacity = 2 ∧ c.clock = 3 ∧ c.entries["a"]? = some (1, 3) ∧
      c.order[3]? = some "a" ∧ c.entries["d"]? = none ∧
      (c.put "d" 4).entries["d"]? = some (4, 4) ∧
      ∃ ks, ks.length ≤ 1 ∧ "d" ∉ ks ∧ Evicts 2 (c.entries.insert "d" (4, 4)) (c.order.insert 4 "d")
        ks .fits ((c.put "d" 4).entries, (c.put "d" 4).order) := by
  refine ⟨inferInstance, inferInstance, ?_⟩
  intro calls c
  have ha : c.entries["a"]? = some (1, 3) := rfl
  have hd : c.entries["d"]? = none := rfl
  obtain ⟨hs, hc, ht, hlast, hput, hnew⟩ := synchronized_run 2 calls
  have hclock : c.clock = 3 := ht
  rw [hclock] at hput hnew
  obtain ⟨ks, hlen, hks, he⟩ := hnew "d" 4 hd
  rw [hc] at he
  exact ⟨hs, hc, ht, ha, (hlast "a" 1 3 ha).1, hd, hput "d" 4, ks, hlen, hks,
    (he _ _ _).2 ⟨rfl, rfl, rfl⟩⟩

end Stencil.Lru
