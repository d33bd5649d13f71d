import Stencil.Proofs.Lru.Order
import Stencil.Proofs.Machine

namespace Stencil.Lru

variable {κ ν : Type} [Ord κ]

def Use.notBefore (a b : Use κ ν) : Bool := b.time ≤ a.time

def uses (c : Lru κ ν) : List (Use κ ν) :=
  (c.entries.toList.map fun e => ⟨e.1, e.2.1, e.2.2⟩).mergeSort Use.notBefore

/-- The bindings of the entries, in descending order of the times of their last use. -/
def recency (c : Lru κ ν) : List (κ × ν) := c.uses.map Use.binding

@[simp] theorem capacity_get? (c : Lru κ ν) (k : κ) : (c.get? k).2.capacity = c.capacity := by
  rw [Lru.get?]
  split <;> rfl

@[simp] theorem capacity_put (c : Lru κ ν) (k : κ) (v : ν) :
    (c.put k v).capacity = c.capacity := by
  rw [Lru.put]
  split <;> rfl

@[simp] theorem capacity_call (c : Lru κ ν) (x : Call κ ν) :
    (c.call x).2.capacity = c.capacity := by
  cases x with
  | put k v => exact capacity_put c k v
  | get k => exact capacity_get? c k
  | contains | size | isEmpty => rfl

def Call.isUse : Call κ ν → Bool
  | .put _ _ => true
  | .get _ => true
  | _ => false

def Result.isHit : Result ν → Bool
  | .value v? => v?.isSome
  | _ => false

def Result.isMiss : Result ν → Bool
  | .value v? => v?.isNone
  | _ => false

theorem counts_call (c : Lru κ ν) (x : Call κ ν) :
    (c.call x).2.hits = c.hits + [(c.call x).1].countP Result.isHit ∧
      (c.call x).2.misses = c.misses + [(c.call x).1].countP Result.isMiss ∧
      (c.call x).2.clock = c.clock + [x].countP Call.isUse := by
  cases x with
  | put k v =>
    rw [Lru.call, Lru.put]
    cases c.entries[k]? <;> exact ⟨rfl, rfl, rfl⟩
  | get k =>
    rw [Lru.call, Lru.get?]
    cases c.entries[k]? <;> exact ⟨rfl, rfl, rfl⟩
  | contains | size | isEmpty => exact ⟨rfl, rfl, rfl⟩

theorem counts_run (c : Lru κ ν) (calls : List (Call κ ν)) :
    let real := Machine.run call c calls
    real.2.hits = c.hits + real.1.countP Result.isHit ∧
      real.2.misses = c.misses + real.1.countP Result.isMiss ∧
      real.2.clock = c.clock + calls.countP Call.isUse := by
  induction calls generalizing c with
  | nil => exact ⟨rfl, rfl, rfl⟩
  | cons x calls ih =>
    obtain ⟨hh, hm, ht⟩ := counts_call c x
    have h := ih (c.call x).2
    simp only [hh, hm, ht, Nat.add_assoc, ← List.countP_append, List.singleton_append] at h
    exact h

variable [Std.TransOrd κ] [Std.LawfulEqOrd κ] {c : Lru κ ν} {l : List (Use κ ν)}

theorem Indexes.perm_toList {entries : Std.TreeMap κ (ν × Nat)} {order : Std.TreeMap Nat κ}
    (h : Indexes entries order l) :
    (entries.toList.map fun e => (⟨e.1, e.2.1, e.2.2⟩ : Use κ ν)).Perm l := by
  rw [List.perm_ext_iff_of_nodup _ h.nodup]
  · intro u
    rw [List.mem_map]
    constructor
    · intro ⟨e, he, hu⟩
      rw [← hu, ← h.entries_iff]
      exact Std.TreeMap.mem_toList_iff_getElem?_eq_some.1 he
    · intro hu
      exact ⟨(u.key, u.value, u.time),
        Std.TreeMap.mem_toList_iff_getElem?_eq_some.2 ((h.entries_iff _ _ _).2 hu), rfl⟩
  · rw [List.Nodup, List.pairwise_map]
    apply Std.TreeMap.distinct_keys_toList.imp
    intro a b hab he
    apply hab
    rw [Std.LawfulEqCmp.compare_eq_iff_eq]
    exact congrArg Use.key he

theorem Represents.uses_eq (h : Represents c l) : c.uses = l := by
  have hp : c.uses.Perm l := (List.mergeSort_perm _ _).trans h.indexes.perm_toList
  have hs : c.uses.Pairwise fun a b => a.notBefore b :=
    List.pairwise_mergeSort (by simp [Use.notBefore]; omega) (by simp [Use.notBefore]; omega) _
  have hd : l.Pairwise fun a b => a.notBefore b := by
    apply h.indexes.descending.imp
    intro a b hab
    exact decide_eq_true (Nat.le_of_lt hab)
  apply hp.eq_of_pairwise _ hs hd
  intro a b ha hb hab hba
  apply h.indexes.eq_of_time (hp.subset ha) hb
  exact Nat.le_antisymm (of_decide_eq_true hba) (of_decide_eq_true hab)

theorem Represents.recency_eq (h : Represents c l) : c.recency = l.map Use.binding := by
  rw [recency, h.uses_eq]

variable [DecidableEq κ]

theorem Represents.get? (h : Represents c l) (k : κ) :
    ∃ l', Represents (c.get? k).2 l' ∧
      ((c.get? k).1, l'.map Use.binding) = Recency.get? (l.map Use.binding) k := by
  rw [Lru.get?, Recency.get?, h.indexes.lookup]
  cases he : c.entries[k]? with
  | some e =>
    have hm := (h.indexes.entries_iff k e.1 e.2).1 he
    refine ⟨_, h.refresh hm e.1 _ _, ?_⟩
    rw [List.map_cons, map_binding_filter]
    rfl
  | none => exact ⟨l, h.tick _ _, rfl⟩

theorem Represents.put (h : Represents c l) (k : κ) (v : ν) :
    ∃ l', Represents (c.put k v) l' ∧
      l'.map Use.binding = Recency.put c.capacity (l.map Use.binding) k v := by
  rw [Lru.put, Recency.put]
  cases he : c.entries[k]? with
  | some e =>
    have hm := (h.indexes.entries_iff k e.1 e.2).1 he
    have hr := h.refresh hm v c.hits c.misses
    refine ⟨_, hr, ?_⟩
    rw [List.map_cons, map_binding_filter, if_neg]
    · rfl
    · have := hr.length_le
      rw [← map_binding_filter]
      simpa using this
  | none =>
    have hk : ∀ u ∈ l, u.key ≠ k := by
      intro u hu hk
      have := (h.indexes.entries_iff u.key u.value u.time).2 hu
      rw [hk, he] at this
      cases this
    refine ⟨_, h.extend hk v, ?_⟩
    have hw : l.filter (fun u => u.key ≠ k) = l := List.filter_eq_self.2 (by simpa using hk)
    rw [← map_binding_filter, hw, List.length_cons, List.length_map]
    split
    · rw [List.map_dropLast]
      rfl
    · rfl

theorem Represents.call (h : Represents c l) (x : Call κ ν) :
    ∃ l', Represents (c.call x).2 l' ∧
      ((c.call x).1, l'.map Use.binding) = Recency.call c.capacity (l.map Use.binding) x := by
  cases x with
  | put k v =>
    obtain ⟨l', hr, hl⟩ := h.put k v
    exact ⟨l', hr, by rw [Recency.call, ← hl]; rfl⟩
  | get k =>
    obtain ⟨l', hr, hl⟩ := h.get? k
    exact ⟨l', hr, by rw [Recency.call, ← hl]; rfl⟩
  | contains k =>
    refine ⟨l, h, ?_⟩
    rw [Recency.call, Recency.contains_eq_isSome_lookup, h.indexes.lookup, Option.isSome_map,
      Std.TreeMap.isSome_getElem?_eq_contains]
    rfl
  | size =>
    refine ⟨l, h, ?_⟩
    rw [Recency.call, List.length_map, ← h.indexes.size_entries]
    rfl
  | isEmpty =>
    refine ⟨l, h, ?_⟩
    rw [Recency.call, Lru.call, Lru.isEmpty, size, h.indexes.size_entries]
    cases l <;> rfl

def Follows (capacity : Nat) (c : Lru κ ν) (row : List (κ × ν)) : Prop :=
  c.capacity = capacity ∧ ∃ l, Represents c l ∧ l.map Use.binding = row

namespace Follows

variable {capacity : Nat} {row : List (κ × ν)}

omit [DecidableEq κ] in
theorem recency_eq (h : Follows capacity c row) : c.recency = row := by
  obtain ⟨-, l, hl, rfl⟩ := h
  exact hl.recency_eq

omit [Std.TransOrd κ] [Std.LawfulEqOrd κ] [DecidableEq κ] in
theorem length_le (h : Follows capacity c row) : row.length ≤ capacity := by
  obtain ⟨rfl, l, hl, rfl⟩ := h
  rw [List.length_map]
  exact hl.length_le

omit [Std.TransOrd κ] [Std.LawfulEqOrd κ] [DecidableEq κ] in
theorem capacity_pos (h : Follows capacity c row) : 0 < capacity := by
  obtain ⟨rfl, l, hl, -⟩ := h
  exact hl.capacity_pos

theorem get? (h : Follows capacity c row) (k : κ) :
    (c.get? k).1 = row.lookup k ∧ Follows capacity (c.get? k).2 (Recency.get? row k).2 := by
  obtain ⟨rfl, l, hl, rfl⟩ := h
  obtain ⟨l', hl', hk⟩ := hl.get? k
  rw [← Recency.fst_get?, ← hk]
  exact ⟨rfl, capacity_get? c k, l', hl', rfl⟩

theorem put (h : Follows capacity c row) (k : κ) (v : ν) :
    Follows capacity (c.put k v) (Recency.put capacity row k v) := by
  obtain ⟨rfl, l, hl, rfl⟩ := h
  obtain ⟨l', hl', hk⟩ := hl.put k v
  exact ⟨capacity_put c k v, l', hl', hk⟩

theorem get?_put (h : Follows capacity c row) (k : κ) (v : ν) :
    ((c.put k v).get? k).1 = some v := by
  rw [((h.put k v).get? k).1, Recency.put_eq_take h.length_le,
    ← Nat.sub_one_add_one_eq_of_pos h.capacity_pos, List.take_succ_cons, List.lookup_cons_self]

end Follows

omit [DecidableEq κ] [Std.LawfulEqOrd κ] in
theorem follows_empty (capacity : Nat) :
    Follows (max capacity 1) (empty capacity : Lru κ ν) [] :=
  ⟨rfl, [], Represents.empty capacity, rfl⟩

theorem follows_run (capacity : Nat) (calls : List (Call κ ν)) :
    let real := Machine.run call (empty capacity) calls
    let row := Machine.run (Recency.call (max capacity 1)) [] calls
    real.1 = row.1 ∧ Follows (max capacity 1) real.2 row.2 := by
  have step : ∀ (c : Lru κ ν) (row : List (κ × ν)) (x : Call κ ν), True →
      Follows (max capacity 1) c row →
      (c.call x).1 = (Recency.call (max capacity 1) row x).1 ∧
        Follows (max capacity 1) (c.call x).2 (Recency.call (max capacity 1) row x).2 := by
    intro c row x _ ⟨hc, l, hr, hl⟩
    obtain ⟨l', hr', hx⟩ := hr.call x
    rw [hl, hc] at hx
    rw [← hx]
    exact ⟨rfl, by rw [capacity_call, hc], l', hr', rfl⟩
  exact Machine.run_simulation step (fun _ _ => trivial) (follows_empty capacity)

/-- On every run a cache answers as the row of its bindings does, which is its entries in descending
order of their times. The row holds no key twice, is never longer than the capacity, and binds a key
to the value put last. Every call that looks up or puts takes one tick of the clock. -/
theorem run_eq_run_recency (capacity : Nat) (calls : List (Call κ ν)) :
    let real := Machine.run call (empty capacity) calls
    let row := Machine.run (Recency.call (max capacity 1)) [] calls
    real.1 = row.1 ∧ real.2.recency = row.2 ∧
      (real.2.uses.Pairwise fun a b => b.time < a.time) ∧
      (row.2.map Prod.fst).Nodup ∧ row.2.length ≤ max capacity 1 ∧
      (∀ k v, (real.2.get? k).1 = some v → latestPut? calls k = some v) ∧
      real.2.hits = real.1.countP Result.isHit ∧
      real.2.misses = real.1.countP Result.isMiss ∧
      real.2.clock = calls.countP Call.isUse := by
  intro real row
  obtain ⟨ha, -, l, hr, hl⟩ := follows_run capacity calls
  have hb := Recency.bounded_run (max capacity 1) calls
  have hc := counts_run (empty capacity) calls
  simp only [empty, Nat.zero_add] at hc
  refine ⟨ha, hr.recency_eq.trans hl, hr.uses_eq ▸ hr.indexes.descending, hb.nodup, hb.length_le, ?_, hc⟩
  intro k v hk
  obtain ⟨l', -, hg⟩ := hr.get? k
  apply Recency.latestPut?_of_mem_run (max capacity 1)
  rw [← hl]
  apply Recency.mem_of_lookup
  rw [← Recency.fst_get?, ← hg]
  exact hk

theorem run_eq_run_recency_two :
    Std.TransOrd String ∧ Std.LawfulEqOrd String ∧
    let calls : List (Call String Nat) :=
      [.put "a" 1, .put "b" 2, .get "a", .put "c" 3, .get "b", .put "a" 4]
    let real := Machine.run call (empty 2) calls
    real.1 = [.done, .done, .value (some 1), .done, .value none, .done] ∧
      real.2.recency = [("a", 4), ("c", 3)] ∧ real.2.hits = 1 ∧ real.2.misses = 1 := by
  refine ⟨inferInstance, inferInstance, ?_⟩
  intro calls real
  obtain ⟨ha, hr, -, -, -, -, hh, hm, -⟩ := run_eq_run_recency 2 calls
  refine ⟨ha.trans (by decide), hr.trans (by decide), ?_, ?_⟩
  · rw [hh, ha]
    decide
  · rw [hm, ha]
    decide

end Stencil.Lru
