import Mathlib.Data.List.Induction
import Stencil.Lru
import Stencil.Proofs.Machine

/-! A cache as a row of bindings, the one used last in front. This is what a cache means: it knows
no clock and no second map, and the binding used least recently is simply the last one. -/

namespace Stencil

namespace Lru

variable {κ ν : Type}

inductive Call (κ ν : Type)
  | put (key : κ) (value : ν)
  | get (key : κ)
  | contains (key : κ)
  | size
  | isEmpty

inductive Result (ν : Type)
  | done
  | value (v? : Option ν)
  | flag (b : Bool)
  | size (n : Nat)
  deriving DecidableEq

def call [Ord κ] (c : Lru κ ν) : Call κ ν → Result ν × Lru κ ν
  | .put k v => (.done, c.put k v)
  | .get k =>
    let (v?, c) := c.get? k
    (.value v?, c)
  | .contains k => (.flag (c.contains k), c)
  | .size => (.size c.size, c)
  | .isEmpty => (.flag c.isEmpty, c)

def Call.put? [DecidableEq κ] (k : κ) : Call κ ν → Option ν
  | .put j v => if j = k then some v else none
  | _ => none

def latestPut? [DecidableEq κ] (calls : List (Call κ ν)) (k : κ) : Option ν :=
  calls.reverse.findSome? (Call.put? k)

theorem latestPut?_concat [DecidableEq κ] (calls : List (Call κ ν)) (x : Call κ ν) (k : κ) :
    latestPut? (calls ++ [x]) k = (x.put? k).or (latestPut? calls k) :=
  Machine.findSome?_reverse_concat _ calls x

end Lru

namespace Recency

variable {κ ν : Type} [DecidableEq κ]

def without (k : κ) (l : List (κ × ν)) : List (κ × ν) := l.filter fun e => e.1 ≠ k

def put (capacity : Nat) (l : List (κ × ν)) (k : κ) (v : ν) : List (κ × ν) :=
  let l := (k, v) :: without k l
  if capacity < l.length then l.dropLast else l

def get? (l : List (κ × ν)) (k : κ) : Option ν × List (κ × ν) :=
  match l.lookup k with
  | some v => (some v, (k, v) :: without k l)
  | none => (none, l)

def contains (l : List (κ × ν)) (k : κ) : Bool := l.any fun e => e.1 = k

def call (capacity : Nat) (l : List (κ × ν)) : Lru.Call κ ν → Lru.Result ν × List (κ × ν)
  | .put k v => (.done, put capacity l k v)
  | .get k =>
    let (v?, l) := get? l k
    (.value v?, l)
  | .contains k => (.flag (contains l k), l)
  | .size => (.size l.length, l)
  | .isEmpty => (.flag l.isEmpty, l)

theorem mem_without {k : κ} {l : List (κ × ν)} {e : κ × ν} :
    e ∈ without k l ↔ e ∈ l ∧ e.1 ≠ k := by
  simp [without]

theorem length_without_le (k : κ) (l : List (κ × ν)) : (without k l).length ≤ l.length :=
  List.length_filter_le _ l

theorem length_without_lt {k : κ} {v : ν} {l : List (κ × ν)} (h : (k, v) ∈ l) :
    (without k l).length < l.length :=
  List.length_filter_lt_length_iff_exists.2 ⟨(k, v), h, by simp⟩

theorem without_eq_self {k : κ} {l : List (κ × ν)} (h : l.lookup k = none) : without k l = l := by
  rw [List.lookup_eq_none_iff] at h
  apply List.filter_eq_self.2
  intro e he
  simpa using Ne.symm (bne_iff_ne.1 (h e he))

theorem length_le_length_without {l : List (κ × ν)} (h : (l.map Prod.fst).Nodup) (k : κ) :
    l.length ≤ (without k l).length + 1 := by
  induction l with
  | nil => exact Nat.zero_le _
  | cons e l ih =>
    rw [List.map_cons, List.nodup_cons] at h
    by_cases he : e.1 = k
    · have hne : ∀ a ∈ l, a.1 ≠ k := by
        rintro a ha rfl
        exact h.1 (he ▸ List.mem_map_of_mem ha)
      have hw : without k (e :: l) = l := by simpa [without, he] using hne
      simp [hw]
    · have hw : without k (e :: l) = e :: without k l := by simp [without, he]
      simp [hw, ih h.2]

theorem nodup_without {l : List (κ × ν)} (h : (l.map Prod.fst).Nodup) (k : κ) :
    ((without k l).map Prod.fst).Nodup :=
  h.sublist (List.filter_sublist.map Prod.fst)

theorem nodup_cons_without {l : List (κ × ν)} (h : (l.map Prod.fst).Nodup) (k : κ) (v : ν) :
    (((k, v) :: without k l).map Prod.fst).Nodup := by
  rw [List.map_cons, List.nodup_cons]
  refine ⟨?_, nodup_without h k⟩
  intro hk
  simp [without] at hk

theorem mem_of_lookup {k : κ} {v : ν} {l : List (κ × ν)} (h : l.lookup k = some v) :
    (k, v) ∈ l := by
  rw [List.lookup_eq_some_iff] at h
  obtain ⟨l₁, l₂, rfl, -⟩ := h
  simp

theorem lookup_of_mem {k : κ} {v : ν} {l : List (κ × ν)} (h : (l.map Prod.fst).Nodup)
    (hm : (k, v) ∈ l) : l.lookup k = some v := by
  induction l with
  | nil => simp at hm
  | cons e l ih =>
    rw [List.map_cons, List.nodup_cons] at h
    cases hm with
    | head => simp
    | tail _ hm =>
      have hne : k ≠ e.1 := by
        intro he
        exact h.1 (he ▸ List.mem_map_of_mem hm)
      rw [List.lookup_cons, beq_false_of_ne hne]
      exact ih h.2 hm

theorem contains_eq_isSome_lookup (l : List (κ × ν)) (k : κ) :
    contains l k = (l.lookup k).isSome := by
  induction l with
  | nil => rfl
  | cons e l ih =>
    rw [contains, List.any_cons, List.lookup_cons, ← contains, ih]
    by_cases h : k = e.1
    · simp [h]
    · rw [beq_false_of_ne h, decide_eq_false (Ne.symm h)]
      rfl

structure Bounded (capacity : Nat) (l : List (κ × ν)) : Prop where
  nodup : (l.map Prod.fst).Nodup
  length_le : l.length ≤ capacity

omit [DecidableEq κ] in
theorem bounded_nil (capacity : Nat) : Bounded capacity ([] : List (κ × ν)) :=
  ⟨List.nodup_nil, Nat.zero_le _⟩

theorem Bounded.put {capacity : Nat} {l : List (κ × ν)} (h : Bounded capacity l) (k : κ) (v : ν) :
    Bounded capacity (put capacity l k v) := by
  have hn := nodup_cons_without h.nodup k v
  have hl := length_without_le k l
  have hc := h.length_le
  rw [Recency.put]
  split
  · constructor
    · exact hn.sublist ((List.dropLast_sublist _).map Prod.fst)
    · rw [List.length_dropLast, List.length_cons]
      omega
  · constructor
    · exact hn
    · omega

theorem Bounded.get? {capacity : Nat} {l : List (κ × ν)} (h : Bounded capacity l) (k : κ) :
    Bounded capacity (get? l k).2 := by
  rw [Recency.get?]
  split
  · rename_i v hv
    have hl := length_without_lt (mem_of_lookup hv)
    have hc := h.length_le
    refine ⟨nodup_cons_without h.nodup k v, ?_⟩
    rw [List.length_cons]
    omega
  · exact h

theorem Bounded.call {capacity : Nat} {l : List (κ × ν)} (h : Bounded capacity l)
    (x : Lru.Call κ ν) : Bounded capacity (call capacity l x).2 := by
  cases x with
  | put k v => exact h.put k v
  | get k => exact h.get? k
  | contains => exact h
  | size => exact h
  | isEmpty => exact h

theorem bounded_run (capacity : Nat) (calls : List (Lru.Call κ ν)) :
    Bounded capacity (Machine.run (call capacity) [] calls).2 :=
  Machine.run_invariant (fun _ x h => h.call x) (bounded_nil capacity) calls

theorem fst_get? (l : List (κ × ν)) (k : κ) : (get? l k).1 = l.lookup k := by
  rw [get?]
  cases l.lookup k <;> rfl

theorem map_fst_without (k : κ) (l : List (κ × ν)) :
    (without k l).map Prod.fst = (l.map Prod.fst).filter (· != k) := by
  rw [without, List.filter_map]
  congr 1
  apply List.filter_congr
  intro e _
  by_cases he : e.1 = k <;> simp [he]

theorem put_eq_take {capacity : Nat} {l : List (κ × ν)} (h : l.length ≤ capacity) (k : κ) (v : ν) :
    put capacity l k v = ((k, v) :: without k l).take capacity := by
  have hw := length_without_le k l
  rw [put]
  split
  · rename_i hc
    rw [List.length_cons] at hc
    rw [List.dropLast_eq_take, List.length_cons]
    congr 1
    omega
  · rename_i hc
    rw [List.take_of_length_le (Nat.not_lt.1 hc)]

theorem snd_get?_eq_put {capacity : Nat} {l : List (κ × ν)} (h : l.length ≤ capacity) {k : κ} {v : ν}
    (hk : l.lookup k = some v) : (get? l k).2 = put capacity l k v := by
  have hlt := length_without_lt (mem_of_lookup hk)
  rw [get?, hk, put, if_neg]
  rw [List.length_cons]
  omega

theorem mem_of_mem_put {capacity : Nat} {l : List (κ × ν)} {k : κ} {v : ν} {e : κ × ν}
    (h : e ∈ put capacity l k v) : e = (k, v) ∨ e ∈ l ∧ e.1 ≠ k := by
  have hm : e ∈ (k, v) :: without k l := by
    rw [put] at h
    split at h
    · exact (List.dropLast_sublist _).subset h
    · exact h
  rwa [List.mem_cons, mem_without] at hm

theorem mem_of_mem_call {capacity : Nat} {l : List (κ × ν)} {x : Lru.Call κ ν} {k : κ} {v : ν}
    (h : (k, v) ∈ (call capacity l x).2) :
    x.put? k = some v ∨ x.put? k = none ∧ (k, v) ∈ l := by
  cases x with
  | put j w =>
    cases mem_of_mem_put h with
    | inl he =>
      cases he
      exact .inl (if_pos rfl)
    | inr hj => exact .inr ⟨if_neg (Ne.symm hj.2), hj.1⟩
  | get j =>
    refine .inr ⟨rfl, ?_⟩
    rw [call, get?] at h
    cases hj : l.lookup j with
    | some w =>
      rw [hj] at h
      cases h with
      | head => exact mem_of_lookup hj
      | tail _ hm => exact (mem_without.1 hm).1
    | none =>
      rw [hj] at h
      exact h
  | contains => exact .inr ⟨rfl, h⟩
  | size => exact .inr ⟨rfl, h⟩
  | isEmpty => exact .inr ⟨rfl, h⟩

theorem latestPut?_of_mem_run (capacity : Nat) {calls : List (Lru.Call κ ν)} {k : κ} {v : ν}
    (h : (k, v) ∈ (Machine.run (call capacity) [] calls).2) :
    Lru.latestPut? calls k = some v := by
  induction calls using List.reverseRecOn with
  | nil => cases h
  | append_singleton calls x ih =>
    rw [Machine.run_append] at h
    rw [Lru.latestPut?_concat]
    cases mem_of_mem_call h with
    | inl hp => rw [hp]; rfl
    | inr hp => rw [hp.1, ih hp.2]; rfl

end Recency

end Stencil
