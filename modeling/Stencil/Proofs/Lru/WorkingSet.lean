import Stencil.Proofs.Lru.Fetch

namespace Stencil

namespace Recency

variable {κ : Type} [DecidableEq κ]

theorem eraseDups_filter (p : κ → Bool) (ks : List κ) :
    (ks.filter p).eraseDups = ks.eraseDups.filter p := by
  match ks with
  | [] => rfl
  | k :: ks =>
    have ih := eraseDups_filter p (ks.filter fun j => !j == k)
    rw [List.filter_filter] at ih
    rw [List.eraseDups_cons, List.filter_cons, List.filter_cons, ← ih]
    cases hp : p k with
    | true =>
      rw [if_pos rfl, if_pos rfl, List.eraseDups_cons, List.filter_filter]
      simp only [Bool.and_comm]
    | false =>
      rw [if_neg Bool.false_ne_true, if_neg Bool.false_ne_true]
      congr 1
      apply List.filter_congr
      intro j _
      by_cases hj : j = k <;> simp [hj, hp]
termination_by ks.length
decreasing_by
  exact Nat.lt_succ_of_le (List.length_filter_le _ ks)

theorem eraseDups_cons (k : κ) (ks : List κ) :
    (k :: ks).eraseDups = k :: ks.eraseDups.filter (· != k) := by
  rw [List.eraseDups_cons, eraseDups_filter]
  rfl

theorem nodup_eraseDups (ks : List κ) : ks.eraseDups.Nodup := by
  induction ks with
  | nil => simp
  | cons k ks ih =>
    rw [eraseDups_cons, List.nodup_cons]
    exact ⟨by simp, ih.filter _⟩

theorem take_erase (k : κ) (ks : List κ) (n : Nat) :
    (ks.erase k).take n = ((ks.take (n + 1)).erase k).take n := by
  induction ks generalizing n with
  | nil => rfl
  | cons j ks ih =>
    by_cases hj : j = k
    · simp [hj, List.take_take]
    · cases n with
      | zero => simp
      | succ n => simp [hj, ih n]

/-- The keys asked for last, each once and the latest in front. In a history the latest key comes
first. -/
def latest (room : Nat) (history : List κ) : List κ := history.eraseDups.take room

theorem nodup_latest (room : Nat) (history : List κ) : (latest room history).Nodup :=
  (nodup_eraseDups history).sublist (List.take_sublist _ _)

theorem latest_cons (room : Nat) (k : κ) (history : List κ) :
    latest room (k :: history) = (k :: (latest room history).filter (· != k)).take room := by
  rw [← (nodup_latest room history).erase_eq_filter]
  cases room with
  | zero => rfl
  | succ room =>
    rw [latest, eraseDups_cons, ← (nodup_eraseDups history).erase_eq_filter, List.take_succ_cons,
      List.take_succ_cons, take_erase]
    rfl

theorem map_fst_put {ν : Type} {room : Nat} {row : List (κ × ν)} (h : row.length ≤ room)
    {history : List κ} (hk : row.map Prod.fst = latest room history) (k : κ) (v : ν) :
    (put room row k v).map Prod.fst = latest room (k :: history) := by
  rw [put_eq_take h, List.map_take, List.map_cons, map_fst_without, hk, latest_cons]

end Recency

namespace Lru

open Recency (latest)

variable {κ ν : Type} [DecidableEq κ]

def kept (make : κ → Option ν) (history : List κ) : List κ :=
  history.filter fun k => (make k).isSome

def recurrences (make : κ → Option ν) (room : Nat) : List κ → Nat
  | [] => 0
  | k :: before =>
    recurrences make room before + if k ∈ latest room (kept make before) then 1 else 0

variable [Ord κ]

structure WorkingSet (make : κ → Option ν) (room : Nat) (history : List κ) (c : Lru κ ν) : Prop where
  recency : c.recency.map Prod.fst = latest room (kept make history)
  values : ∀ e ∈ c.recency, make e.1 = some e.2
  found_iff : ∀ k, (c.get? k).1.isSome ↔ k ∈ latest room (kept make history)
  hits : c.hits = recurrences make room history
  requests : c.hits + c.misses = history.length

/-- The working set in terms of the row behind a cache, as every fetch goes on with it. -/
structure Serves (make : κ → Option ν) (room : Nat) (history : List κ) (c : Lru κ ν)
    (row : List (κ × ν)) : Prop where
  follows : Follows room c row
  keys : row.map Prod.fst = latest room (kept make history)
  values : ∀ e ∈ row, make e.1 = some e.2
  hits : c.hits = recurrences make room history
  requests : c.hits + c.misses = history.length

variable [Std.TransOrd κ] [Std.LawfulEqOrd κ] {make : κ → Option ν} {room : Nat} {history : List κ}
  {c : Lru κ ν} {row : List (κ × ν)}

theorem Serves.found_iff (h : Serves make room history c row) (k : κ) :
    (c.get? k).1.isSome ↔ k ∈ latest room (kept make history) := by
  rw [(h.follows.get? k).1, ← h.keys, ← Recency.contains_eq_isSome_lookup]
  simp [Recency.contains]

theorem Serves.workingSet (h : Serves make room history c row) : WorkingSet make room history c := by
  refine ⟨?_, ?_, h.found_iff, h.hits, h.requests⟩
  · rw [h.follows.recency_eq]
    exact h.keys
  · rw [h.follows.recency_eq]
    exact h.values

theorem Serves.fetch (h : Serves make room history c row) (k : κ) :
    ∃ row', Serves make room (k :: history) (c.fetch make k).2 row' := by
  have hf := (h.follows.fetch make k).2
  rw [Recency.snd_fetch h.follows.length_le h.values] at hf
  obtain ⟨hh, hr⟩ := counts_fetch make c k
  have hits : (c.fetch make k).2.hits = recurrences make room (k :: history) := by
    simp [hh, h.hits, recurrences, h.found_iff k]
  have requests : (c.fetch make k).2.hits + (c.fetch make k).2.misses = (k :: history).length := by
    rw [hr, h.requests, List.length_cons]
  cases hm : make k with
  | some v =>
    rw [hm] at hf
    refine ⟨_, hf, ?_, ?_, hits, requests⟩
    · have hk : kept make (k :: history) = k :: kept make history := by simp [kept, hm]
      rw [hk]
      exact Recency.map_fst_put h.follows.length_le h.keys k v
    · intro e he
      cases Recency.mem_of_mem_put he with
      | inl he => rw [he, hm]
      | inr he => exact h.values e he.1
  | none =>
    rw [hm] at hf
    have hk : kept make (k :: history) = kept make history := by simp [kept, hm]
    exact ⟨row, hf, by rw [hk, h.keys], h.values, hits, requests⟩

theorem Serves.run (h : Serves make room history c row) (ks : List κ) :
    ∃ row', Serves make room (ks.reverse ++ history) (Machine.run (Lru.fetch make) c ks).2 row' := by
  induction ks generalizing c history row with
  | nil => exact ⟨row, h⟩
  | cons k ks ih =>
    obtain ⟨next, hn⟩ := h.fetch k
    simpa using ih hn

omit [Std.TransOrd κ] [Std.LawfulEqOrd κ] in
theorem WorkingSet.fetch_of_none (h : WorkingSet make room history c) {k : κ} (hk : make k = none) :
    (c.fetch make k).2 = { c with clock := c.clock + 1, misses := c.misses + 1 } := by
  have hfound : (c.get? k).1 = none := by
    rw [← Option.not_isSome_iff_eq_none, h.found_iff]
    intro hm
    have hkept : k ∈ kept make history := List.mem_eraseDups.1 (List.mem_of_mem_take hm)
    simp [kept, hk] at hkept
  rw [fetch]
  revert hfound
  rw [get?]
  cases c.entries[k]? with
  | some e =>
    intro hfound
    cases hfound
  | none => simp [hk]

theorem workingSet_run (make : κ → Option ν) (capacity : Nat) (ks : List κ) :
    WorkingSet make (max capacity 1) ks.reverse
      (Machine.run (fetch make) (empty capacity) ks).2 := by
  have start : Serves make (max capacity 1) [] (empty capacity) [] :=
    ⟨follows_empty capacity, by simp [latest, kept], by simp, rfl, rfl⟩
  obtain ⟨row, h⟩ := start.run ks
  rw [List.append_nil] at h
  exact h.workingSet

end Lru

end Stencil
