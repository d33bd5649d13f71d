import Stencil.Lru

namespace Stencil.Lru

variable {κ ν : Type} [Ord κ]

def All (P : κ → ν → Prop) (c : Lru κ ν) : Prop :=
  ∀ k v t, c.entries[k]? = some (v, t) → P k v

variable [Std.TransOrd κ] [Std.LawfulEqOrd κ] {P Q : κ → ν → Prop} {c : Lru κ ν}

theorem eq_or_getElem?_of_insert {β : Type} {m : Std.TreeMap κ β} {k j : κ} {b d : β}
    (h : (m.insert k b)[j]? = some d) : k = j ∧ b = d ∨ k ≠ j ∧ m[j]? = some d := by
  rw [Std.TreeMap.getElem?_insert] at h
  split at h
  · rename_i hk
    exact .inl ⟨Std.LawfulEqCmp.compare_eq_iff_eq.1 hk, Option.some.inj h⟩
  · rename_i hk
    exact .inr ⟨mt Std.LawfulEqCmp.compare_eq_iff_eq.2 hk, h⟩

omit [Std.LawfulEqOrd κ] in
theorem getElem?_of_erase {β : Type} {m : Std.TreeMap κ β} {k j : κ} {d : β}
    (h : (m.erase k)[j]? = some d) : m[j]? = some d := by
  rw [Std.TreeMap.getElem?_erase] at h
  split at h
  · cases h
  · exact h

omit [Std.LawfulEqOrd κ] in
theorem getElem?_of_evict {capacity rounds : Nat} {entries : Std.TreeMap κ (ν × Nat)}
    {order : Std.TreeMap Nat κ} {k : κ} {e : ν × Nat}
    (h : (evict capacity rounds entries order).1[k]? = some e) : entries[k]? = some e := by
  induction rounds generalizing entries order with
  | zero => exact h
  | succ rounds ih =>
    rw [evict] at h
    split at h
    · split at h
      · have := ih h
        split at this
        · exact getElem?_of_erase this
        · exact this
      · exact h
    · exact h

omit [Std.LawfulEqOrd κ] in
theorem all_empty (P : κ → ν → Prop) (capacity : Nat) : All P (empty capacity) := by
  intro k v t h
  rw [empty, Std.TreeMap.getElem?_emptyc] at h
  cases h

theorem All.get? (h : All P c) (k : κ) : All P (c.get? k).2 := by
  intro j w t hj
  rw [Lru.get?] at hj
  cases he : c.entries[k]? with
  | some e =>
    rw [he] at hj
    cases eq_or_getElem?_of_insert hj with
    | inl hn =>
      obtain ⟨rfl, hn⟩ := hn
      cases hn
      exact h k e.1 e.2 he
    | inr ho => exact h j w t ho.2
  | none =>
    rw [he] at hj
    exact h j w t hj

omit [Std.TransOrd κ] [Std.LawfulEqOrd κ] in
theorem All.of_get? (h : All P c) {k : κ} {v : ν} (hk : (c.get? k).1 = some v) : P k v := by
  rw [Lru.get?] at hk
  cases he : c.entries[k]? with
  | some e =>
    rw [he] at hk
    cases hk
    exact h k e.1 e.2 he
  | none =>
    rw [he] at hk
    cases hk

theorem All.put_of_ne (h : All P c) {k : κ} {v : ν}
    (hne : ∀ j w, j ≠ k → P j w → Q j w) (hv : Q k v) : All Q (c.put k v) := by
  have hn : ∀ j w t now, (c.entries.insert k (v, now))[j]? = some (w, t) → Q j w := by
    intro j w t now hj
    cases eq_or_getElem?_of_insert hj with
    | inl hn =>
      obtain ⟨rfl, hn⟩ := hn
      cases hn
      exact hv
    | inr ho => exact hne j w (Ne.symm ho.1) (h j w t ho.2)
  intro j w t hj
  rw [Lru.put] at hj
  cases he : c.entries[k]? with
  | some e =>
    rw [he] at hj
    exact hn j w t _ hj
  | none =>
    rw [he] at hj
    exact hn j w t _ (getElem?_of_evict hj)

theorem All.put (h : All P c) {k : κ} {v : ν} (hv : P k v) : All P (c.put k v) :=
  h.put_of_ne (fun _ _ _ hw => hw) hv

end Stencil.Lru
