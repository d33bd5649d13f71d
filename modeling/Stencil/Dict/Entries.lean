namespace Stencil

namespace Entries

variable {α : Type}

def Ascending (es : List (String × α)) : Prop := es.Pairwise fun a b => a.1 < b.1

def get? (k : String) : List (String × α) → Option α
  | [] => none
  | e :: es => if k = e.1 then some e.2 else get? k es

def insert (k : String) (a : α) : List (String × α) → List (String × α)
  | [] => [(k, a)]
  | e :: es =>
    if k < e.1 then (k, a) :: e :: es
    else if k = e.1 then (k, a) :: es
    else e :: insert k a es

def sort (es : List (String × α)) : List (String × α) :=
  es.foldl (fun sorted e => insert e.1 e.2 sorted) []

theorem lt_of_not_lt_of_ne {a b : String} (h : ¬ a < b) (hne : a ≠ b) : b < a := by
  by_cases h' : b < a
  · exact h'
  · exact absurd (String.le_antisymm (String.not_lt.1 h') (String.not_lt.1 h)) hne

theorem mem_insert {k : String} {a : α} {es : List (String × α)} {e : String × α}
    (h : e ∈ insert k a es) : e = (k, a) ∨ e ∈ es := by
  induction es with
  | nil => simpa [insert] using h
  | cons d es ih =>
    rw [insert] at h
    split at h
    · simpa using h
    · split at h <;> rcases List.mem_cons.1 h with h | h
      · exact .inl h
      · exact .inr (List.mem_cons_of_mem _ h)
      · exact .inr (h ▸ List.mem_cons_self)
      · exact (ih h).imp_right (List.mem_cons_of_mem _)

theorem Ascending.insert {es : List (String × α)} (h : Ascending es) (k : String) (a : α) :
    Ascending (Entries.insert k a es) := by
  induction es with
  | nil => exact List.pairwise_singleton _ _
  | cons d es ih =>
    obtain ⟨hd, hes⟩ := List.pairwise_cons.1 h
    rw [Entries.insert]
    split
    · rename_i hk
      refine List.pairwise_cons.2 ⟨fun e he => ?_, h⟩
      rcases List.mem_cons.1 he with rfl | he
      · exact hk
      · exact String.lt_trans hk (hd e he)
    · split
      · rename_i hk
        exact List.pairwise_cons.2 ⟨fun e he => hk ▸ hd e he, hes⟩
      · rename_i h1 h2
        refine List.pairwise_cons.2 ⟨fun e he => ?_, ih hes⟩
        rcases mem_insert he with rfl | he
        · exact lt_of_not_lt_of_ne h1 h2
        · exact hd e he

theorem ascending_sort (es : List (String × α)) : Ascending (sort es) := by
  have go : ∀ (es sorted : List (String × α)), Ascending sorted →
      Ascending (es.foldl (fun sorted e => insert e.1 e.2 sorted) sorted) := by
    intro es
    induction es with
    | nil => exact fun _ h => h
    | cons e es ih => exact fun _ h => ih _ (h.insert e.1 e.2)
  exact go es [] List.Pairwise.nil

theorem get?_insert (k j : String) (a : α) (es : List (String × α)) :
    get? j (insert k a es) = if j = k then some a else get? j es := by
  induction es with
  | nil => rfl
  | cons e es ih =>
    rw [insert]
    split
    · rfl
    · split
      · rename_i hk
        by_cases h : j = k
        · simp [get?, h]
        · simp [get?, h, ← hk]
      · rename_i hk
        by_cases h : j = e.1
        · simp [get?, h, Ne.symm hk]
        · simp [get?, h, ih]

theorem get?_filter_ne (k j : String) (es : List (String × α)) :
    get? j (es.filter fun e => e.1 != k) = if j = k then none else get? j es := by
  induction es with
  | nil => simp [get?]
  | cons e es ih =>
    by_cases hk : e.1 = k
    · rw [List.filter_cons_of_neg (by simp [hk]), ih]
      by_cases hj : j = k <;> simp [get?, hj, hk]
    · rw [List.filter_cons_of_pos (by simp [hk])]
      by_cases hj : j = e.1
      · simp [get?, hj, hk]
      · simp [get?, hj, ih]

theorem mem_of_get? {k : String} {a : α} {es : List (String × α)} (h : get? k es = some a) :
    (k, a) ∈ es := by
  induction es with
  | nil => simp [get?] at h
  | cons e es ih =>
    by_cases hk : k = e.1
    · obtain rfl : e.2 = a := by simpa [get?, hk] using h
      simp [hk]
    · exact List.mem_cons_of_mem _ (ih (by simpa [get?, hk] using h))

theorem get?_of_mem {es : List (String × α)} (hs : Ascending es) {k : String} {a : α}
    (h : (k, a) ∈ es) : get? k es = some a := by
  induction es with
  | nil => simp at h
  | cons e es ih =>
    obtain ⟨he, hes⟩ := List.pairwise_cons.1 hs
    rcases List.mem_cons.1 h with rfl | h
    · simp [get?]
    · have hne : k ≠ e.1 := by
        rintro rfl
        exact String.lt_irrefl _ (he (e.1, a) h)
      simp [get?, hne, ih hes h]

theorem eq_of_mem_iff {es fs : List (String × α)} (he : Ascending es) (hf : Ascending fs)
    (h : ∀ e, e ∈ es ↔ e ∈ fs) : es = fs := by
  induction es generalizing fs with
  | nil =>
    cases fs with
    | nil => rfl
    | cons f fs => exact absurd ((h f).2 List.mem_cons_self) (by simp)
  | cons e es ih =>
    cases fs with
    | nil => exact absurd ((h e).1 List.mem_cons_self) (by simp)
    | cons f fs =>
      obtain ⟨he', hes⟩ := List.pairwise_cons.1 he
      obtain ⟨hf', hfs⟩ := List.pairwise_cons.1 hf
      obtain rfl : e = f := by
        rcases List.mem_cons.1 ((h e).1 List.mem_cons_self) with h1 | h1
        · exact h1
        · rcases List.mem_cons.1 ((h f).2 List.mem_cons_self) with h2 | h2
          · exact h2.symm
          · exact absurd (String.lt_trans (hf' e h1) (he' f h2)) (String.lt_irrefl _)
      congr 1
      refine ih hes hfs fun d => ⟨fun hd => ?_, fun hd => ?_⟩
      · rcases List.mem_cons.1 ((h d).1 (List.mem_cons_of_mem _ hd)) with rfl | h'
        · exact absurd (he' d hd) (String.lt_irrefl _)
        · exact h'
      · rcases List.mem_cons.1 ((h d).2 (List.mem_cons_of_mem _ hd)) with rfl | h'
        · exact absurd (hf' d hd) (String.lt_irrefl _)
        · exact h'

end Entries

end Stencil
