namespace Stencil.Text

def splitOnce? (sep : List Char) : List Char → Option (List Char × List Char)
  | [] => if sep.isEmpty then some ([], []) else none
  | c :: cs =>
    if sep.isPrefixOf (c :: cs) then some ([], (c :: cs).drop sep.length)
    else (splitOnce? sep cs).map fun (a, b) => (c :: a, b)

theorem eq_of_splitOnce? {sep cs a b : List Char} (h : splitOnce? sep cs = some (a, b)) :
    cs = a ++ sep ++ b := by
  fun_induction splitOnce? sep cs generalizing a with
  | case1 hs => simp_all
  | case2 => simp at h
  | case3 c cs hp =>
    obtain ⟨rest, hr⟩ := List.isPrefixOf_iff_prefix.1 hp
    simp only [← hr, List.drop_left, Option.some.injEq, Prod.mk.injEq] at h
    simp [← h.1, ← h.2, ← hr]
  | case4 c cs hp ih =>
    simp only [Option.map_eq_some_iff, Prod.exists, Prod.mk.injEq] at h
    obtain ⟨x, y, hxy, rfl, rfl⟩ := h
    simp [ih hxy]

theorem splitOnce?_eq_none_iff {sep cs : List Char} :
    splitOnce? sep cs = none ↔ ∀ a b, cs ≠ a ++ sep ++ b := by
  constructor
  · intro h a b hc
    fun_induction splitOnce? sep cs generalizing a with
    | case1 => simp at h
    | case2 hs => simp_all
    | case3 => simp at h
    | case4 c cs hp ih =>
      cases a with
      | nil => exact hp (List.isPrefixOf_iff_prefix.2 ⟨b, by simpa using hc.symm⟩)
      | cons d a =>
        simp only [List.cons_append, List.cons.injEq] at hc
        exact ih (by simpa using h) a hc.2
  · intro h
    cases hs : splitOnce? sep cs with
    | none => rfl
    | some p => exact absurd (eq_of_splitOnce? hs) (h p.1 p.2)

theorem splitOnce?_singleton {c : Char} {a b : List Char} (h : c ∉ a) :
    splitOnce? [c] (a ++ c :: b) = some (a, b) := by
  induction a with
  | nil => simp [splitOnce?]
  | cons d a ih =>
    rw [List.mem_cons, not_or] at h
    simp [splitOnce?, h.1, ih h.2]

theorem splitOnce?_singleton_eq (c : Char) (cs : List Char) :
    splitOnce? [c] cs =
      if c ∈ cs then some (cs.takeWhile (· ≠ c), (cs.dropWhile (· ≠ c)).drop 1) else none := by
  induction cs with
  | nil => simp [splitOnce?]
  | cons d cs ih =>
    by_cases hd : d = c
    · simp [splitOnce?, hd]
    · rw [splitOnce?, if_neg (by simp [Ne.symm hd]), ih]
      split <;> simp_all [Ne.symm hd]

def dropEnd? (tail cs : List Char) : Option (List Char) :=
  if tail.isSuffixOf cs then some (cs.take (cs.length - tail.length)) else none

theorem dropEnd?_eq_some_iff {tail cs a : List Char} :
    dropEnd? tail cs = some a ↔ cs = a ++ tail := by
  simp only [dropEnd?, List.isSuffixOf_iff_suffix]
  constructor
  · intro h
    split at h
    · rename_i ht
      obtain ⟨b, rfl⟩ := ht
      simpa [eq_comm] using h
    · simp at h
  · rintro rfl
    simp

end Stencil.Text
