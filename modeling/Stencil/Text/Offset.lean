namespace Stencil.Text

def width : List Char → Nat
  | [] => 0
  | c :: cs => c.utf8Size + width cs

@[simp] theorem width_nil : width [] = 0 := rfl

@[simp] theorem width_cons (c : Char) (cs : List Char) :
    width (c :: cs) = c.utf8Size + width cs := rfl

@[simp] theorem width_append (cs ds : List Char) : width (cs ++ ds) = width cs + width ds := by
  induction cs with
  | nil => simp
  | cons c cs ih => simp [ih, Nat.add_assoc]

/-- The text up to an offset and the text from it on, unless the offset lies inside a character or
beyond the end. -/
def cutAt? : Nat → List Char → Option (List Char × List Char)
  | 0, cs => some ([], cs)
  | _ + 1, [] => none
  | n + 1, c :: cs =>
    if c.utf8Size ≤ n + 1 then (cutAt? (n + 1 - c.utf8Size) cs).map fun (a, b) => (c :: a, b)
    else none

theorem cutAt?_eq_some_iff {n : Nat} {cs a b : List Char} :
    cutAt? n cs = some (a, b) ↔ cs = a ++ b ∧ width a = n := by
  fun_induction cutAt? n cs generalizing a with
  | case1 cs =>
    constructor
    · intro h
      obtain ⟨rfl, rfl⟩ : [] = a ∧ cs = b := by simpa using h
      simp
    · rintro ⟨rfl, h⟩
      cases a with
      | nil => simp
      | cons c a => have := c.utf8Size_pos; simp at h; omega
  | case2 n =>
    simp only [reduceCtorEq, false_iff]
    rintro ⟨h, hw⟩
    obtain ⟨rfl, rfl⟩ := List.append_eq_nil_iff.1 h.symm
    simp at hw
  | case3 n c cs hc ih =>
    simp only [Option.map_eq_some_iff, Prod.exists, Prod.mk.injEq]
    constructor
    · rintro ⟨x, y, h, rfl, rfl⟩
      obtain ⟨rfl, hw⟩ := ih.1 h
      exact ⟨rfl, by simp [hw]; omega⟩
    · rintro ⟨h, hw⟩
      cases a with
      | nil => simp at hw
      | cons d a =>
        simp only [List.cons_append, List.cons.injEq] at h
        obtain ⟨rfl, h⟩ := h
        refine ⟨a, b, ih.2 ⟨h, ?_⟩, rfl, rfl⟩
        simp at hw
        omega
  | case4 n c cs hc =>
    simp only [reduceCtorEq, false_iff]
    rintro ⟨h, hw⟩
    cases a with
    | nil => simp at hw
    | cons d a =>
      simp only [List.cons_append, List.cons.injEq] at h
      simp [← h.1] at hw
      omega

def between? (start stop : Nat) (cs : List Char) : Option (List Char) :=
  if start ≤ stop then do
    let (_, rest) ← cutAt? start cs
    let (inside, _) ← cutAt? (stop - start) rest
    return inside
  else none

theorem between?_eq_some_iff {start stop : Nat} {cs inside : List Char} :
    between? start stop cs = some inside ↔
      ∃ a b, cs = a ++ inside ++ b ∧ width a = start ∧ width a + width inside = stop := by
  simp only [between?, Option.bind_eq_bind, Option.pure_def]
  constructor
  · intro h
    split at h
    · rename_i hle
      simp only [Option.bind_eq_some_iff, Prod.exists, Option.some.injEq] at h
      obtain ⟨a, rest, ha, i, b, hi, rfl⟩ := h
      obtain ⟨rfl, rfl⟩ := cutAt?_eq_some_iff.1 ha
      obtain ⟨rfl, hw⟩ := cutAt?_eq_some_iff.1 hi
      exact ⟨a, b, by simp, rfl, by omega⟩
    · simp at h
  · rintro ⟨a, b, rfl, rfl, rfl⟩
    rw [if_pos (by omega)]
    simp only [Option.bind_eq_some_iff, Prod.exists, Option.some.injEq]
    exact ⟨a, inside ++ b, cutAt?_eq_some_iff.2 (by simp), inside, b,
      cutAt?_eq_some_iff.2 (by simp), rfl⟩

end Stencil.Text
