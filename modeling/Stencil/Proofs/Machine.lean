import Mathlib.Data.List.Forall2

/-! Machines that answer one input after the other. Two machines answer a whole run alike if some
relation between their states makes them answer every single input alike, and is kept by it. -/

namespace Stencil.Machine

variable {σ τ ι ω : Type}

def run (step : σ → ι → ω × σ) (s : σ) : List ι → List ω × σ
  | [] => ([], s)
  | i :: is =>
    let (o, s) := step s i
    let (os, s) := run step s is
    (o :: os, s)

theorem findSome?_reverse_concat {α : Type} (p : ι → Option α) (is : List ι) (i : ι) :
    (is ++ [i]).reverse.findSome? p = (p i).or (is.reverse.findSome? p) := by
  rw [List.reverse_concat, List.findSome?_cons]
  cases p i <;> rfl

variable {f : σ → ι → ω × σ} {g : τ → ι → ω × τ}

@[simp] theorem run_nil (s : σ) : run f s [] = ([], s) := rfl

@[simp] theorem run_cons (s : σ) (i : ι) (is : List ι) :
    run f s (i :: is) = ((f s i).1 :: (run f (f s i).2 is).1, (run f (f s i).2 is).2) := rfl

theorem run_append (s : σ) (is js : List ι) :
    run f s (is ++ js) =
      ((run f s is).1 ++ (run f (run f s is).2 js).1, (run f (run f s is).2 js).2) := by
  induction is generalizing s with
  | nil => rfl
  | cons i is ih => simp [ih]

theorem run_forall₂ {P : ι → Prop} {R : σ → τ → Prop} {Q : ω → ω → Prop}
    (step : ∀ s t i, P i → R s t → Q (f s i).1 (g t i).1 ∧ R (f s i).2 (g t i).2)
    {s : σ} {t : τ} {is : List ι} (h : ∀ i ∈ is, P i) (hs : R s t) :
    List.Forall₂ Q (run f s is).1 (run g t is).1 ∧ R (run f s is).2 (run g t is).2 := by
  induction is generalizing s t with
  | nil => exact ⟨.nil, hs⟩
  | cons i is ih =>
    have first := step s t i (h i List.mem_cons_self) hs
    have rest := ih (fun j hj => h j (List.mem_cons_of_mem i hj)) first.2
    exact ⟨.cons first.1 rest.1, rest.2⟩

theorem run_simulation {P : ι → Prop} {R : σ → τ → Prop}
    (step : ∀ s t i, P i → R s t → (f s i).1 = (g t i).1 ∧ R (f s i).2 (g t i).2)
    {s : σ} {t : τ} {is : List ι} (h : ∀ i ∈ is, P i) (hs : R s t) :
    (run f s is).1 = (run g t is).1 ∧ R (run f s is).2 (run g t is).2 := by
  have hr := run_forall₂ step h hs
  rwa [List.forall₂_eq_eq_eq] at hr

theorem run_invariant {P : σ → Prop} (step : ∀ s i, P s → P (f s i).2) {s : σ} (hs : P s)
    (is : List ι) : P (run f s is).2 := by
  induction is generalizing s with
  | nil => exact hs
  | cons i is ih => exact ih (step s i hs)

end Stencil.Machine
