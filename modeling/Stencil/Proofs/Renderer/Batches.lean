import Stencil.Proofs.Arguments.Position
import Stencil.Proofs.Caches.Coherent
import Stencil.Proofs.Caches.LookUp

namespace Stencil

namespace Arguments

variable {a : List Value}

theorem keyed?_append (style : KeyStyle) (h : a.length % 2 = 0) (b : List Value) :
    keyed? style (a ++ b) =
      (keyed? style a).bind fun es => (keyed? style b).map fun fs => es ++ fs := by
  induction a using pairs?.induct with
  | case1 => simp [keyed?]
  | case2 k => cases h
  | case3 k v a ih =>
    rw [List.length_cons, List.length_cons, Nat.add_assoc, Nat.add_mod_right] at h
    rw [List.cons_append, List.cons_append, keyed?, keyed?, ih h]
    cases k.string?.bind style.key? <;> cases keyed? style a <;> cases keyed? style b <;> rfl

theorem check_append_eq_ok_iff (h : a.length % 2 = 0) (b : List Value) (es : List (String × Value)) :
    check (a ++ b) = .ok es ↔ ∃ fs gs, check a = .ok fs ∧ check b = .ok gs ∧ es = fs ++ gs := by
  simp only [check_eq_ok_iff, keyed?_append .plain h, Option.bind_eq_some_iff, Option.map_eq_some_iff]
  constructor
  · rintro ⟨fs, hf, gs, hg, rfl⟩
    exact ⟨fs, gs, hf, hg, rfl⟩
  · rintro ⟨fs, gs, hf, hg, rfl⟩
    exact ⟨fs, hf, gs, hg, rfl⟩

end Arguments

namespace Caches

variable {c d : Caches} {mode : Trimming} {a b : List Value} {after : Context}

theorem bindMarked_append (mode : Trimming) (index : Nat) (context : Context)
    (es fs : List (String × Value)) (c : Caches) :
    bindMarked mode index context (es ++ fs) c =
      match bindMarked mode index context es c with
      | (.ok context, c) => bindMarked mode (index + 2 * es.length) context fs c
      | (.error e, c) => (.error e, c) := by
  induction es generalizing index context c with
  | nil => rfl
  | cons e es ih =>
    obtain ⟨raw, v⟩ := e
    rw [List.cons_append, bindMarked, bindMarked]
    rcases c.strip? mode raw with ⟨_ | key, c⟩
    · rfl
    · dsimp only
      rw [ih, List.length_cons, Nat.mul_succ, Nat.add_assoc index, Nat.add_comm 2]

theorem bindMarked_eq_ok_iff_union {index : Nat} {context : Context} {es : List (String × Value)} :
    bindMarked mode index context es c = (.ok after, d) ↔
      ∃ bound, bindMarked mode 0 .empty es c = (.ok bound, d) ∧ after = context.union bound := by
  simp only [bindMarked_eq_ok_iff]
  constructor
  · rintro ⟨keys, hk, rfl⟩
    exact ⟨_, ⟨keys, hk, rfl⟩, (Dict.union_ofList context _).symm⟩
  · rintro ⟨bound, ⟨keys, hk, rfl⟩, rfl⟩
    exact ⟨keys, hk, Dict.union_ofList context _⟩

def bindChecked (style : KeyStyle) (es : List (String × Value)) (c : Caches) :
    Except ArgumentError Context × Caches :=
  match style with
  | .plain => (.ok (.ofList es), c)
  | .marked mode => bindMarked mode 0 .empty es c

theorem bind_eq_ok_iff {style : KeyStyle} {kvs : List Value} :
    c.bind style kvs = (.ok after, d) ↔
      ∃ es, Arguments.check kvs = .ok es ∧ bindChecked style es c = (.ok after, d) := by
  cases style with
  | plain =>
    rw [bind, Arguments.bindPlain]
    cases Arguments.check kvs <;> simp [Except.map, bindChecked]
  | marked mode =>
    rw [bind]
    cases Arguments.check kvs <;> simp [bindChecked]

theorem bindChecked_append_eq_ok_iff {style : KeyStyle} {es fs : List (String × Value)} :
    bindChecked style (es ++ fs) c = (.ok after, d) ↔
      ∃ first c' second, bindChecked style es c = (.ok first, c') ∧
        bindChecked style fs c' = (.ok second, d) ∧ after = first.union second := by
  cases style with
  | plain =>
    have hu : Dict.ofList (es ++ fs) = (Dict.ofList es).union (.ofList fs) := by
      rw [Dict.union_ofList, Dict.ofList, Dict.insertAll_append, Dict.ofList]
    simp only [bindChecked, hu]
    constructor
    · intro h
      cases h
      exact ⟨_, _, _, rfl, rfl, rfl⟩
    · rintro ⟨first, c', second, hf, hs, rfl⟩
      cases hf
      cases hs
      rfl
  | marked mode =>
    simp only [bindChecked]
    rw [bindMarked_append]
    rcases bindMarked mode 0 .empty es c with ⟨e | first, c'⟩
    · constructor
      · intro h
        cases h
      · rintro ⟨first, c', second, hf, -⟩
        cases hf
    · dsimp only
      rw [bindMarked_eq_ok_iff_union]
      constructor
      · rintro ⟨second, hs, rfl⟩
        exact ⟨first, c', second, rfl, hs, rfl⟩
      · rintro ⟨first, c', second, hf, hs, rfl⟩
        cases hf
        exact ⟨second, hs, rfl⟩

theorem bind_append_eq_ok_iff {style : KeyStyle} (h : a.length % 2 = 0) :
    c.bind style (a ++ b) = (.ok after, d) ↔
      ∃ first c' second, c.bind style a = (.ok first, c') ∧ c'.bind style b = (.ok second, d) ∧
        after = first.union second := by
  simp only [bind_eq_ok_iff, Arguments.check_append_eq_ok_iff h]
  constructor
  · rintro ⟨_, ⟨es, fs, he, hf, rfl⟩, hb⟩
    obtain ⟨first, c', second, h1, h2, hu⟩ := bindChecked_append_eq_ok_iff.1 hb
    exact ⟨first, c', second, ⟨es, he, h1⟩, ⟨fs, hf, h2⟩, hu⟩
  · rintro ⟨first, c', second, ⟨es, he, h1⟩, ⟨fs, hf, h2⟩, hu⟩
    exact ⟨_, ⟨es, fs, he, hf, rfl⟩, bindChecked_append_eq_ok_iff.2 ⟨first, c', second, h1, h2, hu⟩⟩

end Caches

namespace Renderer.Edit

theorem apply_merge_eq_ok_iff {c d : Caches} {context after : Context} {style : KeyStyle}
    {kvs : List Value} : (Edit.merge style kvs).apply c context = (.ok after, d) ↔
      ∃ bindings, c.bind style kvs = (.ok bindings, d) ∧ after = context.union bindings := by
  rw [apply]
  rcases c.bind style kvs with ⟨e | bindings, c'⟩ <;> simp [Except.map, eq_comm, and_comm]

/-- Merging a list leaves the context and the caches of merging its parts one after the other, and does so
if and only if both parts can be merged. -/
theorem apply_merge_append (c : Caches) (context : Context) (style : KeyStyle) {a : List Value}
    (h : a.length % 2 = 0) (b : List Value) (after : Context) (d : Caches) :
    (Edit.merge style (a ++ b)).apply c context = (.ok after, d) ↔
      ∃ between c', (Edit.merge style a).apply c context = (.ok between, c') ∧
        (Edit.merge style b).apply c' between = (.ok after, d) := by
  simp only [apply_merge_eq_ok_iff, Caches.bind_append_eq_ok_iff h]
  constructor
  · rintro ⟨_, ⟨first, c', second, h1, h2, rfl⟩, rfl⟩
    exact ⟨_, c', ⟨first, h1, rfl⟩, second, h2, (Dict.union_assoc context first second).symm⟩
  · rintro ⟨_, c', ⟨first, h1, rfl⟩, second, h2, rfl⟩
    exact ⟨_, ⟨first, c', second, h1, h2, rfl⟩, Dict.union_assoc context first second⟩

theorem apply_merge_append_crowded :
    let c : Caches := .empty ⟨1, 1⟩
    let context : Context := .ofList [("l", .string "old")]
    let style : KeyStyle := .marked .trimmed
    let a : List Value := [.string "k ->", .string "1", .string "l >>", .string "2"]
    let b : List Value := [.string "k ->", .string "3", .string " k >>>", .null]
    a.length % 2 = 0 ∧ ∃ between c' after d,
      (Edit.merge style a).apply c context = (.ok between, c') ∧
        (Edit.merge style b).apply c' between = (.ok after, d) ∧
        (Edit.merge style (a ++ b)).apply c context = (.ok after, d) ∧
        after.get? "k" = some .null ∧ after.get? "l" = some (.string "2") := by
  intro c context style a b
  have h : a.length % 2 = 0 := by decide
  have hc : c.Coherent := Caches.coherent_empty ⟨1, 1⟩
  obtain ⟨after, hr, hk, hl⟩ : ∃ after, ((Edit.merge style (a ++ b)).apply c context).1 = .ok after ∧
      after.get? "k" = some .null ∧ after.get? "l" = some (.string "2") :=
    ⟨_, (yields_apply hc context _).result, rfl, rfl⟩
  have hw : (Edit.merge style (a ++ b)).apply c context = (.ok after, _) := Prod.ext hr rfl
  obtain ⟨between, c', hfirst, hsecond⟩ := (apply_merge_append c context style h b _ _).1 hw
  exact ⟨h, between, c', after, _, hfirst, hsecond, hw, hk, hl⟩

end Renderer.Edit

end Stencil
