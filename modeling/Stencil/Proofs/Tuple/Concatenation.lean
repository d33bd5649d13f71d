import Stencil.Proofs.Arguments.Verdict
import Stencil.Proofs.Renderer.Batches

namespace Stencil

namespace Arguments

variable {kvs a b : List Value} {context after : Context}

theorem verdict_bindPlain (kvs : List Value) : Verdict .plain kvs (bindPlain kvs) :=
  verdict_bind .plain kvs

theorem exists_bindPlain_eq_ok_iff :
    (∃ context, bindPlain kvs = .ok context) ↔
      kvs.length % 2 = 0 ∧ EachKey (·.kind = .string) kvs := by
  have hv := verdict_bindPlain kvs
  constructor
  · rintro ⟨context, h⟩
    rw [h] at hv
    cases hv with
    | bound he hs => exact ⟨he, hs⟩
  · rintro ⟨he, hs⟩
    cases h : bindPlain kvs with
    | ok context => exact ⟨context, rfl⟩
    | error e =>
      rw [h] at hv
      cases hv with
      | oddLength ho => omega
      | nullKey _ hf =>
        have hk : Value.kind _ = .string := hs _ _ hf.even hf.found
        cases hf.holds.symm.trans hk
      | keyType _ _ hf => exact absurd (hs _ _ hf.even hf.found) hf.holds
      | unmarkedKey _ _ hf => cases hf.holds

theorem bindings_of_bindPlain (h : bindPlain kvs = .ok context) : Bindings .plain kvs context := by
  have hv := verdict_bindPlain kvs
  rw [h] at hv
  cases hv with
  | bound _ _ _ hb => exact hb

theorem bindPlain_append_eq_ok_iff (h : a.length % 2 = 0) :
    bindPlain (a ++ b) = .ok after ↔
      ∃ first second, bindPlain a = .ok first ∧ bindPlain b = .ok second ∧
        after = first.union second := by
  have hb := @Caches.bind_append_eq_ok_iff default default a b after .plain h
  simpa [Caches.bind] using hb

end Arguments

open Arguments (EachKey Bindings Verdict bindPlain)

namespace Tuple

variable {context after : Context} {t : Tuple} {ts : List Tuple} {e : ArgumentError}

theorem exists_bindings_eq_ok_iff :
    (∃ context, t.bindings = .ok context) ↔
      t.arity % 2 = 0 ∧ EachKey (·.kind = .string) t.values :=
  Arguments.exists_bindPlain_eq_ok_iff

theorem bindings_of_odd (h : t.arity % 2 = 1) : t.bindings = .error (.oddLength t.arity) :=
  (Arguments.verdict_bindPlain t.values).unique (.oddLength h)

theorem bindAll_eq_ok_iff :
    bindAll context ts = .ok after ↔
      (∀ t ∈ ts, t.arity % 2 = 0) ∧
        ∃ bound, bindPlain (ts.flatMap values) = .ok bound ∧ after = context.union bound := by
  induction ts generalizing context with
  | nil =>
    simp only [bindAll, List.flatMap_nil]
    constructor
    · intro h
      cases h
      exact ⟨by simp, .empty, rfl, rfl⟩
    · rintro ⟨-, bound, hb, rfl⟩
      cases hb
      rfl
  | cons t ts ih =>
    rw [bindAll, List.forall_mem_cons, List.flatMap_cons]
    constructor
    · intro h
      cases hb : t.bindings with
      | error e =>
        rw [hb] at h
        cases h
      | ok first =>
        rw [hb] at h
        obtain ⟨he, second, hs, rfl⟩ := ih.1 h
        have ht : t.arity % 2 = 0 := (exists_bindings_eq_ok_iff.1 ⟨first, hb⟩).1
        refine ⟨⟨ht, he⟩, first.union second, ?_, Dict.union_assoc context first second⟩
        exact (Arguments.bindPlain_append_eq_ok_iff ht).2 ⟨first, second, hb, hs, rfl⟩
    · rintro ⟨⟨ht, he⟩, _, hb, rfl⟩
      obtain ⟨first, second, hf, hs, rfl⟩ := (Arguments.bindPlain_append_eq_ok_iff ht).1 hb
      have hf : t.bindings = .ok first := hf
      rw [hf]
      exact ih.2 ⟨he, second, hs, (Dict.union_assoc context first second).symm⟩

theorem bindAll_eq_error_iff :
    bindAll context ts = .error e ↔
      ∃ before t behind, ts = before ++ t :: behind ∧
        (∀ u ∈ before, ∃ bound, u.bindings = .ok bound) ∧ t.bindings = .error e := by
  induction ts generalizing context with
  | nil => simp [bindAll]
  | cons t ts ih =>
    rw [bindAll]
    cases hb : t.bindings with
    | error e' =>
      constructor
      · intro h
        cases h
        exact ⟨[], t, ts, rfl, by simp, hb⟩
      · rintro ⟨before, u, behind, hts, hok, hu⟩
        cases before with
        | nil =>
          cases hts
          exact hb.symm.trans hu
        | cons u' before =>
          cases hts
          obtain ⟨bound, hok⟩ := hok t List.mem_cons_self
          cases hb.symm.trans hok
    | ok first =>
      rw [ih]
      constructor
      · rintro ⟨before, u, behind, rfl, hok, hu⟩
        exact ⟨t :: before, u, behind, rfl, List.forall_mem_cons.2 ⟨⟨first, hb⟩, hok⟩, hu⟩
      · rintro ⟨before, u, behind, hts, hok, hu⟩
        cases before with
        | nil =>
          cases hts
          cases hb.symm.trans hu
        | cons u' before =>
          cases hts
          exact ⟨before, u, behind, rfl, (List.forall_mem_cons.1 hok).2, hu⟩

theorem exists_bindAll_eq_ok_iff :
    (∃ after, bindAll context ts = .ok after) ↔ ∀ t ∈ ts, ∃ bound, t.bindings = .ok bound := by
  induction ts generalizing context with
  | nil => simp [bindAll]
  | cons t ts ih =>
    rw [bindAll, List.forall_mem_cons]
    cases hb : t.bindings with
    | error e => simp
    | ok first => simp [ih]

theorem bindAll_filter : bindAll context (ts.filter (·.arity ≠ 0)) = bindAll context ts := by
  induction ts generalizing context with
  | nil => rfl
  | cons t ts ih =>
    by_cases ht : t.arity = 0
    · obtain ⟨values⟩ := t
      obtain rfl : values = [] := List.length_eq_zero_iff.1 ht
      rw [List.filter_cons_of_neg (by simp [ht]), ih]
      rfl
    · rw [List.filter_cons_of_pos (by simp [ht]), bindAll, bindAll]
      simp only [ih]

end Tuple

namespace Renderer.Origin

theorem bind_tuples_eq_ok_iff {c : Caches} {ts : List Tuple} {context : Context} :
    ((tuples ts).bind c).1 = .ok context ↔ Tuple.bindAll .empty ts = .ok context := by
  rw [bind]
  cases Tuple.bindAll .empty ts <;> simp [Except.mapError]

theorem bind_tuples_eq_error_iff {c : Caches} {ts : List Tuple} {r : Refusal} :
    ((tuples ts).bind c).1 = .error r ↔
      ∃ e, Tuple.bindAll .empty ts = .error e ∧ r = .arguments e := by
  rw [bind]
  cases Tuple.bindAll .empty ts <;> simp [Except.mapError, eq_comm]

theorem bind_arguments_plain_eq_ok_iff {c : Caches} {kvs : List Value} {context : Context} :
    ((arguments .plain kvs).bind c).1 = .ok context ↔ bindPlain kvs = .ok context := by
  rw [bind, Caches.bind]
  cases bindPlain kvs <;> simp [Except.mapError]

/-- Tuples bind if and only if each of them has its values in pairs with a string in front, and then they
bind what the list of all values does, in which the last value of a key counts; those without a value are
of no consequence. Else the first tuple that does not bind is reported as it is by itself, whatever the list of
all values binds: two tuples of odd arity may well make up a list of pairs. -/
theorem bind_tuples_eq_bind_flatMap (c : Caches) (ts : List Tuple) :
    ((∃ context, ((tuples ts).bind c).1 = .ok context) ↔
      ∀ t ∈ ts, t.arity % 2 = 0 ∧ EachKey (·.kind = .string) t.values) ∧
    (∀ context, ((tuples ts).bind c).1 = .ok context →
      ((arguments .plain (ts.flatMap Tuple.values)).bind c).1 = .ok context ∧
        Bindings .plain (ts.flatMap Tuple.values) context) ∧
    (∀ us : List Tuple, us.filter (·.arity ≠ 0) = ts.filter (·.arity ≠ 0) →
      (tuples us).bind c = (tuples ts).bind c) ∧
    (∀ r, ((tuples ts).bind c).1 = .error r ↔
      ∃ before t behind e, ts = before ++ t :: behind ∧
        (∀ u ∈ before, ∃ context, u.bindings = .ok context) ∧
        t.bindings = .error e ∧ Verdict .plain t.values (.error e) ∧ r = .arguments e) ∧
    ∀ t u : Tuple, t.arity % 2 = 1 → u.arity % 2 = 1 →
      EachKey (·.kind = .string) (t.values ++ u.values) →
      ((tuples [t, u]).bind c).1 = .error (.arguments (.oddLength t.arity)) ∧
        ∃ context, ((arguments .plain (t.values ++ u.values)).bind c).1 = .ok context := by
  refine ⟨?_, ?_, ?_, ?_, ?_⟩
  · simp only [bind_tuples_eq_ok_iff, Tuple.exists_bindAll_eq_ok_iff, Tuple.exists_bindings_eq_ok_iff]
  · intro context h
    obtain ⟨-, bound, hb, rfl⟩ := Tuple.bindAll_eq_ok_iff.1 (bind_tuples_eq_ok_iff.1 h)
    rw [Dict.empty_union]
    exact ⟨bind_arguments_plain_eq_ok_iff.2 hb, Arguments.bindings_of_bindPlain hb⟩
  · intro us h
    rw [bind, bind, ← Tuple.bindAll_filter, h, Tuple.bindAll_filter]
  · intro r
    simp only [bind_tuples_eq_error_iff, Tuple.bindAll_eq_error_iff]
    constructor
    · rintro ⟨e, ⟨before, t, behind, hts, hok, ht⟩, rfl⟩
      exact ⟨before, t, behind, e, hts, hok, ht, ht ▸ Arguments.verdict_bindPlain t.values, rfl⟩
    · rintro ⟨before, t, behind, e, hts, hok, ht, -, rfl⟩
      exact ⟨e, ⟨before, t, behind, hts, hok, ht⟩, rfl⟩
  · intro t u ht hu hs
    constructor
    · rw [bind_tuples_eq_error_iff, Tuple.bindAll, Tuple.bindings_of_odd ht]
      exact ⟨_, rfl, rfl⟩
    · simp only [bind_arguments_plain_eq_ok_iff, Arguments.exists_bindPlain_eq_ok_iff]
      rw [Tuple.arity] at ht hu
      exact ⟨by rw [List.length_append]; omega, hs⟩

theorem bind_tuples_eq_bind_flatMap_overwritten :
    let c : Caches := .empty ⟨1, 1⟩
    let first : Tuple := ⟨[.string "k", .string "1", .string "l", .null]⟩
    let second : Tuple := .pair "k" (.string "2")
    let null : Tuple := ⟨[.null, .null]⟩
    let key : Tuple := ⟨[.string "k"]⟩
    let kvs : List Value := [.string "k", .string "1", .string "l", .null, .string "k", .string "2"]
    (∃ context, (tuples [first, second]).bind c = (tuples [first, ⟨[]⟩, second]).bind c ∧
      ((tuples [first, ⟨[]⟩, second]).bind c).1 = .ok context ∧
      ((arguments .plain kvs).bind c).1 = .ok context ∧ context.get? "k" = some (.string "2")) ∧
    ((tuples [first, null, key]).bind c).1 = .error (.arguments (.nullKey 0)) ∧
    ((tuples [key, key]).bind c).1 = .error (.arguments (.oddLength 1)) ∧
    ∃ context, ((arguments .plain [.string "k", .string "k"]).bind c).1 = .ok context := by
  intro c first second null key kvs
  have hpair : ∀ raw v, EachKey (·.kind = .string) [.string raw, v] := by
    intro raw v
    exact Arguments.eachKey_cons_cons.2 ⟨rfl, Arguments.eachKey_nil⟩
  have hfirst : first.arity % 2 = 0 ∧ EachKey (·.kind = .string) first.values :=
    ⟨by decide, Arguments.eachKey_cons_cons.2 ⟨rfl, hpair _ _⟩⟩
  obtain ⟨hok, hflat, hempty, -, hodd⟩ := bind_tuples_eq_bind_flatMap c [first, ⟨[]⟩, second]
  obtain ⟨-, -, -, herror, -⟩ := bind_tuples_eq_bind_flatMap c [first, null, key]
  refine ⟨?_, ?_, hodd key key rfl rfl (hpair _ _)⟩
  · have heach : ∀ t ∈ [first, ⟨[]⟩, second],
        t.arity % 2 = 0 ∧ EachKey (·.kind = .string) t.values := by
      simp only [List.forall_mem_cons]
      exact ⟨hfirst, ⟨rfl, Arguments.eachKey_nil⟩, ⟨by decide, hpair _ _⟩, List.forall_mem_nil _⟩
    obtain ⟨context, hc⟩ := hok.2 heach
    obtain ⟨hf, hb⟩ := hflat context hc
    refine ⟨context, hempty [first, second] rfl, hc, hf, (hb.value _ _).2 ⟨4, .string "k", ?_, rfl⟩⟩
    refine Arguments.lastKey_cons_cons.2 (.inr ⟨2, rfl, ?_⟩)
    refine Arguments.lastKey_cons_cons.2 (.inr ⟨0, rfl, ?_⟩)
    exact Arguments.lastKey_cons_cons.2 (.inl ⟨rfl, rfl, rfl, Arguments.eachKey_nil⟩)
  · rw [herror]
    refine ⟨[first], null, [key], .nullKey 0, rfl, ?_, rfl, .nullKey (by decide) (.head rfl), rfl⟩
    rw [List.forall_mem_singleton]
    exact Tuple.exists_bindings_eq_ok_iff.2 hfirst

end Renderer.Origin

end Stencil
