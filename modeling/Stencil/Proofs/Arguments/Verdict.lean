import Stencil.Proofs.Arguments.Position
import Stencil.Proofs.Caches.Reached

namespace Stencil

namespace Arguments

variable {style : KeyStyle} {kvs : List Value} {ps : List (Value × Value)} {es : List (String × Value)}

structure Bindings (style : KeyStyle) (kvs : List Value) (context : Context) : Prop where
  domain : ∀ key, context.contains key ↔
    ∃ i k, i % 2 = 0 ∧ kvs[i]? = some k ∧ style.keyOf? k = some key
  value : ∀ key a, context.get? key = some a ↔
    ∃ i k, LastKey (style.keyOf? · = some key) kvs i k ∧ kvs[i + 1]? = some a

/-- A verdict rests on every check that comes before the one that fails having passed for all keys, those
behind the key to blame too. -/
inductive Verdict (style : KeyStyle) (kvs : List Value) : Except ArgumentError Context → Prop
  | oddLength : kvs.length % 2 = 1 → Verdict style kvs (.error (.oddLength kvs.length))
  | nullKey {i : Nat} {k : Value} : kvs.length % 2 = 0 → FirstKey (·.kind = .null) kvs i k →
    Verdict style kvs (.error (.nullKey i))
  | keyType {i : Nat} {k : Value} : kvs.length % 2 = 0 → EachKey (·.kind ≠ .null) kvs →
    FirstKey (·.kind ≠ .string) kvs i k → Verdict style kvs (.error (.keyType i k.kind))
  | unmarkedKey {i : Nat} {raw : String} : kvs.length % 2 = 0 → EachKey (·.kind = .string) kvs →
    FirstKey (style.keyOf? · = none) kvs i (.string raw) →
    Verdict style kvs (.error (.unmarkedKey i raw))
  | bound {context : Context} : kvs.length % 2 = 0 → EachKey (·.kind = .string) kvs →
    EachKey (style.keyOf? · ≠ none) kvs → Bindings style kvs context → Verdict style kvs (.ok context)

theorem length_of_pairs? (kvs : List Value) : kvs.length % 2 = if (pairs? kvs).isSome then 0 else 1 := by
  induction kvs using pairs?.induct with
  | case1 => rfl
  | case2 k => rfl
  | case3 k v kvs ih =>
    rw [pairs?, Option.isSome_map, ← ih, List.length_cons, List.length_cons]
    omega

theorem exists_of_pairs?_cons_cons {k v : Value} (h : pairs? (k :: v :: kvs) = some ps) :
    ∃ rest, pairs? kvs = some rest ∧ ps = (k, v) :: rest := by
  rw [pairs?, Option.map_eq_some_iff] at h
  obtain ⟨rest, hr, rfl⟩ := h
  exact ⟨rest, hr, rfl⟩

theorem eachKey_of_nullKey? {start : Nat} (h : pairs? kvs = some ps) (hn : nullKey? start ps = none) :
    EachKey (·.kind ≠ .null) kvs := by
  induction kvs using pairs?.induct generalizing ps start with
  | case1 => exact eachKey_nil
  | case2 k => cases h
  | case3 k v kvs ih =>
    obtain ⟨rest, hr, rfl⟩ := exists_of_pairs?_cons_cons h
    rw [nullKey?] at hn
    split at hn
    · cases hn
    · rename_i hk
      exact eachKey_cons_cons.2 ⟨hk, ih hr hn⟩

theorem firstKey_of_nullKey? {start index : Nat} (h : pairs? kvs = some ps)
    (hn : nullKey? start ps = some index) :
    ∃ i k, index = start + i ∧ FirstKey (·.kind = .null) kvs i k := by
  -- `start` counts what has been passed, and a position only what is left
  induction kvs using pairs?.induct generalizing ps start with
  | case1 =>
    cases h
    cases hn
  | case2 k => cases h
  | case3 k v kvs ih =>
    obtain ⟨rest, hr, rfl⟩ := exists_of_pairs?_cons_cons h
    rw [nullKey?] at hn
    split at hn
    · rename_i hk
      cases hn
      exact ⟨0, k, rfl, .head hk⟩
    · rename_i hk
      obtain ⟨i, k', rfl, hf⟩ := ih hr hn
      exact ⟨i + 2, k', by omega, hf.tail hk⟩

theorem firstKey_of_named {start : Nat} {e : ArgumentError} (h : pairs? kvs = some ps)
    (hn : named start ps = .error e) :
    ∃ i k, e = .keyType (start + i) k.kind ∧ FirstKey (·.kind ≠ .string) kvs i k := by
  induction kvs using pairs?.induct generalizing ps start with
  | case1 =>
    cases h
    cases hn
  | case2 k => cases h
  | case3 k v kvs ih =>
    obtain ⟨rest, hr, rfl⟩ := exists_of_pairs?_cons_cons h
    rw [named] at hn
    cases hk : k.string? with
    | none =>
      rw [hk] at hn
      cases hn
      refine ⟨0, k, rfl, .head ?_⟩
      simp [Value.kind_eq_string_iff, hk]
    | some raw =>
      rw [hk] at hn
      cases hm : named (start + 2) rest with
      | ok es =>
        rw [hm] at hn
        cases hn
      | error e' =>
        rw [hm] at hn
        cases hn
        obtain ⟨i, k', rfl, hf⟩ := ih hr hm
        refine ⟨i + 2, k', ?_, hf.tail ?_⟩
        · rw [Nat.add_assoc, Nat.add_comm 2]
        · simp [Value.kind_of_string? hk]

theorem verdict_of_check_eq_error {e : ArgumentError} (h : check kvs = .error e) :
    Verdict style kvs (.error e) := by
  have hl := length_of_pairs? kvs
  rw [check] at h
  cases hp : pairs? kvs with
  | none =>
    rw [hp] at h hl
    cases h
    exact .oddLength hl
  | some ps =>
    rw [hp] at hl
    cases hn : nullKey? 0 ps with
    | some index =>
      simp only [hp, hn] at h
      cases h
      obtain ⟨i, k, rfl, hf⟩ := firstKey_of_nullKey? hp hn
      rw [Nat.zero_add]
      exact .nullKey hl hf
    | none =>
      simp only [hp, hn] at h
      obtain ⟨i, k, rfl, hf⟩ := firstKey_of_named hp h
      rw [Nat.zero_add]
      exact .keyType hl (eachKey_of_nullKey? hp hn) hf

theorem bindings_ofList (h : keyed? style kvs = some es) : Bindings style kvs (.ofList es) := by
  constructor
  · intro key
    rw [Dict.contains, Dict.get?_ofList, ← Option.ne_none_iff_isSome, ne_eq,
      lookup_reverse_eq_none_iff h]
    simp [EachKey]
  · intro key a
    rw [Dict.get?_ofList, lookup_reverse_eq_some_iff h]

theorem firstKey_of_bindMarked {mode : Trimming} {start : Nat} {context : Context} {e : ArgumentError}
    (h : keyed? .plain kvs = some es) (hb : Uncached.bindMarked mode start context es = .error e) :
    ∃ i raw, e = .unmarkedKey (start + i) raw ∧
      FirstKey ((KeyStyle.marked mode).keyOf? · = none) kvs i (.string raw) := by
  induction kvs using pairs?.induct generalizing es start context with
  | case1 =>
    cases h
    cases hb
  | case2 k => cases h
  | case3 k v kvs ih =>
    obtain ⟨raw, rest, hk, hr, rfl⟩ := keyed?_cons_cons_eq_some_iff.1 h
    obtain rfl := KeyStyle.keyOf?_plain_eq_some_iff.1 hk
    rw [Uncached.bindMarked] at hb
    cases hm : Marker.strip? mode raw with
    | none =>
      rw [hm] at hb
      cases hb
      exact ⟨0, raw, rfl, .head hm⟩
    | some key =>
      rw [hm] at hb
      obtain ⟨i, raw', rfl, hf⟩ := ih hr hb
      refine ⟨i + 2, raw', ?_, hf.tail ?_⟩
      · rw [Nat.add_assoc, Nat.add_comm 2]
      · simp [KeyStyle.keyOf?, KeyStyle.key?, hm]

theorem even_of_keyed? (h : keyed? style kvs = some es) : kvs.length % 2 = 0 := by
  rw [length_of_keyed? h, Nat.mul_mod_right]

theorem eachKey_string_of_keyed? (h : keyed? style kvs = some es) : EachKey (·.kind = .string) kvs := by
  intro i k hi hk
  have hs := eachKey_of_keyed? h i k hi hk
  rw [Value.kind_eq_string_iff]
  exact Option.isSome_of_isSome_bind (Option.ne_none_iff_isSome.1 hs)

theorem verdict_bind (style : KeyStyle) (kvs : List Value) :
    Verdict style kvs (Uncached.bind style kvs) := by
  cases hb : Uncached.bind style kvs with
  | ok context =>
    obtain ⟨es, he, rfl⟩ := Uncached.keyed?_of_bind_eq_ok hb
    exact .bound (even_of_keyed? he) (eachKey_string_of_keyed? he) (eachKey_of_keyed? he)
      (bindings_ofList he)
  | error e =>
    cases hc : check kvs with
    | error e' =>
      have he : Uncached.bind style kvs = .error e' := by
        cases style <;> simp [Uncached.bind, bindPlain, hc, Except.map]
      cases hb.symm.trans he
      exact verdict_of_check_eq_error hc
    | ok es =>
      have he := check_eq_ok_iff.1 hc
      cases style with
      | plain => simp [Uncached.bind, bindPlain, hc, Except.map] at hb
      | marked mode =>
        simp only [Uncached.bind, hc] at hb
        obtain ⟨i, raw, rfl, hf⟩ := firstKey_of_bindMarked he hb
        rw [Nat.zero_add]
        exact .unmarkedKey (even_of_keyed? he) (eachKey_string_of_keyed? he) hf

theorem Bindings.unique {context context' : Context} (h : Bindings style kvs context)
    (h' : Bindings style kvs context') : context = context' := by
  ext key a
  rw [h.value, h'.value]

theorem Verdict.unique {r r' : Except ArgumentError Context} (h : Verdict style kvs r)
    (h' : Verdict style kvs r') : r = r' := by
  cases h <;> cases h'
  case oddLength.oddLength => rfl
  case nullKey.nullKey hf _ _ _ hf' => rw [(hf.unique hf').1]
  case keyType.keyType hf _ _ _ _ hf' =>
    obtain ⟨rfl, rfl⟩ := hf.unique hf'
    rfl
  case unmarkedKey.unmarkedKey hf _ _ _ _ hf' =>
    obtain ⟨rfl, hk⟩ := hf.unique hf'
    cases hk
    rfl
  case bound.bound hb _ _ _ _ hb' => rw [hb.unique hb']
  -- of two other verdicts, one blames a key for what the other rules out of all
  all_goals grind [FirstKey, EachKey]

/-- What comes of a list is its verdict, on any caches that nothing was put into from outside. -/
theorem bind_eq_iff_verdict {c : Caches} (h : c.Reached) (style : KeyStyle) (kvs : List Value)
    (r : Except ArgumentError Context) : (c.bind style kvs).1 = r ↔ Verdict style kvs r := by
  rw [(h.coherent.bind style kvs).result]
  constructor
  · rintro rfl
    exact verdict_bind style kvs
  · exact (verdict_bind style kvs).unique

theorem bind_eq_iff_verdict_mixed :
    let c := ((Caches.empty ⟨0, 0⟩).reply (.strip .trimmed "k ->")).2
    let style : KeyStyle := .marked .trimmed
    let flag : Value := .ofJson (.bool true)
    let list : List Value := [.string "k ->", .string "1", .string "l >>", .null, .string " k >>>", flag]
    c.Reached ∧
      (c.bind style [.string "k", .null, flag, .null, .null, .null]).1 = .error (.nullKey 4) ∧
      (c.bind style [.string "k", .null, flag, .null]).1 = .error (.keyType 2 .bool) ∧
      (c.bind style (list ++ [.string "l", .null])).1 = .error (.unmarkedKey 6 "l") ∧
      ∃ context, (c.bind style list).1 = .ok context ∧ context.get? "k" = some flag := by
  intro c style flag list
  have hc : c.Reached := .reply (.empty ⟨0, 0⟩) (by decide)
  refine ⟨hc, ?_, ?_, ?_, ?_⟩
  · refine (bind_eq_iff_verdict hc _ _ _).2 (.nullKey (k := .null) (by decide) ?_)
    exact .tail (by decide) (.tail (by decide) (.head rfl))
  · refine (bind_eq_iff_verdict hc _ _ _).2 (.keyType (k := flag) (by decide) ?_ ?_)
    · simp only [eachKey_cons_cons, eachKey_nil, and_true]
      decide
    · exact .tail (by decide) (.head (by decide))
  · refine (bind_eq_iff_verdict hc _ _ _).2 (.unmarkedKey (by decide) ?_ ?_)
    · simp only [list, List.cons_append, List.nil_append, eachKey_cons_cons, eachKey_nil, and_true]
      decide
    · exact .tail (by decide) (.tail (by decide) (.tail (by decide) (.head (by decide))))
  · have hr : (c.bind style list).1 = .ok (.ofList [("k", .string "1"), ("l", .null), ("k", flag)]) :=
      (hc.coherent.bind style list).result
    refine ⟨_, hr, ?_⟩
    cases (bind_eq_iff_verdict hc _ _ _).1 hr with
    | bound _ _ _ hb =>
      refine (hb.value "k" flag).2 ⟨4, .string " k >>>", ?_, rfl⟩
      refine lastKey_cons_cons.2 (.inr ⟨2, rfl, lastKey_cons_cons.2 (.inr ⟨0, rfl, ?_⟩)⟩)
      exact lastKey_cons_cons.2 (.inl ⟨rfl, rfl, by decide, eachKey_nil⟩)

end Arguments

end Stencil
