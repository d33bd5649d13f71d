import Stencil.Proofs.Arguments.Verdict
import Stencil.Proofs.Caches.LookUp

namespace Stencil

namespace Arguments

def RawKeys (kvs : List Value) (raws : List String) : Prop :=
  ∀ j, kvs[2 * j]? = raws[j]?.map Value.string

theorem check_ne_unmarkedKey (kvs : List Value) (i : Nat) (raw : String) :
    check kvs ≠ .error (.unmarkedKey i raw) := by
  intro h
  have hv : Verdict .plain kvs (.error (.unmarkedKey i raw)) := verdict_of_check_eq_error h
  cases hv with
  | unmarkedKey _ _ hf => cases hf.holds

theorem rawKeys_of_keyed? {kvs : List Value} {es : List (String × Value)}
    (h : keyed? .plain kvs = some es) : RawKeys kvs (es.map Prod.fst) := by
  induction kvs using pairs?.induct generalizing es with
  | case1 =>
    cases h
    exact fun _ => rfl
  | case2 k => cases h
  | case3 k v kvs ih =>
    obtain ⟨raw, rest, hk, hr, rfl⟩ := keyed?_cons_cons_eq_some_iff.1 h
    intro j
    cases j with
    | zero => exact congrArg some (KeyStyle.keyOf?_plain_eq_some_iff.1 hk)
    | succ j => exact ih hr j

end Arguments

namespace Caches

open Arguments (RawKeys)

/-- What is left of caches when a list has been bound to a context or refused. -/
inductive Footprint (c : Caches) (kvs : List Value) : KeyStyle → Except ArgumentError Context → Caches → Prop
  | plain (result : Except ArgumentError Context) : Footprint c kvs .plain result c
  | outOfOrder {mode : Trimming} {e : ArgumentError} : (∀ i raw, e ≠ .unmarkedKey i raw) →
    Footprint c kvs (.marked mode) (.error e) c
  | bound {mode : Trimming} {context : Context} {raws : List String} : RawKeys kvs raws →
    Footprint c kvs (.marked mode) (.ok context) (stripAll mode c raws).2
  | unmarked {mode : Trimming} {raws : List String} {j : Nat} {raw : String} {after : Caches} :
    RawKeys kvs raws → raws[j]? = some raw → after = (stripAll mode c (raws.take (j + 1))).2 →
    after = (stripAll mode c (raws.take j)).2.missed mode →
    Footprint c kvs (.marked mode) (.error (.unmarkedKey (2 * j) raw)) after

namespace Footprint

variable {c after : Caches} {kvs : List Value} {style : KeyStyle} {result : Except ArgumentError Context}

theorem templates_eq (h : Footprint c kvs style result after) : after.templates = c.templates := by
  cases h with
  | plain | outOfOrder => rfl
  | bound => exact templates_stripAll c _ _
  | unmarked _ _ ha =>
    rw [ha]
    exact templates_stripAll c _ _

theorem keys_eq (h : Footprint c kvs style result after) {mode : Trimming} (hm : style ≠ .marked mode) :
    after.keys mode = c.keys mode := by
  cases h with
  | plain | outOfOrder => rfl
  | bound => exact keys_stripAll_of_ne c (fun he => hm (congrArg _ he)) _
  | unmarked _ _ ha =>
    rw [ha]
    exact keys_stripAll_of_ne c (fun he => hm (congrArg _ he)) _

end Footprint

theorem footprint_bindMarked (c : Caches) (mode : Trimming) {kvs : List Value} {es : List (String × Value)}
    (h : Arguments.check kvs = .ok es) :
    Footprint c kvs (.marked mode) (bindMarked mode 0 .empty es c).1 (bindMarked mode 0 .empty es c).2 := by
  have hr := Arguments.rawKeys_of_keyed? (Arguments.check_eq_ok_iff.1 h)
  rcases hb : bindMarked mode 0 .empty es c with ⟨e | context, d⟩
  · obtain ⟨i, raw, rfl, hi, hd, hm⟩ := exists_of_bindMarked_eq_error hb
    rw [Nat.zero_add]
    exact .unmarked hr hi hd hm
  · obtain ⟨keys, hk, -⟩ := bindMarked_eq_ok_iff.1 hb
    obtain rfl : (stripAll mode c (es.map Prod.fst)).2 = d := by rw [hk]
    exact .bound hr

/-- Binding a list leaves its footprint, and so neither templates nor the keys of another mode. -/
theorem footprint_bind (c : Caches) (style : KeyStyle) (kvs : List Value) :
    Footprint c kvs style (c.bind style kvs).1 (c.bind style kvs).2 ∧
      (c.bind style kvs).2.templates = c.templates ∧
      ∀ mode, style ≠ .marked mode → (c.bind style kvs).2.keys mode = c.keys mode := by
  have hf : Footprint c kvs style (c.bind style kvs).1 (c.bind style kvs).2 := by
    cases style with
    | plain => exact .plain _
    | marked mode =>
      rw [bind]
      cases hc : Arguments.check kvs with
      | ok es => exact footprint_bindMarked c mode hc
      | error e =>
        refine .outOfOrder ?_
        rintro i raw rfl
        exact Arguments.check_ne_unmarkedKey kvs i raw hc
  exact ⟨hf, hf.templates_eq, fun _ => hf.keys_eq⟩

end Caches

end Stencil
