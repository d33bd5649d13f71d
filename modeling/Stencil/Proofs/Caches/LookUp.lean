import Stencil.Proofs.Caches.Fetch
import Stencil.Proofs.Machine

namespace Stencil.Caches

variable {c d : Caches} {mode : Trimming} {raw : String}

def stripAll (mode : Trimming) : Caches → List String → List (Option String) × Caches :=
  Machine.run fun c raw => c.strip? mode raw

def missed (c : Caches) (mode : Trimming) : Caches :=
  let keys := c.keys mode
  c.setKeys mode { keys with clock := keys.clock + 1, misses := keys.misses + 1 }

@[simp] theorem stripAll_nil (mode : Trimming) (c : Caches) : stripAll mode c [] = ([], c) := rfl

theorem stripAll_cons (h : c.strip? mode raw = (key?, d)) (raws : List String) :
    stripAll mode c (raw :: raws) = (key? :: (stripAll mode d raws).1, (stripAll mode d raws).2) := by
  rw [stripAll, Machine.run_cons, h]

theorem eq_missed_of_strip? (h : c.strip? mode raw = (none, d)) : d = c.missed mode := by
  rw [strip?, Lru.get?] at h
  cases he : (c.keys mode).entries[raw]? with
  | some e =>
    -- only keys that were found are kept, so that one that is kept is not looked up in vain
    rw [he] at h
    cases h
  | none =>
    rw [he] at h
    cases hm : Marker.strip? mode raw with
    | some key =>
      simp only [hm] at h
      cases h
    | none =>
      simp only [hm] at h
      cases h
      rfl

theorem exists_snd_stripAll (c : Caches) (mode : Trimming) (raws : List String) :
    ∃ keys, (stripAll mode c raws).2 = c.setKeys mode keys := by
  induction raws generalizing c with
  | nil => exact ⟨c.keys mode, (setKeys_keys c mode).symm⟩
  | cons raw raws ih =>
    have hs := c.strip?_eq_fetch mode raw
    obtain ⟨keys, hk⟩ := ih (c.setKeys mode (fetchKey mode (c.keys mode) raw).2)
    rw [setKeys_setKeys] at hk
    refine ⟨keys, ?_⟩
    rw [stripAll_cons hs]
    exact hk

theorem templates_stripAll (c : Caches) (mode : Trimming) (raws : List String) :
    (stripAll mode c raws).2.templates = c.templates := by
  obtain ⟨keys, hk⟩ := exists_snd_stripAll c mode raws
  rw [hk, templates_setKeys]

theorem keys_stripAll_of_ne (c : Caches) {other : Trimming} (h : mode ≠ other) (raws : List String) :
    (stripAll mode c raws).2.keys other = c.keys other := by
  obtain ⟨keys, hk⟩ := exists_snd_stripAll c mode raws
  rw [hk, keys_setKeys_of_ne c h]

theorem bindMarked_eq_ok_iff {index : Nat} {context after : Context} {es : List (String × Value)} :
    bindMarked mode index context es c = (.ok after, d) ↔
      ∃ keys : List String, stripAll mode c (es.map Prod.fst) = (keys.map some, d) ∧
        after = context.insertAll (keys.zip (es.map Prod.snd)) := by
  induction es generalizing c index context with
  | nil =>
    rw [bindMarked, List.map_nil, stripAll_nil]
    constructor
    · intro h
      cases h
      exact ⟨[], rfl, rfl⟩
    · rintro ⟨_ | ⟨key, keys⟩, hk, rfl⟩
      · cases hk
        rfl
      · cases hk
  | cons e es ih =>
    obtain ⟨raw, v⟩ := e
    rw [bindMarked, List.map_cons, List.map_cons]
    rcases hs : c.strip? mode raw with ⟨_ | key, c'⟩
    · rw [stripAll_cons hs]
      constructor
      · intro h
        cases h
      · rintro ⟨_ | ⟨key, keys⟩, hk, -⟩ <;> cases hk
    · rw [stripAll_cons hs]
      refine Iff.trans ih ?_
      constructor
      · rintro ⟨keys, hk, rfl⟩
        exact ⟨key :: keys, by rw [hk]; rfl, rfl⟩
      · rintro ⟨_ | ⟨key', keys⟩, hk, rfl⟩
        · cases hk
        · simp only [List.map_cons, Prod.mk.injEq, List.cons.injEq, Option.some.injEq] at hk
          obtain ⟨⟨rfl, hk⟩, hd⟩ := hk
          exact ⟨keys, Prod.ext hk hd, rfl⟩

theorem exists_of_bindMarked_eq_error {index : Nat} {context : Context} {es : List (String × Value)}
    {e : ArgumentError} (h : bindMarked mode index context es c = (.error e, d)) :
    ∃ i raw, e = .unmarkedKey (index + 2 * i) raw ∧ (es.map Prod.fst)[i]? = some raw ∧
      d = (stripAll mode c ((es.map Prod.fst).take (i + 1))).2 ∧
      d = (stripAll mode c ((es.map Prod.fst).take i)).2.missed mode := by
  induction es generalizing c index context with
  | nil => cases h
  | cons e es ih =>
    obtain ⟨raw, v⟩ := e
    rw [bindMarked] at h
    rw [List.map_cons]
    rcases hs : c.strip? mode raw with ⟨_ | key, c'⟩
    · rw [hs] at h
      cases h
      refine ⟨0, raw, rfl, rfl, ?_, eq_missed_of_strip? hs⟩
      rw [List.take_succ_cons, stripAll_cons hs]
      rfl
    · rw [hs] at h
      obtain ⟨i, raw', rfl, hr, hd, hm⟩ := ih h
      refine ⟨i + 1, raw', ?_, hr, ?_, ?_⟩
      · rw [Nat.mul_succ, Nat.add_assoc, Nat.add_comm 2]
      · rw [List.take_succ_cons, stripAll_cons hs]
        exact hd
      · rw [List.take_succ_cons, stripAll_cons hs]
        exact hm

end Stencil.Caches
