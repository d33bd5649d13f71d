import Mathlib.Logic.Function.Basic
import Stencil.Proofs.Caches.Use

namespace Stencil

namespace Lru

variable {κ ν : Type} [Ord κ]

structure Sourced (make given : κ → Option ν) (c : Lru κ ν) : Prop where
  content : c.All fun k v => make k = some v ∨ given k = some v
  follows : ∃ room row, Follows room c row

variable {make given : κ → Option ν} {c : Lru κ ν}

theorem Sourced.fst_fetch (h : Sourced make given c) (k : κ) :
    (c.fetch make k).1 = make k ∨ ∃ v, given k = some v ∧ (c.fetch make k).1 = some v := by
  rcases h.content.fst_fetch make k with hf | ⟨v, hf, hm | hg⟩
  · exact .inl hf
  · exact .inl (hf.trans hm.symm)
  · exact .inr ⟨v, hg, hf⟩

variable [Std.TransOrd κ]

theorem sourced_empty (make given : κ → Option ν) (capacity : Nat) :
    Sourced make given (empty capacity) :=
  ⟨all_empty _ capacity, _, _, follows_empty capacity⟩

variable [Std.LawfulEqOrd κ] [DecidableEq κ]

namespace Sourced

theorem fetch (h : Sourced make given c) (k : κ) : Sourced make given (c.fetch make k).2 := by
  constructor
  · exact h.content.fetch fun v hv => .inl hv
  · obtain ⟨room, row, hf⟩ := h.follows
    exact ⟨room, _, (hf.fetch make k).2⟩

theorem put (h : Sourced make given c) (k : κ) (v : ν) :
    Sourced make (Function.update given k (some v)) (c.put k v) := by
  constructor
  · refine h.content.put_of_ne ?_ (.inr (Function.update_self k _ _))
    intro j w hj hw
    rw [Function.update_of_ne hj]
    exact hw
  · obtain ⟨room, row, hf⟩ := h.follows
    exact ⟨room, _, hf.put k v⟩

theorem fst_fetch_put (h : Sourced make given c) (k : κ) (v : ν) :
    ((c.put k v).fetch make k).1 = some v := by
  obtain ⟨room, row, hf⟩ := h.follows
  have hg := hf.get?_put k v
  rw [Lru.fetch]
  revert hg
  rcases (c.put k v).get? k with ⟨_ | w, c⟩
  · intro hg
    cases hg
  · exact id

end Sourced

end Lru

namespace Caches

namespace Use

def putTokens? (template : String) : Use → Option (List Token)
  | .ask (.putTokens other ts) => if other = template then some ts else none
  | _ => none

def putKey? (mode : Trimming) (raw : String) : Use → Option String
  | .ask (.putKey other raw' key) => if other = mode ∧ raw' = raw then some key else none
  | _ => none

end Use

def latestTokens? (uses : List Use) (template : String) : Option (List Token) :=
  uses.reverse.findSome? (Use.putTokens? template)

def latestKey? (uses : List Use) (mode : Trimming) (raw : String) : Option String :=
  uses.reverse.findSome? (Use.putKey? mode raw)

theorem latestTokens?_concat (uses : List Use) (x : Use) (template : String) :
    latestTokens? (uses ++ [x]) template = (x.putTokens? template).or (latestTokens? uses template) :=
  Machine.findSome?_reverse_concat _ uses x

theorem latestKey?_concat (uses : List Use) (x : Use) (mode : Trimming) (raw : String) :
    latestKey? (uses ++ [x]) mode raw = (x.putKey? mode raw).or (latestKey? uses mode raw) :=
  Machine.findSome?_reverse_concat _ uses x

theorem latest_concat_of_not_isPut (uses : List Use) {x : Use} (hx : ¬ x.isPut) :
    latestTokens? (uses ++ [x]) = latestTokens? uses ∧
      latestKey? (uses ++ [x]) = latestKey? uses := by
  have hn : ∀ template mode raw, x.putTokens? template = none ∧ x.putKey? mode raw = none := by
    intro template mode raw
    cases x with
    | ask request =>
      cases request with
      | putTokens | putKey => exact absurd rfl hx
      | _ => exact ⟨rfl, rfl⟩
    | render => exact ⟨rfl, rfl⟩
  constructor
  · funext template
    rw [latestTokens?_concat, (hn template .trimmed "").1, Option.none_or]
  · funext mode raw
    rw [latestKey?_concat, (hn "" mode raw).2, Option.none_or]

theorem latestTokens?_putTokens (uses : List Use) (template : String) (ts : List Token) :
    latestTokens? (uses ++ [.ask (.putTokens template ts)]) =
      Function.update (latestTokens? uses) template (some ts) := by
  funext other
  rw [latestTokens?_concat, Use.putTokens?]
  by_cases ho : template = other
  · rw [if_pos ho, ← ho, Function.update_self, Option.some_or]
  · rw [if_neg ho, Function.update_of_ne (Ne.symm ho), Option.none_or]

theorem latestKey?_putKey (uses : List Use) (mode : Trimming) (raw key : String) :
    latestKey? (uses ++ [.ask (.putKey mode raw key)]) mode =
      Function.update (latestKey? uses mode) raw (some key) := by
  funext other
  rw [latestKey?_concat, Use.putKey?]
  by_cases ho : raw = other
  · rw [if_pos ⟨rfl, ho⟩, ← ho, Function.update_self, Option.some_or]
  · rw [if_neg (fun h => ho h.2), Function.update_of_ne (Ne.symm ho), Option.none_or]

theorem latestKey?_putKey_of_ne (uses : List Use) {mode other : Trimming} (h : mode ≠ other)
    (raw key : String) :
    latestKey? (uses ++ [.ask (.putKey mode raw key)]) other = latestKey? uses other := by
  funext raw'
  rw [latestKey?_concat, Use.putKey?, if_neg (fun ho => h ho.1), Option.none_or]

structure Sourced (uses : List Use) (c : Caches) : Prop where
  templates : c.templates.Sourced (fun template => some (Template.tokens template)) (latestTokens? uses)
  keys : ∀ mode, (c.keys mode).Sourced (Marker.strip? mode) (latestKey? uses mode)

theorem sourced_empty (capacities : Capacities) : Sourced [] (empty capacities) := by
  refine ⟨Lru.sourced_empty _ _ _, ?_⟩
  intro mode
  cases mode <;> exact Lru.sourced_empty _ _ _

namespace Sourced

variable {uses : List Use} {c : Caches}

theorem tokens (h : Sourced uses c) (template : String) : Sourced uses (c.tokens template).2 := by
  rw [(c.tokens_eq_fetch template).2]
  constructor
  · exact h.templates.fetch template
  · intro mode
    rw [keys_templates]
    exact h.keys mode

theorem strip? (h : Sourced uses c) (mode : Trimming) (raw : String) :
    Sourced uses (c.strip? mode raw).2 := by
  rw [strip?_eq_fetch]
  constructor
  · rw [templates_setKeys]
    exact h.templates
  · exact forall_keys_setKeys (Q := fun mode keys =>
      keys.Sourced (Marker.strip? mode) (latestKey? uses mode)) h.keys ((h.keys mode).fetch raw)

theorem putTokens (h : Sourced uses c) (template : String) (ts : List Token) :
    Sourced (uses ++ [.ask (.putTokens template ts)]) (c.putTokens template ts) := by
  constructor
  · rw [latestTokens?_putTokens]
    exact h.templates.put template ts
  · intro mode
    have hk : latestKey? (uses ++ [.ask (.putTokens template ts)]) mode = latestKey? uses mode :=
      funext fun raw => latestKey?_concat uses _ mode raw
    rw [hk, Caches.putTokens, keys_templates]
    exact h.keys mode

theorem putKey (h : Sourced uses c) (mode : Trimming) (raw key : String) :
    Sourced (uses ++ [.ask (.putKey mode raw key)]) (c.putKey mode raw key) := by
  constructor
  · have ht : latestTokens? (uses ++ [.ask (.putKey mode raw key)]) = latestTokens? uses :=
      funext fun template => latestTokens?_concat uses _ template
    rw [ht, Caches.putKey, templates_setKeys]
    exact h.templates
  · intro other
    rw [Caches.putKey]
    by_cases hm : mode = other
    · subst hm
      rw [keys_setKeys, latestKey?_putKey]
      exact (h.keys mode).put raw key
    · rw [keys_setKeys_of_ne c hm, latestKey?_putKey_of_ne uses hm]
      exact h.keys other

theorem use (h : Sourced uses c) (x : Use) : Sourced (uses ++ [x]) (c.use x).2 := by
  by_cases hx : x.isPut
  · match x with
    | .ask (.putTokens template ts) => exact h.putTokens template ts
    | .ask (.putKey mode raw key) => exact h.putKey mode raw key
  · obtain ⟨ht, hk⟩ := latest_concat_of_not_isPut uses hx
    have hu : Sourced uses (c.use x).2 :=
      invariant_use (fun _ template h => h.tokens template) (fun _ mode raw h => h.strip? mode raw) h hx
    constructor
    · rw [ht]
      exact hu.templates
    · rw [hk]
      exact hu.keys

theorem run (h : Sourced uses c) (more : List Use) :
    Sourced (uses ++ more) (Machine.run Caches.use c more).2 := by
  induction more generalizing c uses with
  | nil =>
    rw [List.append_nil]
    exact h
  | cons x more ih =>
    have hx := ih (h.use x)
    rw [List.append_assoc] at hx
    exact hx

theorem fst_tokens (h : Sourced uses c) (template : String) :
    (c.tokens template).1 = Template.tokens template ∨
      latestTokens? uses template = some (c.tokens template).1 := by
  have hf := h.templates.fst_fetch template
  rw [(c.tokens_eq_fetch template).1] at hf
  rcases hf with hf | ⟨ts, hg, hf⟩
  · exact .inl (Option.some.inj hf)
  · exact .inr (hg.trans hf.symm)

theorem fst_strip? (h : Sourced uses c) (mode : Trimming) (raw : String) :
    (c.strip? mode raw).1 = Marker.strip? mode raw ∨
      ∃ key, latestKey? uses mode raw = some key ∧ (c.strip? mode raw).1 = some key := by
  rw [strip?_eq_fetch]
  exact (h.keys mode).fst_fetch raw

theorem fst_tokens_putTokens (h : Sourced uses c) (template : String) (ts : List Token) :
    ((c.putTokens template ts).tokens template).1 = ts := by
  have hf := ((c.putTokens template ts).tokens_eq_fetch template).1
  exact Option.some.inj (hf.symm.trans (h.templates.fst_fetch_put template ts))

theorem fst_strip?_putKey (h : Sourced uses c) (mode : Trimming) (raw key : String) :
    ((c.putKey mode raw key).strip? mode raw).1 = some key := by
  rw [strip?_eq_fetch, Caches.putKey, keys_setKeys]
  exact (h.keys mode).fst_fetch_put raw key

end Sourced

/-- Behind any run, puts from outside included, a template has the tokens that are worked out for it or
those last put for it, and a marked key that of its marker or the one last put for it in its mode. A
put shows at once. -/
theorem run_sourced (capacities : Capacities) (uses : List Use) :
    let c := (Machine.run use (empty capacities) uses).2
    (∀ template, ∃ ts, (c.use (.ask (.tokens template))).1 = .tokens ts ∧
      (ts = Template.tokens template ∨ latestTokens? uses template = some ts)) ∧
    (∀ mode raw, ∃ key?, (c.use (.ask (.strip mode raw))).1 = .key key? ∧
      (key? = Marker.strip? mode raw ∨
        ∃ key, latestKey? uses mode raw = some key ∧ key? = some key)) ∧
    (∀ template ts, ((c.putTokens template ts).tokens template).1 = ts) ∧
    ∀ mode raw key, ((c.putKey mode raw key).strip? mode raw).1 = some key := by
  intro c
  have h : Sourced uses c := (sourced_empty capacities).run uses
  refine ⟨?_, ?_, h.fst_tokens_putTokens, h.fst_strip?_putKey⟩
  · intro template
    exact ⟨_, rfl, h.fst_tokens template⟩
  · intro mode raw
    exact ⟨_, rfl, h.fst_strip? mode raw⟩

end Caches

end Stencil
