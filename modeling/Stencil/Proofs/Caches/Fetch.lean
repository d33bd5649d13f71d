import Stencil.Caches
import Stencil.Proofs.Lru.Fetch

namespace Stencil.Caches

@[simp] theorem setKeys_keys (c : Caches) (mode : Trimming) : c.setKeys mode (c.keys mode) = c := by
  cases mode <;> rfl

@[simp] theorem setKeys_setKeys (c : Caches) (mode : Trimming) (keys keys' : Lru String String) :
    (c.setKeys mode keys).setKeys mode keys' = c.setKeys mode keys' := by
  cases mode <;> rfl

@[simp] theorem templates_setKeys (c : Caches) (mode : Trimming) (keys : Lru String String) :
    (c.setKeys mode keys).templates = c.templates := by
  cases mode <;> rfl

theorem keys_setKeys_of_ne (c : Caches) {mode other : Trimming} (h : mode ≠ other)
    (keys : Lru String String) : (c.setKeys mode keys).keys other = c.keys other := by
  cases mode <;> cases other <;> simp_all [setKeys, Caches.keys]

theorem forall_keys_setKeys {Q : Trimming → Lru String String → Prop} {c : Caches}
    (h : ∀ mode, Q mode (c.keys mode)) {mode : Trimming} {keys : Lru String String}
    (hk : Q mode keys) (other : Trimming) : Q other ((c.setKeys mode keys).keys other) := by
  by_cases hm : mode = other
  · subst hm
    rw [keys_setKeys]
    exact hk
  · rw [keys_setKeys_of_ne c hm]
    exact h other

theorem keys_templates (c : Caches) (templates : Lru String (List Token)) (mode : Trimming) :
    Caches.keys { c with templates } mode = c.keys mode := by
  cases mode <;> rfl

abbrev fetchTokens : Lru String (List Token) → String → Option (List Token) × Lru String (List Token) :=
  Lru.fetch fun template => some (Template.tokens template)

abbrev fetchKey (mode : Trimming) : Lru String String → String → Option String × Lru String String :=
  Lru.fetch (Marker.strip? mode)

theorem tokens_eq_fetch (c : Caches) (template : String) :
    (fetchTokens c.templates template).1 = some (c.tokens template).1 ∧
      (c.tokens template).2 = { c with templates := (fetchTokens c.templates template).2 } := by
  rw [tokens, fetchTokens, Lru.fetch]
  rcases c.templates.get? template with ⟨_ | ts, templates⟩ <;> exact ⟨rfl, rfl⟩

theorem strip?_eq_fetch (c : Caches) (mode : Trimming) (raw : String) :
    c.strip? mode raw =
      ((fetchKey mode (c.keys mode) raw).1, c.setKeys mode (fetchKey mode (c.keys mode) raw).2) := by
  rw [strip?, fetchKey, Lru.fetch]
  rcases (c.keys mode).get? raw with ⟨_ | key, keys⟩
  · cases Marker.strip? mode raw <;> rfl
  · rfl

end Stencil.Caches
