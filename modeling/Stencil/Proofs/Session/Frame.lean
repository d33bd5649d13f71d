import Stencil.Proofs.Caches.Reached
import Stencil.Proofs.Session.Transparency

namespace Stencil.Session

open Renderer (Edit)

def Step.edit? (name : String) : Step → Option Edit
  | .edit renderer e => if renderer = name then some e else none
  | _ => none

def Step.rebinds (name : String) : Step → Bool
  | .bind renderer _ _ => renderer == name
  | .assign renderer _ => renderer == name
  | .copy _ target => target == name
  | _ => false

def PutsInto (s : Session) (i : Nat) : Step → Prop
  | .ask service request => request.isPut ∧ s.named.get? service = some i
  | _ => False

variable {s : Session} {name : String} {i : Nat}

theorem eq_edit_of_edit? {x : Step} {e : Edit} (h : x.edit? name = some e) : x = .edit name e := by
  cases x with
  | edit n e' =>
    rw [Step.edit?] at h
    split at h
    · rename_i hn
      cases h
      rw [hn]
    · cases h
  | create | ask | bind | assign | copy | query => cases h

theorem withName_snd {α : Type} {P : Session → Prop} {d : Dict α} {go : α → Answer × Session}
    (hs : P s) (hgo : ∀ a, d.get? name = some a → P (go a).2) : P (s.withName d name go).2 := by
  rw [withName]
  cases hd : d.get? name with
  | some a => exact hgo a hd
  | none => exact hs

theorem serviceAt_bind (n : String) (j : Nat) (o : Renderer.Origin) :
    (s.bind n j o).2.serviceAt i = (s.setService j (o.bind (s.serviceAt j)).2).serviceAt i := by
  rw [Session.bind]
  rcases o.bind (s.serviceAt j) with ⟨_ | _, c⟩ <;> rfl

theorem serviceAt_edit (n : String) (r : Renderer) (e : Edit) :
    (s.edit n r e).2.serviceAt i =
      (s.setService r.service (e.apply (s.serviceAt r.service) r.context).2).serviceAt i := by
  rw [Session.edit]
  rcases e.apply (s.serviceAt r.service) r.context with ⟨_ | _, c⟩ <;> rfl

theorem reached_setService {j : Nat} {c : Caches} (h : (s.serviceAt i).Reached)
    (hc : j = i → c.Reached) : ((s.setService j c).serviceAt i).Reached := by
  by_cases hj : j = i
  · -- no service is set at a place behind the row
    cases serviceAt_setService s j i c with
    | inl hs => rw [hs]; exact hc hj
    | inr hs => rw [hs]; exact h
  · have hs : (s.setService j c).serviceAt i = s.serviceAt i := by
      simp [serviceAt, setService, List.getElem?_set_ne hj]
    rw [hs]
    exact h

theorem reached_bind (h : (s.serviceAt i).Reached) (n : String) (j : Nat) (o : Renderer.Origin) :
    ((s.bind n j o).2.serviceAt i).Reached := by
  rw [serviceAt_bind]
  exact reached_setService h fun hj => .bind o (hj ▸ h)

theorem reached_step {x : Step} (h : (s.serviceAt i).Reached) (hx : ¬ s.PutsInto i x) :
    ((s.step x).2.serviceAt i).Reached := by
  let P := fun s' : Session => (s'.serviceAt i).Reached
  cases x with
  | create n capacities =>
    rw [step]
    cases serviceAt_create s n capacities i with
    | inl hs =>
      rw [hs]
      exact h
    | inr hs =>
      obtain ⟨other, hs⟩ := hs
      rw [hs]
      exact .empty other
  | ask service request =>
    refine withName_snd (P := P) h fun j hj => ?_
    apply reached_setService h
    rintro rfl
    exact .reply h fun hp => hx ⟨hp, hj⟩
  | bind n service o =>
    cases service with
    | none => exact reached_bind h n shared o
    | some service => exact withName_snd (P := P) h fun j _ => reached_bind h n j o
  | assign n service =>
    exact withName_snd (P := P) h fun j _ => withName_snd (P := P) h fun _ _ => h
  | copy n target => exact withName_snd (P := P) h fun _ _ => h
  | edit n e =>
    refine withName_snd (P := P) h fun r _ => ?_
    show ((s.edit n r e).2.serviceAt i).Reached
    rw [serviceAt_edit]
    exact reached_setService h fun hj => .edit r.context e (hj ▸ h)
  | query n q =>
    refine withName_snd (P := P) h fun r _ => ?_
    exact reached_setService h fun hj => .query r.context q (hj ▸ h)

theorem get?_setRenderer_self (r : Renderer) : (s.setRenderer name r).renderers.get? name = some r := by
  rw [setRenderer, Dict.get?_insert, if_pos rfl]

theorem get?_setRenderer_of_ne {n : String} (h : n ≠ name) (r : Renderer) :
    (s.setRenderer n r).renderers.get? name = s.renderers.get? name := by
  rw [setRenderer, Dict.get?_insert, if_neg (Ne.symm h)]

theorem get?_bind_of_ne {n : String} (h : n ≠ name) (j : Nat) (o : Renderer.Origin) :
    (s.bind n j o).2.renderers.get? name = s.renderers.get? name := by
  rw [Session.bind]
  rcases o.bind (s.serviceAt j) with ⟨error | c, caches⟩
  · rfl
  · exact get?_setRenderer_of_ne h ⟨c, j⟩

theorem get?_edit_of_ne {n : String} (h : n ≠ name) (r : Renderer) (e : Edit) :
    (s.edit n r e).2.renderers.get? name = s.renderers.get? name := by
  rw [Session.edit]
  rcases e.apply (s.serviceAt r.service) r.context with ⟨error | c, caches⟩
  · rfl
  · exact get?_setRenderer_of_ne h { r with context := c }

theorem get?_renderers_step {x : Step} (hr : ¬ x.rebinds name) (he : x.edit? name = none) :
    (s.step x).2.renderers.get? name = s.renderers.get? name := by
  let P := fun s' : Session => s'.renderers.get? name = s.renderers.get? name
  cases x with
  | create n capacities => rfl
  | ask service request => exact withName_snd (P := P) rfl fun _ _ => rfl
  | bind n service o =>
    have hn : n ≠ name := by simpa [Step.rebinds] using hr
    cases service with
    | none => exact get?_bind_of_ne hn shared o
    | some service => exact withName_snd (P := P) rfl fun j _ => get?_bind_of_ne hn j o
  | assign n service =>
    have hn : n ≠ name := by simpa [Step.rebinds] using hr
    refine withName_snd (P := P) rfl fun j _ => ?_
    exact withName_snd (P := P) rfl fun r _ => get?_setRenderer_of_ne hn { r with service := j }
  | copy n target =>
    have hn : target ≠ name := by simpa [Step.rebinds] using hr
    exact withName_snd (P := P) rfl fun r _ => get?_setRenderer_of_ne hn r
  | edit n e =>
    have hn : n ≠ name := by simpa [Step.edit?] using he
    exact withName_snd (P := P) rfl fun r _ => get?_edit_of_ne hn r e
  | query n q => exact withName_snd (P := P) rfl fun _ _ => rfl

end Stencil.Session
