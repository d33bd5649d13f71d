import Stencil.Proofs.Renderer.Touch
import Stencil.Proofs.Session.Frame

namespace Stencil.Session

open Renderer (Edit)

def Undisturbed (name : String) (i : Nat) (s : Session) : List Step → Prop
  | [] => True
  | x :: xs => ¬ x.rebinds name ∧ ¬ s.PutsInto i x ∧ Undisturbed name i (s.step x).2 xs

variable {s : Session} {name : String} {i : Nat} {context : Context}

structure Holds (name : String) (i : Nat) (context : Context) (s : Session) : Prop where
  reached : (s.serviceAt i).Reached
  renderer : s.renderers.get? name = some ⟨context, i⟩

inductive Edited (name : String) (i : Nat) (context : Context) (e : Edit) (x : Answer × Session) :
    Prop
  | failed (error : ArgumentError) : e.Fails → x.1 = .unedited error context →
    Holds name i context x.2 → Edited name i context e x
  | done {after : Context} : ¬ e.Fails → x.1 = Session.context after →
    (∀ key, after.get? key = (e.touch key).getD (context.get? key)) → Holds name i after x.2 →
    Edited name i context e x

theorem Holds.edited (h : Holds name i context s) (e : Edit) :
    Edited name i context e (s.step (.edit name e)) := by
  have hs : ((s.step (.edit name e)).2.serviceAt i).Reached := reached_step h.reached id
  have hx : s.step (.edit name e) = s.edit name ⟨context, i⟩ e := by
    rw [Session.step, withName, h.renderer]
  have hy := Edit.yields_apply h.reached.coherent context e
  have ho := e.outcome context
  rw [← hy.result] at ho
  rw [hx, Session.edit] at hs ⊢
  revert hs ho
  rcases e.apply (s.serviceAt i) context with ⟨result, c⟩
  intro hs ho
  cases ho with
  | failed error hf => exact .failed error hf rfl ⟨hs, h.renderer⟩
  | done hn hk => exact .done hn rfl hk ⟨hs, get?_setRenderer_self ⟨_, i⟩⟩

theorem Holds.step (h : Holds name i context s) {x : Step} (hr : ¬ x.rebinds name)
    (hp : ¬ s.PutsInto i x) :
    ∃ after, Holds name i after (s.step x).2 ∧
      ∀ key, after.get? key = ((x.edit? name).bind (Edit.touch key)).getD (context.get? key) := by
  cases he : x.edit? name with
  | none =>
    refine ⟨context, ⟨reached_step h.reached hp, ?_⟩, fun key => rfl⟩
    rw [get?_renderers_step hr he, h.renderer]
  | some e =>
    obtain rfl : x = .edit name e := eq_edit_of_edit? he
    cases h.edited e with
    | failed error hf _ hh =>
      refine ⟨context, hh, ?_⟩
      intro key
      rw [Option.bind_some, Edit.touch_eq_none_of_fails hf, Option.getD_none]
    | done _ _ hk hh => exact ⟨_, hh, hk⟩

theorem Holds.run (h : Holds name i context s) {xs : List Step} (hu : Undisturbed name i s xs) :
    ∃ after, Holds name i after (Machine.run Session.step s xs).2 ∧
      ∀ key, after.get? key =
        ((xs.filterMap (Step.edit? name)).reverse.findSome? (Edit.touch key)).getD
          (context.get? key) := by
  induction xs generalizing s context with
  | nil => exact ⟨context, h, fun key => rfl⟩
  | cons x xs ih =>
    obtain ⟨hr, hp, hu⟩ := hu
    obtain ⟨next, hn, hk⟩ := h.step hr hp
    obtain ⟨after, ha, hk'⟩ := ih hn hu
    refine ⟨after, ha, ?_⟩
    intro key
    rw [hk', hk, List.filterMap_cons]
    -- the first edit is asked last, once no later one has touched the key
    cases x.edit? name with
    | none => rfl
    | some e =>
      simp only [List.reverse_cons, List.findSome?_append, Option.getD_or,
        List.findSome?_singleton, Option.bind_some]

/-- Each key of a renderer's context has what the last edit that touched it made of it, or else what it
had before. Edits fail exactly if their lists are out of order, and then leave the context as it was. -/
theorem get?_run_eq_last_touch (hc : (s.serviceAt i).Reached)
    (hr : s.renderers.get? name = some ⟨context, i⟩) {steps : List Step}
    (hu : Undisturbed name i s steps) :
    ∃ after s', (Machine.run step s steps).2 = s' ∧ s'.renderers.get? name = some ⟨after, i⟩ ∧
      (∀ key, after.get? key =
        ((steps.filterMap (Step.edit? name)).reverse.findSome? (Edit.touch key)).getD
          (context.get? key)) ∧
      ∀ e : Edit, ((∃ error, (s'.step (.edit name e)).1 = .unedited error after) ↔ e.Fails) ∧
        (e.Fails → (s'.step (.edit name e)).2.renderers.get? name = some ⟨after, i⟩) := by
  obtain ⟨after, ha, hk⟩ := Holds.run ⟨hc, hr⟩ hu
  refine ⟨after, _, rfl, ha.renderer, hk, ?_⟩
  intro e
  cases ha.edited e with
  | failed error hf hx hh => exact ⟨⟨fun _ => hf, fun _ => ⟨error, hx⟩⟩, fun _ => hh.renderer⟩
  | done hn hx _ _ =>
    refine ⟨⟨?_, fun hf => absurd hf hn⟩, fun hf => absurd hf hn⟩
    rintro ⟨error, hy⟩
    rw [hx] at hy
    cases hy

theorem get?_run_eq_last_touch_crowded :
    let context : Context := .ofList [("k", .null), ("m", .string "old")]
    let s : Session := ((start ⟨1, 1⟩ ["shared"]).step (.bind "a" none (.given context))).2
    let steps : List Step :=
      [.edit "a" (Edit.fill [.string " k ->", .string "1", .string "k >>", .string "2"]),
        .copy "a" "b", .edit "a" (Edit.fill [.string "n ->", .string "3", .string "o", .null]),
        .edit "a" (.replace [.string "p"]), .ask "shared" (.strip .trimmed "n ->"),
        .edit "b" (Edit.add [.string "m", .string "5"]), .edit "a" (.erase ["m"])]
    (s.serviceAt 0).Reached ∧ s.renderers.get? "a" = some ⟨context, 0⟩ ∧ Undisturbed "a" 0 s steps ∧
      ∃ after, (Machine.run step s steps).2.renderers.get? "a" = some ⟨after, 0⟩ ∧
        after.get? "k" = some (.string "2") ∧ after.get? "m" = none ∧ after.get? "n" = none := by
  intro context s steps
  have hc : (s.serviceAt 0).Reached := .bind (.given context) (.empty ⟨1, 1⟩)
  have hr : s.renderers.get? "a" = some ⟨context, 0⟩ := rfl
  have hu : Undisturbed "a" 0 s steps := by
    have asked : ∀ s' : Session, ¬ s'.PutsInto 0 (.ask "shared" (.strip .trimmed "n ->")) := by
      rintro s' ⟨hp, -⟩
      cases hp
    exact ⟨by decide, id, by decide, id, by decide, id, by decide, id, by decide, asked _,
      by decide, id, by decide, id, trivial⟩
  obtain ⟨after, s', rfl, ha, hk, -⟩ := get?_run_eq_last_touch hc hr hu
  exact ⟨hc, hr, hu, after, ha, (hk "k").trans rfl, (hk "m").trans rfl, (hk "n").trans rfl⟩

end Stencil.Session
