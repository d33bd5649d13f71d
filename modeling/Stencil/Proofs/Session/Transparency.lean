import Stencil.Proofs.Caches.Coherent
import Stencil.Proofs.Machine

/-! Caches never show in what a session answers: whatever their capacities, whoever shares them and
whatever they gave up, every step is answered as in a session without caches. -/

namespace Stencil

namespace Session

structure Means (s : Session) (u : Uncached) : Prop where
  coherent : ∀ i, (s.serviceAt i).Coherent
  named : ∀ name, (s.named.get? name).isSome ↔ name ∈ u.services
  renderers : ∀ name, (s.renderers.get? name).map Renderer.context = u.renderers.get? name

structure Alike (x : Answer × Session) (y : Answer × Uncached) : Prop where
  answer : x.1 = y.1
  means : Means x.2 y.2

theorem serviceAt_setService (s : Session) (i j : Nat) (c : Caches) :
    (s.setService i c).serviceAt j = c ∨ (s.setService i c).serviceAt j = s.serviceAt j := by
  simp only [serviceAt, setService, List.getD_eq_getElem?_getD, List.getElem?_set]
  split
  · split
    · exact .inl rfl
    · rename_i hij hi
      rw [← hij, List.getElem?_eq_none (Nat.not_lt.1 hi)]
      exact .inr rfl
  · exact .inr rfl

theorem serviceAt_create (s : Session) (name : String) (capacities : Capacities) (i : Nat) :
    (s.create name capacities).2.serviceAt i = s.serviceAt i ∨
      ∃ other, (s.create name capacities).2.serviceAt i = .empty other := by
  simp only [create, serviceAt, List.getD_eq_getElem?_getD]
  by_cases hi : i < s.services.length
  · rw [List.getElem?_append_left hi]
    exact .inl rfl
  · rw [List.getElem?_append_right (Nat.not_lt.1 hi)]
    cases i - s.services.length with
    | zero => exact .inr ⟨capacities, rfl⟩
    | succ j => exact .inr ⟨{}, rfl⟩

theorem means_start (capacities : Capacities) (names : List String) :
    Means (start capacities names) (Uncached.start names) := by
  constructor
  · intro i
    cases i with
    | zero => exact Caches.coherent_empty capacities
    | succ i => exact Caches.coherent_empty {}
  · intro name
    rw [start, Dict.get?_ofList, List.lookup_isSome_iff, Uncached.start]
    constructor
    · intro ⟨e, he, hn⟩
      rw [List.mem_reverse, List.mem_map] at he
      obtain ⟨other, ho, rfl⟩ := he
      exact eq_of_beq hn ▸ ho
    · intro hn
      exact ⟨(name, shared), by simpa using hn, beq_self_eq_true name⟩
  · intro name
    rfl

variable {s : Session} {u : Uncached}

namespace Means

theorem setService (h : Means s u) {c : Caches} (hc : c.Coherent) (i : Nat) :
    Means (s.setService i c) u := by
  refine ⟨?_, h.named, h.renderers⟩
  intro j
  cases serviceAt_setService s i j c with
  | inl hj => rw [hj]; exact hc
  | inr hj => rw [hj]; exact h.coherent j

theorem setRenderer (h : Means s u) (name : String) (r : Renderer) :
    Means (s.setRenderer name r) (u.setRenderer name r.context) := by
  refine ⟨h.coherent, h.named, ?_⟩
  intro other
  rw [Session.setRenderer, Uncached.setRenderer, Dict.get?_insert, Dict.get?_insert]
  split
  · rfl
  · exact h.renderers other

theorem assign (h : Means s u) {name : String} {r : Renderer} (hr : s.renderers.get? name = some r)
    (i : Nat) : Means (s.setRenderer name { r with service := i }) u := by
  refine ⟨h.coherent, h.named, ?_⟩
  intro other
  rw [Session.setRenderer, Dict.get?_insert, ← h.renderers other]
  split
  · rename_i he
    rw [he, hr]
    rfl
  · rfl

theorem create (h : Means s u) (name : String) (capacities : Capacities) :
    Means (s.create name capacities).2 { u with services := name :: u.services } := by
  refine ⟨?_, ?_, h.renderers⟩
  · intro i
    cases serviceAt_create s name capacities i with
    | inl hs =>
      rw [hs]
      exact h.coherent i
    | inr hs =>
      obtain ⟨other, hs⟩ := hs
      rw [hs]
      exact Caches.coherent_empty other
  · intro other
    rw [Session.create, Dict.get?_insert, List.mem_cons]
    split
    · rename_i he
      simp [he]
    · rename_i he
      simp [he, h.named other]

theorem withService (h : Means s u) {name : String} {go : Nat → Answer × Session}
    {y : Answer × Uncached} (hgo : ∀ i, Alike (go i) y) :
    Alike (s.withName s.named name go) (u.withService name y) := by
  have hn := h.named name
  rw [withName, Uncached.withService]
  cases hs : s.named.get? name with
  | some i =>
    rw [if_pos (hn.1 (by rw [hs]; rfl))]
    exact hgo i
  | none =>
    rw [if_neg]
    · exact ⟨rfl, h⟩
    · intro hm
      have := hn.2 hm
      rw [hs] at this
      cases this

theorem withRenderer (h : Means s u) {name : String} {go : Renderer → Answer × Session}
    {other : Context → Answer × Uncached}
    (hgo : ∀ r, s.renderers.get? name = some r → Alike (go r) (other r.context)) :
    Alike (s.withName s.renderers name go) (u.withRenderer name other) := by
  rw [withName, Uncached.withRenderer, ← h.renderers name]
  cases hs : s.renderers.get? name with
  | some r => exact hgo r hs
  | none => exact ⟨rfl, h⟩

theorem ask (h : Means s u) (i : Nat) {r : Caches.Request} (hr : r.isTransparent) :
    Alike (s.ask i r) (.service (Uncached.reply r), u) := by
  have hy := (h.coherent i).reply hr
  exact ⟨congrArg Answer.service hy.result, h.setService hy.coherent i⟩

theorem bind (h : Means s u) (name : String) (i : Nat) (o : Renderer.Origin) :
    Alike (s.bind name i o) (u.bindRenderer name o) := by
  have hy := Renderer.Origin.yields_bind (h.coherent i) o
  rw [Session.bind, Uncached.bindRenderer, ← hy.result]
  revert hy
  cases o.bind (s.serviceAt i) with
  | mk result c =>
    intro hy
    cases result with
    | ok context => exact ⟨rfl, (h.setService hy.coherent i).setRenderer name ⟨context, i⟩⟩
    | error r => exact ⟨rfl, h.setService hy.coherent i⟩

theorem edit (h : Means s u) (name : String) (r : Renderer) (e : Renderer.Edit) :
    Alike (s.edit name r e) (u.editRenderer name r.context e) := by
  have hy := Renderer.Edit.yields_apply (h.coherent r.service) r.context e
  rw [Session.edit, Uncached.editRenderer, ← hy.result]
  revert hy
  cases e.apply (s.serviceAt r.service) r.context with
  | mk result c =>
    intro hy
    have hm := h.setService hy.coherent r.service
    cases result with
    | ok context => exact ⟨rfl, hm.setRenderer name { r with context }⟩
    | error e => exact ⟨rfl, hm⟩

theorem query (h : Means s u) (r : Renderer) (q : Renderer.Query) :
    Alike (s.query r q) (.renderer (Uncached.query r.context q), u) := by
  have hy := Renderer.Query.yields_reply (h.coherent r.service) r.context q
  exact ⟨congrArg Answer.renderer hy.result, h.setService hy.coherent r.service⟩

end Means

def Step.isTransparent : Step → Bool
  | .ask _ request => request.isTransparent
  | _ => true

theorem Means.step (h : Means s u) {x : Step} (hx : x.isTransparent) :
    Alike (s.step x) (u.step x) := by
  cases x with
  | create name capacities => exact ⟨rfl, h.create name capacities⟩
  | ask name request => exact h.withService fun i => h.ask i hx
  | bind name service o =>
    cases service with
    | none => exact h.bind name shared o
    | some service => exact h.withService fun i => h.bind name i o
  | assign name service =>
    apply h.withService
    intro i
    apply h.withRenderer
    intro r hr
    exact ⟨rfl, h.assign hr i⟩
  | copy name target =>
    apply h.withRenderer
    intro r _
    exact ⟨rfl, h.setRenderer target r⟩
  | edit name e => exact h.withRenderer fun r _ => h.edit name r e
  | query name q => exact h.withRenderer fun r _ => h.query r q

/-- Whatever services a session has, of whatever capacities, and however renderers share them, it
answers every run of transparent steps as a session without caches does. -/
theorem run_start_eq_run_uncached (capacities : Capacities) (names : List String)
    (steps : List Step) (h : ∀ x ∈ steps, x.isTransparent) :
    (Machine.run step (start capacities names) steps).1 =
      (Machine.run Uncached.step (Uncached.start names) steps).1 := by
  have simulation : ∀ (s : Session) (u : Uncached) (x : Step), x.isTransparent → Means s u →
      (s.step x).1 = (u.step x).1 ∧ Means (s.step x).2 (u.step x).2 := by
    intro s u x hx hm
    have := hm.step hx
    exact ⟨this.answer, this.means⟩
  exact (Machine.run_simulation simulation h (means_start capacities names)).1

theorem run_start_eq_run_uncached_crowded :
    let list (ks : List String) : List Value := ks.flatMap fun k => [.string k, .string "x"]
    let steps : List Step :=
      [.create "s" ⟨0, 1⟩, .bind "a" (some "s") (.arguments (.marked .trimmed) (list ["k ->"])),
        .copy "a" "b", .edit "b" (Renderer.Edit.fill (list ["l >>", "m"])),
        .query "a" (.render "${k}${l}"), .edit "a" (.erase ["k"]), .query "b" (.render "${k}"),
        .ask "s" (.tokens "${k}${l}"), .ask "shared" (.strip .trimmed "k ->")]
    (∀ x ∈ steps, x.isTransparent) ∧
      (Machine.run step (start ⟨3, 0⟩ ["shared"]) steps).1 =
        (Machine.run Uncached.step (Uncached.start ["shared"]) steps).1 := by
  intro list steps
  have h : ∀ x ∈ steps, x.isTransparent := by decide
  exact ⟨h, run_start_eq_run_uncached ⟨3, 0⟩ ["shared"] steps h⟩

end Session

end Stencil
