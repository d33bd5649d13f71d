import Stencil.Proofs.Caches.Reached

namespace Stencil.Caches

inductive Use
  | ask (request : Request)
  | render (context : Context) (template : String)

def use (c : Caches) : Use → Reply × Caches
  | .ask request => c.reply request
  | .render context template =>
    let (s, c) := c.render context template
    (.text s, c)

def Use.isPut : Use → Bool
  | .ask request => request.isPut
  | .render _ _ => false

theorem snd_reply_bind (c : Caches) (style : KeyStyle) (kvs : List Value) :
    (c.reply (.bind style kvs)).2 = (c.bind style kvs).2 := by
  rw [reply]
  rcases c.bind style kvs with ⟨_ | _, _⟩ <;> rfl

theorem snd_render (c : Caches) (context : Context) (template : String) :
    (c.use (.render context template)).2 =
      if Text.allBlank template.toList then c else (c.tokens template).2 := by
  change (c.render context template).2 = _
  rw [render]
  split <;> rfl

theorem snd_renderInOrder (c : Caches) (template : String) (args : List Value) :
    (c.use (.ask (.renderInOrder template args))).2 =
      if Text.allBlank template.toList then c else (c.tokens template).2 := by
  change (c.renderInOrder template args).2 = _
  rw [renderInOrder]
  split <;> rfl

section Invariant

variable {P : Caches → Prop} (tokens : ∀ c template, P c → P (c.tokens template).2)
  (strip : ∀ c mode raw, P c → P (c.strip? mode raw).2) {c : Caches}

include strip in
theorem invariant_bindMarked (h : P c) (mode : Trimming) (index : Nat) (context : Context)
    (es : List (String × Value)) : P (bindMarked mode index context es c).2 := by
  induction es generalizing c index context with
  | nil => exact h
  | cons e es ih =>
    obtain ⟨raw, v⟩ := e
    have hs := strip c mode raw h
    rw [bindMarked]
    revert hs
    rcases c.strip? mode raw with ⟨_ | key, c⟩
    · exact id
    · intro hs
      apply ih hs

include strip in
theorem invariant_bind (h : P c) (style : KeyStyle) (kvs : List Value) : P (c.bind style kvs).2 := by
  cases style with
  | plain => exact h
  | marked mode =>
    rw [bind]
    cases Arguments.check kvs with
    | ok es => exact invariant_bindMarked strip h mode 0 .empty es
    | error e => exact h

include tokens strip in
theorem invariant_use (h : P c) {x : Use} (hx : ¬ x.isPut) : P (c.use x).2 := by
  have hblank : ∀ template, P (if Text.allBlank template.toList then c else (c.tokens template).2) := by
    intro template
    split
    · exact h
    · exact tokens c template h
  cases x with
  | ask request =>
    cases request with
    | tokens template => exact tokens c template h
    | strip mode raw => exact strip c mode raw h
    | bind style kvs =>
      rw [use, snd_reply_bind]
      exact invariant_bind strip h style kvs
    | renderInOrder template args =>
      rw [snd_renderInOrder]
      exact hblank template
    | hasTemplates | hasKeys | summary => exact h
    | putTokens | putKey => exact absurd rfl hx
  | render context template =>
    rw [snd_render]
    exact hblank template

end Invariant

theorem Coherent.use {c : Caches} (h : c.Coherent) {x : Use} (hx : ¬ x.isPut) :
    (c.use x).2.Coherent :=
  invariant_use (fun _ template h => (h.tokens template).coherent)
    (fun _ mode raw h => (h.strip? mode raw).coherent) h hx

end Stencil.Caches
