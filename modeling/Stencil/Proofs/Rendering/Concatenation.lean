import Mathlib.Data.List.Infix
import Stencil.Proofs.Rendering.Supply
import Stencil.Proofs.Template.Tiling

namespace Stencil

namespace Supply

def after {σ : Type} (next : Supply σ) (s : σ) (keys : List String) : σ :=
  keys.foldl (fun s key => (next s key).2) s

theorem after_byKey (context : Context) (keys : List String) : after byKey context keys = context := by
  induction keys with
  | nil => rfl
  | cons key keys ih => exact ih

theorem after_inOrder (args keys : List String) :
    after inOrder args keys = args.drop keys.length := by
  induction keys generalizing args with
  | nil => rfl
  | cons key keys ih =>
    cases args with
    | nil => exact (ih []).trans List.drop_nil
    | cons a args => exact ih args

end Supply

namespace Template

open Text (width between?)

/-- No placeholder, be it empty or not, starts in the first of two texts and stops in the second. -/
def Apart (a b : String) : Prop :=
  ∀ start stop inner, inner.all isInner →
    between? start stop (a ++ b).toList = some (enclose inner) →
    ¬ (start < a.utf8ByteSize ∧ a.utf8ByteSize < stop)

def Within (cs rest : List Char) : Prop :=
  ∀ p ∈ occurrence? (cs ++ rest), rest.length ≤ p.2.length

instance (cs rest : List Char) : Decidable (Within cs rest) := by
  unfold Within
  infer_instance

theorem length_le_iff_width_le {cs rest ds behind : List Char} (h : cs ++ rest = ds ++ behind) :
    rest.length ≤ behind.length ↔ width ds ≤ width cs := by
  cases List.append_eq_append_iff.1 h with
  | inl h =>
    obtain ⟨more, rfl, rfl⟩ := h
    cases more with
    | nil => simp
    | cons c more =>
      have := c.utf8Size_pos
      simp
      omega
  | inr h =>
    obtain ⟨more, rfl, rfl⟩ := h
    simp

theorem apart_iff {a b : String} :
    Apart a b ↔ ∀ cs, cs <:+ a.toList → cs ≠ [] → Within cs b.toList := by
  simp only [Apart, Text.between?_eq_some_iff, String.toList_append, ← Text.width_toList a]
  constructor
  · intro h cs hcs hne p hp
    obtain ⟨before, ha⟩ := hcs
    obtain ⟨hp, hi⟩ := occurrence?_eq_some_iff.1 hp
    rw [length_le_iff_width_le hp]
    have hcut := h (width before) _ p.1 hi ⟨before, p.2, by rw [← ha]; simp [hp], rfl, rfl⟩
    have := Text.width_pos hne
    rw [← ha, Text.width_append] at hcut
    omega
  · rintro h start stop inner hi ⟨before, behind, hab, rfl, rfl⟩ ⟨hstart, hstop⟩
    rw [List.append_assoc] at hab
    -- the placeholder starts behind the first text, or inside of it at the front of a suffix
    cases List.append_eq_append_iff.1 hab with
    | inl ha =>
      obtain ⟨more, rfl, -⟩ := ha
      rw [Text.width_append] at hstart
      omega
    | inr ha =>
      obtain ⟨cs, ha, hp⟩ := ha
      rw [ha, Text.width_append] at hstart hstop
      have hne : cs ≠ [] := by
        rintro rfl
        simp at hstart
      have hw := h cs ⟨before, ha.symm⟩ hne (inner, behind) (occurrence?_eq_some_iff.2 ⟨hp.symm, hi⟩)
      rw [length_le_iff_width_le hp.symm] at hw
      omega

instance (a b : String) : Decidable (Apart a b) :=
  decidable_of_iff (∀ cs ∈ a.toList.tails, cs ≠ [] → Within cs b.toList)
    (by simp only [apart_iff, List.mem_tails])

namespace Chunk

def before : Chunk → List Chunk → List Chunk
  | .plain text, ks => text.foldr cons ks
  | .dollar text, ks => .dollar text :: ks
  | .hole inner, ks => .hole inner :: ks

theorem before_ofInner (inner : List Char) (ks : List Chunk) :
    (ofInner inner).before ks = ofInner inner :: ks := by
  cases inner <;> rfl

theorem foldr_before_cons (c : Char) (ks others : List Chunk) :
    (cons c ks).foldr before others = cons c (ks.foldr before others) := by
  match ks with
  | [] => rfl
  | .plain _ :: _ => rfl
  | .dollar _ :: _ => rfl
  | .hole _ :: _ => rfl

theorem filterMap_key?_foldr_before (ks others : List Chunk) :
    (ks.foldr before others).filterMap key? = ks.filterMap key? ++ others.filterMap key? := by
  induction ks with
  | nil => rfl
  | cons k ks ih =>
    cases k with
    | plain text => rw [List.foldr_cons, before, filterMap_key?_foldr_cons, ih]; rfl
    | dollar text => exact ih
    | hole inner => exact congrArg (_ :: ·) ih

variable {σ : Type} {next : Supply σ}

theorem supplied_foldr_before (s : σ) (ks others : List Chunk) :
    supplied next s (ks.foldr before others) =
      supplied next s ks ++ supplied next (next.after s (ks.filterMap key?)) others := by
  induction ks generalizing s with
  | nil => rfl
  | cons k ks ih =>
    rw [List.foldr_cons]
    cases k with
    | plain text =>
      rw [before, supplied_foldr_cons, ih, supplied, List.append_assoc]
      rfl
    | dollar text =>
      rw [before, supplied, ih, supplied, List.append_assoc]
      rfl
    | hole inner =>
      rw [before, supplied, ih, supplied, List.append_assoc]
      rfl

end Chunk

theorem Within.occurrence?_eq_none {cs rest : List Char} (h : Within cs rest)
    (hn : occurrence? cs = none) : occurrence? (cs ++ rest) = none := by
  rw [Option.eq_none_iff_forall_ne_some]
  intro p hp
  have hlen := h p hp
  obtain ⟨he, hi⟩ := occurrence?_eq_some_iff.1 hp
  have hle : (enclose p.1).length ≤ cs.length := by
    have := congrArg List.length he
    rw [List.length_append, List.length_append] at this
    omega
  obtain ⟨behind, hcs⟩ : enclose p.1 <+: cs :=
    List.prefix_of_prefix_length_le ⟨p.2, he.symm⟩ (List.prefix_append cs rest) hle
  exact occurrence?_eq_none_iff.1 hn p.1 behind hi hcs.symm

theorem chunks_append {a b : List Char} (h : ∀ cs, cs <:+ a → cs ≠ [] → Within cs b) :
    chunks (a ++ b) = (chunks a).foldr Chunk.before (chunks b) := by
  fun_induction chunks a with
  | case1 => rfl
  | case2 c cs inner rest ho ih =>
    obtain ⟨hc, hi⟩ := occurrence?_eq_some_iff.1 ho
    rw [hc] at h ⊢
    rw [List.append_assoc, chunks_enclose_append hi, List.foldr_cons, Chunk.before_ofInner,
      ih fun cs' hcs' => h cs' (hcs'.trans (List.suffix_append _ _))]
  | case3 c cs ho ih =>
    have hn : occurrence? (c :: (cs ++ b)) = none :=
      (h (c :: cs) List.suffix_rfl (List.cons_ne_nil c cs)).occurrence?_eq_none ho
    rw [List.cons_append, chunks_of_none hn, Chunk.foldr_before_cons,
      ih fun cs' hcs' => h cs' (hcs'.trans (List.suffix_cons c cs))]

theorem keys_append {a b : String} (h : Apart a b) : keys (a ++ b) = keys a ++ keys b := by
  rw [keys_eq, keys_eq, keys_eq, String.toList_append, chunks_append (apart_iff.1 h),
    Chunk.filterMap_key?_foldr_before]

end Template

namespace Uncached

open Template.Chunk (supplied_foldr_before)

variable {a b : String}

theorem render_append (h : Template.Apart a b) (context : Context) :
    render context (a ++ b) = render context a ++ render context b := by
  have hk := Template.chunks_append (Template.apart_iff.1 h)
  rw [← String.toList_inj, String.toList_append, toList_render_eq_supplied, toList_render_eq_supplied,
    toList_render_eq_supplied, String.toList_append, hk, supplied_foldr_before, Supply.after_byKey]

theorem renderInOrder_templates_append (h : Template.Apart a b) (args : List Value) :
    renderInOrder (a ++ b) args =
      renderInOrder a args ++ renderInOrder b (args.drop (Template.keys a).length) := by
  have hk := Template.chunks_append (Template.apart_iff.1 h)
  rw [← String.toList_inj, String.toList_append, toList_renderInOrder_eq_supplied,
    toList_renderInOrder_eq_supplied, toList_renderInOrder_eq_supplied, String.toList_append, hk,
    supplied_foldr_before, Supply.after_inOrder, ← Template.keys_eq, List.map_drop]

end Uncached

/-- If no placeholder starts in one template and stops in another, both of them in a row have the
keys of the one and then those of the other, and render as they do by themselves, the second one in order with
the values that the first one has left. -/
theorem Caches.render_append_of_apart {c d e : Caches} (hc : c.Reached) (hd : d.Reached)
    (he : e.Reached) {a b : String} (h : Template.Apart a b) :
    (∀ context, (c.render context (a ++ b)).1 =
      (d.render context a).1 ++ (e.render context b).1) ∧
    Template.keys (a ++ b) = Template.keys a ++ Template.keys b ∧
    ∀ args, (c.renderInOrder (a ++ b) args).1 =
      (d.renderInOrder a args).1 ++
        (e.renderInOrder b (args.drop (Template.keys a).length)).1 := by
  refine ⟨?_, Template.keys_append h, ?_⟩
  · intro context
    rw [hc.fst_render, hd.fst_render, he.fst_render]
    exact Uncached.render_append h context
  · intro args
    rw [hc.fst_renderInOrder, hd.fst_renderInOrder, he.fst_renderInOrder]
    exact Uncached.renderInOrder_templates_append h args

theorem Caches.render_append_of_apart_open :
    let a := "${k}$\x7b"
    let b := "${k: d}{} ${k}"
    let context : Context := .ofList [("k", .null)]
    let c : Caches := .empty {}
    let d : Caches := ((Caches.empty ⟨1, 1⟩).reply (.tokens a)).2
    c.Reached ∧ d.Reached ∧ Template.Apart a b ∧
      (c.render context (a ++ b)).1 = (d.render context a).1 ++ (d.render context b).1 ∧
      Template.keys (a ++ b) = Template.keys a ++ Template.keys b ∧
      (c.renderInOrder (a ++ b) [.string "1", .string "2"]).1 =
        (d.renderInOrder a [.string "1", .string "2"]).1 ++ (d.renderInOrder b [.string "2"]).1 := by
  intro a b context c d
  have hc : c.Reached := .empty {}
  have hd : d.Reached := .reply (.empty ⟨1, 1⟩) (by decide)
  have h : Template.Apart a b := by decide
  obtain ⟨hr, hk, ho⟩ := render_append_of_apart hc hd hd h
  have hn : (Template.keys a).length = 1 := by
    have ha : a.toList = Template.enclose ['k'] ++ ['$', '{'] := by decide
    rw [Template.keys_eq, ha, Template.chunks_enclose_append rfl, Template.chunks_of_none rfl,
      Template.chunks_of_none rfl, Template.chunks_nil]
    rfl
  refine ⟨hc, hd, h, hr context, hk, ?_⟩
  rw [ho, hn]
  rfl

end Stencil
