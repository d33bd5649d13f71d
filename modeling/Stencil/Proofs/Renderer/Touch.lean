import Stencil.Proofs.Uncached

namespace Stencil

def KeyStyle.key? : KeyStyle → String → Option String
  | .plain, raw => some raw
  | .marked mode, raw => Marker.strip? mode raw

def KeyStyle.keyAll? (style : KeyStyle) : List (String × Value) → Option (List (String × Value))
  | [] => some []
  | (raw, v) :: es =>
    match style.key? raw, style.keyAll? es with
    | some key, some es => some ((key, v) :: es)
    | _, _ => none

namespace Arguments

/-- The keys and values of a list, unless it has an odd length or something else than a key in the place
of one. -/
def keyed? (style : KeyStyle) : List Value → Option (List (String × Value))
  | [] => some []
  | [_] => none
  | k :: v :: kvs =>
    match k.string?.bind style.key?, keyed? style kvs with
    | some key, some es => some ((key, v) :: es)
    | _, _ => none

theorem toOption_named_of_nullKey? {i j index : Nat} {ps : List (Value × Value)}
    (h : nullKey? i ps = some index) : (named j ps).toOption = none := by
  induction ps generalizing i j with
  | nil => cases h
  | cons p ps ih =>
    obtain ⟨k, v⟩ := p
    rw [nullKey?] at h
    rw [named]
    cases hk : k.string? with
    | none => rfl
    | some raw =>
      -- this key is a string, so the null one stands further on
      rw [Value.kind_of_string? hk, if_neg (by decide)] at h
      have rest : (named (j + 2) ps).toOption = none := ih h
      revert rest
      cases named (j + 2) ps with
      | ok es => intro rest; cases rest
      | error e => intro _; rfl

theorem bind_toOption_named (i : Nat) (kvs : List Value) :
    ((pairs? kvs).bind fun ps => (named i ps).toOption) = keyed? .plain kvs := by
  induction kvs using pairs?.induct generalizing i with
  | case1 => rfl
  | case2 k => rfl
  | case3 k v kvs ih =>
    rw [pairs?, keyed?, ← ih (i + 2)]
    cases pairs? kvs with
    | none => cases k.string? <;> rfl
    | some ps =>
      rw [Option.map_some, Option.bind_some, Option.bind_some, named]
      cases k.string? with
      | none => rfl
      | some raw => cases named (i + 2) ps <;> rfl

theorem toOption_check (kvs : List Value) : (check kvs).toOption = keyed? .plain kvs := by
  rw [← bind_toOption_named 0, check]
  cases pairs? kvs with
  | none => rfl
  | some ps =>
    cases hn : nullKey? 0 ps with
    | none => simp [hn]
    | some index => simp [hn, toOption_named_of_nullKey? hn]; rfl

theorem keyed?_eq_bind_keyAll? (style : KeyStyle) (kvs : List Value) :
    keyed? style kvs = (keyed? .plain kvs).bind style.keyAll? := by
  induction kvs using pairs?.induct with
  | case1 => rfl
  | case2 k => rfl
  | case3 k v kvs ih =>
    rw [keyed?, keyed?, ih]
    cases k.string? with
    | none => rfl
    | some raw =>
      cases keyed? .plain kvs with
      | none =>
        rw [Option.bind_some]
        cases style.key? raw <;> rfl
      | some es => rfl

end Arguments

namespace Uncached

theorem toOption_bindMarked (mode : Trimming) (index : Nat) (context : Context)
    (es : List (String × Value)) :
    (bindMarked mode index context es).toOption =
      ((KeyStyle.marked mode).keyAll? es).map context.insertAll := by
  induction es generalizing index context with
  | nil => rfl
  | cons e es ih =>
    obtain ⟨raw, v⟩ := e
    rw [bindMarked, KeyStyle.keyAll?, KeyStyle.key?]
    cases Marker.strip? mode raw with
    | none => rfl
    | some key =>
      simp only [ih]
      cases (KeyStyle.marked mode).keyAll? es <;> rfl

theorem toOption_bind (style : KeyStyle) (kvs : List Value) :
    (bind style kvs).toOption = (Arguments.keyed? style kvs).map Dict.ofList := by
  cases style with
  | plain =>
    rw [bind, Arguments.bindPlain, ← Arguments.toOption_check]
    cases Arguments.check kvs <;> rfl
  | marked mode =>
    rw [bind, Arguments.keyed?_eq_bind_keyAll?, ← Arguments.toOption_check]
    cases Arguments.check kvs with
    | error e => rfl
    | ok es => exact toOption_bindMarked mode 0 .empty es

theorem keyed?_of_bind_eq_error {style : KeyStyle} {kvs : List Value} {error : ArgumentError}
    (h : bind style kvs = .error error) : Arguments.keyed? style kvs = none := by
  have hb := toOption_bind style kvs
  rw [h] at hb
  exact Option.map_eq_none_iff.1 hb.symm

theorem keyed?_of_bind_eq_ok {style : KeyStyle} {kvs : List Value} {context : Context}
    (h : bind style kvs = .ok context) :
    ∃ es, Arguments.keyed? style kvs = some es ∧ context = .ofList es := by
  have hb := toOption_bind style kvs
  rw [h] at hb
  obtain ⟨es, he, hc⟩ := Option.map_eq_some_iff.1 hb.symm
  exact ⟨es, he, hc.symm⟩

end Uncached

namespace Renderer.Edit

/-- What an edit makes of a key: nothing if it does not touch it, else the value that it binds it to,
if any. -/
def touch (key : String) : Edit → Option (Option Value)
  | .merge style kvs =>
    (Arguments.keyed? style kvs).bind fun es => (es.reverse.lookup key).map some
  | .replace kvs => (Arguments.keyed? .plain kvs).map fun es => es.reverse.lookup key
  | .erase keys => if key ∈ keys then some none else none

def Fails : Edit → Prop
  | .merge style kvs => Arguments.keyed? style kvs = none
  | .replace kvs => Arguments.keyed? .plain kvs = none
  | .erase _ => False

theorem touch_eq_none_of_fails {e : Edit} (h : e.Fails) (key : String) : e.touch key = none := by
  cases e with
  | merge style kvs =>
    rw [Fails] at h
    rw [touch, h, Option.bind_none]
  | replace kvs =>
    rw [Fails] at h
    rw [touch, h, Option.map_none]
  | erase keys => cases h

inductive Outcome (context : Context) (e : Edit) : Except ArgumentError Context → Prop
  | failed (error : ArgumentError) : e.Fails → Outcome context e (.error error)
  | done {after : Context} : ¬ e.Fails →
    (∀ key, after.get? key = (e.touch key).getD (context.get? key)) → Outcome context e (.ok after)

theorem outcome (context : Context) (e : Edit) : Outcome context e (Uncached.edit context e) := by
  cases e with
  | merge style kvs =>
    rw [Uncached.edit]
    cases hb : Uncached.bind style kvs with
    | error error => exact .failed error (Uncached.keyed?_of_bind_eq_error hb)
    | ok bindings =>
      obtain ⟨es, he, rfl⟩ := Uncached.keyed?_of_bind_eq_ok hb
      refine .done (by simp [Fails, he]) ?_
      intro key
      rw [Dict.get?_union, Dict.get?_ofList, touch, he, Option.bind_some]
      cases es.reverse.lookup key <;> rfl
  | replace kvs =>
    rw [Uncached.edit]
    cases hb : Uncached.bind .plain kvs with
    | error error => exact .failed error (Uncached.keyed?_of_bind_eq_error hb)
    | ok bindings =>
      obtain ⟨es, he, rfl⟩ := Uncached.keyed?_of_bind_eq_ok hb
      refine .done (by simp [Fails, he]) ?_
      intro key
      rw [Dict.get?_ofList, touch, he]
      rfl
  | erase keys =>
    refine .done id ?_
    intro key
    rw [Dict.get?_eraseAll, touch]
    split <;> rfl

end Renderer.Edit

end Stencil
