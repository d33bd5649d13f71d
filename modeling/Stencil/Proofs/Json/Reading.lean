import Mathlib.Data.List.Forall2
import Stencil.Proofs.Json.Scalar

namespace Stencil.Json

variable {α σ : Type}

/-- Containers nested no deeper than a number of levels, and whole numbers of 64 bits, with or without a
sign. -/
inductive Fits : Nat → Json → Prop
  | null {depth : Nat} : Fits depth .null
  | bool {depth : Nat} (b : Bool) : Fits depth (.bool b)
  | whole {depth : Nat} {n : Int} :
    -(Word.depth : Int) ≤ n → n < Word.limit → Fits depth (.number (.whole n))
  | string {depth : Nat} (s : String) : Fits depth (.string s)
  | array {depth : Nat} {items : List Json} :
    (∀ j ∈ items, Fits depth j) → Fits (depth + 1) (.array items)
  | object {depth : Nat} {members : List (String × Json)} :
    (∀ m ∈ members, Fits depth m.2) → Fits (depth + 1) (.object members)

theorem Fits.mono {depth deeper : Nat} (hd : depth ≤ deeper) {j : Json} (h : Fits depth j) :
    Fits deeper j := by
  induction h generalizing deeper with
  | null => exact .null
  | bool b => exact .bool b
  | whole low high => exact .whole low high
  | string s => exact .string s
  | array _ ih =>
    obtain ⟨deeper, rfl⟩ := Nat.exists_eq_add_of_lt hd
    exact .array fun j hj => ih j hj (by omega)
  | object _ ih =>
    obtain ⟨deeper, rfl⟩ := Nat.exists_eq_add_of_lt hd
    exact .object fun m hm => ih m hm (by omega)

/-- Whether a reader makes the given result of every text of a value, and of no more than that. -/
def Reads (read : Read α) (j : Json) (a : α) : Prop :=
  ∀ {g cs rest : List Char}, Gaps g → Spells j cs → Stops rest →
    read (g ++ cs ++ rest) = .ok (a, rest)

def ReadsMember (member : σ → String → Read σ) (s : σ) (m : String × Json) (s' : σ) : Prop :=
  ∀ {g h cs rest : List Char}, Gaps g → Gaps h → Spells m.2 cs → Stops rest →
    member s m.1 (g ++ ':' :: (h ++ cs ++ rest)) = .ok (s', rest)

inductive ReadsMembers (member : σ → String → Read σ) : σ → List (String × Json) → σ → Prop
  | nil {s : σ} : ReadsMembers member s [] s
  | cons {s s' s'' : σ} {m : String × Json} {ms : List (String × Json)} :
    ReadsMember member s m s' → ReadsMembers member s' ms s'' →
    ReadsMembers member s (m :: ms) s''

theorem ReadsMembers.append {member : σ → String → Read σ} {s s' s'' : σ}
    {ms ns : List (String × Json)} (h : ReadsMembers member s ms s')
    (h' : ReadsMembers member s' ns s'') : ReadsMembers member s (ms ++ ns) s'' := by
  induction h with
  | nil => exact h'
  | cons hm _ ih => exact .cons hm (ih h')

theorem stops_nil : Stops [] := by
  rintro c ⟨⟩

theorem stops_cons {c : Char} (hc : isGap c ∨ c = ',' ∨ c = ']' ∨ c = '}') (rest : List Char) :
    Stops (c :: rest) := by
  rintro d ⟨⟩
  exact hc

theorem Gaps.stops {g rest : List Char} (hg : Gaps g) (hr : Stops rest) : Stops (g ++ rest) := by
  cases g with
  | nil => exact hr
  | cons c g => exact stops_cons (.inl (List.all_eq_true.1 hg c List.mem_cons_self)) _

theorem Gaps.skip {g : List Char} (hg : Gaps g) {c : Char} (hc : isGap c = false)
    (cs : List Char) : skipGaps (g ++ c :: cs) = c :: cs := by
  rw [skipGaps_append hg, skipGaps_cons hc]

variable {depth : Nat} {rest : List Char}

theorem intText_eq_cons (n : Int) : ∃ c cs, intText n = c :: cs ∧ (c = '-' ∨ c.isDigit) := by
  rw [intText]
  split
  · exact ⟨_, _, rfl, .inl rfl⟩
  · cases hd : Decimal.digitText n.natAbs with
    | nil => exact absurd hd Nat.toDigits_ne_nil
    | cons d ds =>
      refine ⟨d, ds, rfl, .inr (isDigit_of_mem_digitText (n := n.natAbs) ?_)⟩
      rw [hd]
      exact List.mem_cons_self

theorem ne_of_isDigit {c d : Char} (h : c = '-' ∨ c.isDigit) (hd : ¬ d.isDigit) (hm : d ≠ '-') :
    c ≠ d := by
  rintro rfl
  exact h.elim hm hd

theorem isGap_of_isDigit {c : Char} (h : c = '-' ∨ c.isDigit) : isGap c = false ∧ c ≠ ']' := by
  simp [isGap, ne_of_isDigit h]

theorem Spells.eq_cons {j : Json} {cs : List Char} (h : Spells j cs) (hf : Fits depth j) :
    ∃ c more, cs = c :: more ∧ isGap c = false ∧ c ≠ ']' := by
  cases h with
  | null | tt | ff | string | noItems | array | noMembers | object =>
    exact ⟨_, _, rfl, rfl, by decide⟩
  | number =>
    cases hf with
    | @whole _ n _ _ =>
      obtain ⟨c, more, he, hc⟩ := intText_eq_cons n
      exact ⟨c, more, he, isGap_of_isDigit hc⟩

theorem SpellsItems.length_le {items : List Json} {cs : List Char} (h : SpellsItems items cs) :
    items.length ≤ cs.length + 1 := by
  induction items generalizing cs with
  | nil => exact Nat.zero_le _
  | cons j js ih =>
    cases h with
    | last => simp
    | cons _ _ _ hm =>
      have := ih hm
      simp
      omega

theorem readItems_of_reads {item : Read α} {items : List Json} {as : List α}
    (hi : List.Forall₂ (Reads item) items as) {cs : List Char} (hs : SpellsItems items cs) {n : Nat}
    (hn : items.length ≤ n) (rest : List Char) :
    readItems item n (cs ++ ']' :: rest) = .ok (as, rest) := by
  induction hi generalizing cs n with
  | nil => cases hs
  | @cons j a js as hj hjs ih =>
    obtain ⟨n, rfl⟩ := Nat.exists_eq_add_of_lt hn
    cases hs with
    | @last _ g t h hg ht hh =>
      cases hjs
      have hx := hj hg ht (hh.stops (stops_cons (c := ']') (by simp) rest))
      rw [readItems, List.append_assoc, hx]
      simp only [bind, Except.bind, hh.skip (c := ']') rfl]
      rfl
    | @cons _ _ g t h more hg ht hh hm =>
      have hx := hj hg ht (hh.stops (stops_cons (c := ',') (by simp) (more ++ ']' :: rest)))
      have hmore := ih hm (Nat.le_of_succ_le_succ hn)
      rw [readItems, List.append_assoc, List.append_assoc, List.cons_append, hx]
      simp only [bind, Except.bind, hh.skip (c := ',') rfl, hmore]
      rfl

theorem SpellsItems.skip {items : List Json} {cs : List Char} (h : SpellsItems items cs)
    (hf : ∀ j ∈ items, Fits depth j) :
    ∃ c more, SpellsItems items (c :: more) ∧ c ≠ ']' ∧
      ∀ rest, skipGaps (cs ++ rest) = c :: more ++ rest := by
  cases h with
  | @last j g t h hg ht hh =>
    obtain ⟨c, more, rfl, hc, hne⟩ := ht.eq_cons (hf j List.mem_cons_self)
    refine ⟨c, more ++ h, by simpa using SpellsItems.last gaps_nil ht hh, hne, ?_⟩
    intro rest
    simpa using hg.skip hc (more ++ h ++ rest)
  | @cons j js g t h rest hg ht hh hm =>
    obtain ⟨c, more, rfl, hc, hne⟩ := ht.eq_cons (hf j List.mem_cons_self)
    refine ⟨c, more ++ h ++ ',' :: rest, by simpa using SpellsItems.cons gaps_nil ht hh hm, hne, ?_⟩
    intro rest'
    simpa using hg.skip hc (more ++ h ++ ',' :: rest ++ rest')

theorem readArray_of_reads {item : Read α} {items : List Json} {as : List α}
    (hf : ∀ j ∈ items, Fits depth j) (hi : List.Forall₂ (Reads item) items as) {g cs : List Char}
    (hg : Gaps g) (hs : Spells (.array items) cs) (rest : List Char) :
    ∃ more, skipGaps (g ++ cs ++ rest) = '[' :: more ∧ readArray item more = .ok (as, rest) := by
  have hskip (inside : List Char) :
      skipGaps (g ++ ('[' :: inside ++ [']']) ++ rest) = '[' :: (inside ++ ']' :: rest) := by
    simpa using hg.skip (c := '[') rfl (inside ++ ']' :: rest)
  cases hs with
  | @noItems h hh =>
    cases hi
    refine ⟨_, hskip h, ?_⟩
    rw [readArray, hh.skip (c := ']') rfl]
    rfl
  | @array _ inside hs =>
    refine ⟨_, hskip inside, ?_⟩
    obtain ⟨c, more, hs, hne, hskip⟩ := hs.skip hf
    have hlen : items.length ≤ (c :: more ++ ']' :: rest).length := by
      have := hs.length_le
      simp at this ⊢
      omega
    rw [readArray, hskip]
    split
    · rename_i h
      exact absurd (List.cons.inj h).1 hne
    · exact readItems_of_reads hi hs hlen rest

theorem SpellsMembers.length_le {members : List (String × Json)} {cs : List Char}
    (h : SpellsMembers members cs) : members.length ≤ cs.length + 1 := by
  induction members generalizing cs with
  | nil => exact Nat.zero_le _
  | cons m ms ih =>
    cases h with
    | last => simp
    | cons _ hm =>
      have := ih hm
      simp
      omega

theorem readName_stringText {g : List Char} (hg : Gaps g) (name : String) (rest : List Char) :
    readName .strict (g ++ stringText name ++ rest) = .ok (name, rest) := by
  rw [readName, stringText, List.append_assoc, List.cons_append, List.cons_append,
    hg.skip (c := '"') rfl, List.append_assoc]
  exact readString_stringText name rest

theorem readColon_append {g : List Char} (hg : Gaps g) (rest : List Char) :
    readColon (g ++ ':' :: rest) = .ok rest := by
  rw [readColon, hg.skip (c := ':') rfl]
  rfl

theorem SpellsMember.read {member : σ → String → Read σ} {s s' : σ} {m : String × Json}
    (hm : ReadsMember member s m s') {cs : List Char} (hs : SpellsMember m cs) {c : Char}
    (hc : c = ',' ∨ c = '}') (rest : List Char) :
    ∃ name behind left, readName .strict (cs ++ c :: rest) = .ok (name, behind) ∧
      member s name behind = .ok (s', left) ∧ skipGaps left = c :: rest := by
  cases hs with
  | @mk name j g h i t k hg hh hi ht hk =>
    have hgap : isGap c = false := by
      rcases hc with rfl | rfl <;> rfl
    have hstop : Stops (k ++ c :: rest) :=
      hk.stops (stops_cons (hc.elim (fun h => .inr (.inl h)) fun h => .inr (.inr (.inr h))) rest)
    refine ⟨name, h ++ ':' :: (i ++ t ++ (k ++ c :: rest)), k ++ c :: rest, ?_, hm hh hi ht hstop,
      hk.skip hgap rest⟩
    rw [← readName_stringText hg]
    simp

theorem readMembers_of_reads {member : σ → String → Read σ} {s s' : σ}
    {members : List (String × Json)} (hm : ReadsMembers member s members s') {cs : List Char}
    (hs : SpellsMembers members cs) {n : Nat} (hn : members.length ≤ n) (rest : List Char) :
    readMembers .strict member n s (cs ++ '}' :: rest) = .ok (s', rest) := by
  induction hm generalizing cs n with
  | nil => cases hs
  | @cons s s' s'' m ms hm hms ih =>
    obtain ⟨n, rfl⟩ := Nat.exists_eq_add_of_lt hn
    cases hs with
    | last hs =>
      cases hms
      obtain ⟨name, behind, left, hname, hvalue, hskip⟩ := hs.read hm (.inr rfl) rest
      simp only [readMembers, hname, hvalue, hskip, bind, Except.bind]
      rfl
    | @cons _ _ t more hs hmore =>
      obtain ⟨name, behind, left, hname, hvalue, hskip⟩ :=
        hs.read hm (.inl rfl) (more ++ '}' :: rest)
      rw [List.append_assoc, List.cons_append]
      simp only [readMembers, hname, hvalue, hskip, bind, Except.bind]
      exact ih hmore (Nat.le_of_succ_le_succ hn)

theorem SpellsMember.skip {m : String × Json} {cs : List Char} (h : SpellsMember m cs) :
    ∃ more, SpellsMember m ('"' :: more) ∧ ∀ rest, skipGaps (cs ++ rest) = '"' :: more ++ rest := by
  cases h with
  | @mk name j g h i t k hg hh hi ht hk =>
    refine ⟨name.toList.flatMap escaped ++ ['"'] ++ h ++ ':' :: (i ++ t ++ k), ?_, ?_⟩
    · simpa [stringText] using SpellsMember.mk name gaps_nil hh hi ht hk
    · intro rest
      simpa [stringText] using hg.skip (c := '"') rfl _

theorem SpellsMembers.skip {members : List (String × Json)} {cs : List Char}
    (h : SpellsMembers members cs) :
    ∃ more, SpellsMembers members ('"' :: more) ∧
      ∀ rest, skipGaps (cs ++ rest) = '"' :: more ++ rest := by
  cases h with
  | last h =>
    obtain ⟨more, hm, hskip⟩ := h.skip
    exact ⟨more, .last hm, hskip⟩
  | cons h hms =>
    obtain ⟨more, hm, hskip⟩ := h.skip
    exact ⟨_, .cons hm hms, by simp [hskip]⟩

theorem readObject_of_reads {member : σ → String → Read σ} {s s' : σ}
    {members : List (String × Json)} (hm : ReadsMembers member s members s') {g cs : List Char}
    (hg : Gaps g) (hs : Spells (.object members) cs) (rest : List Char) :
    ∃ more, skipGaps (g ++ cs ++ rest) = '{' :: more ∧
      readObject .strict member s more = .ok (s', rest) := by
  have hskip (inside : List Char) :
      skipGaps (g ++ ('{' :: inside ++ ['}']) ++ rest) = '{' :: (inside ++ '}' :: rest) := by
    simpa using hg.skip (c := '{') rfl (inside ++ '}' :: rest)
  cases hs with
  | @noMembers h hh =>
    cases hm
    refine ⟨_, hskip h, ?_⟩
    rw [readObject, hh.skip (c := '}') rfl]
    rfl
  | @object _ inside hs =>
    refine ⟨_, hskip inside, ?_⟩
    obtain ⟨more, hs, hskip⟩ := hs.skip
    have hlen : members.length ≤ ('"' :: more ++ '}' :: rest).length := by
      have := hs.length_le
      simp at this ⊢
      omega
    rw [readObject, hskip]
    exact readMembers_of_reads hm hs hlen rest

theorem readsMember_push {value : Read Json} {m : String × Json} (hv : Reads value m.2 m.2)
    (before : List (String × Json)) :
    ReadsMember (pushMember value) before m (m :: before) := by
  intro g h cs rest hg hh hs hr
  rw [pushMember, readColon_append hg]
  simp only [bind, Except.bind, hv hh hs hr]
  rfl

theorem readsMembers_push {value : Read Json} {members : List (String × Json)}
    (hv : ∀ m ∈ members, Reads value m.2 m.2) (before : List (String × Json)) :
    ReadsMembers (pushMember value) before members (members.reverse ++ before) := by
  induction members generalizing before with
  | nil => exact .nil
  | cons m ms ih =>
    rw [List.forall_mem_cons] at hv
    rw [List.reverse_cons, List.append_assoc]
    exact .cons (readsMember_push hv.1 before) (ih hv.2 (m :: before))

theorem reads_of_readScalar {j : Json}
    (h : ∀ {cs rest : List Char}, Spells j cs → Stops rest →
      ∃ c more, cs = c :: more ∧ isGap c = false ∧ c ≠ '[' ∧ c ≠ '{' ∧
        readScalar .strict (cs ++ rest) = .ok (j, rest)) :
    Reads (readValue .strict depth) j j := by
  intro g cs rest hg hs hr
  obtain ⟨c, more, rfl, hgap, hb, hc, hread⟩ := h hs hr
  rw [← hread, List.append_assoc, List.cons_append]
  cases depth <;> simp [readValue, hg.skip hgap, hb, hc]

theorem readScalar_intText {n : Int} (low : -(Word.depth : Int) ≤ n) (high : n < Word.limit)
    (hr : Stops rest) :
    readScalar .strict (intText n ++ rest) = .ok (.number (.whole n), rest) := by
  have hread := readNumber_intText low high hr
  obtain ⟨c, more, he, hc⟩ := intText_eq_cons n
  have hnum : (decide (c = '-') || c.isDigit) = true := by simpa using hc
  rw [he, List.cons_append] at hread ⊢
  rw [readScalar, if_neg (ne_of_isDigit hc (by decide) (by decide)),
    if_neg (ne_of_isDigit hc (by decide) (by decide)),
    if_neg (ne_of_isDigit hc (by decide) (by decide)),
    if_neg (ne_of_isDigit hc (by decide) (by decide)), if_pos hnum, hread]
  rfl

theorem reads_readValue {j : Json} (h : Fits depth j) : Reads (readValue .strict depth) j j := by
  induction j using deepInduction generalizing depth with
  | null =>
    apply reads_of_readScalar
    rintro _ rest ⟨⟩ -
    exact ⟨_, _, rfl, rfl, by decide, by decide, rfl⟩
  | bool b =>
    apply reads_of_readScalar
    rintro _ rest (_ | _) - <;> exact ⟨_, _, rfl, rfl, by decide, by decide, rfl⟩
  | number n =>
    cases h with
    | @whole _ n low high =>
      apply reads_of_readScalar
      rintro _ rest ⟨⟩ hr
      obtain ⟨c, more, he, hc⟩ := intText_eq_cons n
      exact ⟨c, more, he, (isGap_of_isDigit hc).1, ne_of_isDigit hc (by decide) (by decide),
        ne_of_isDigit hc (by decide) (by decide), readScalar_intText low high hr⟩
  | string s =>
    apply reads_of_readScalar
    rintro _ rest ⟨⟩ -
    refine ⟨_, _, rfl, rfl, by decide, by decide, ?_⟩
    simp only [stringText, List.cons_append, List.append_assoc, readScalar, readString_stringText]
    rfl
  | array items ih =>
    intro g cs rest hg hs hr
    cases h with
    | array hf =>
      have hi : List.Forall₂ (Reads (readValue .strict _)) items items :=
        List.forall₂_same.2 fun j hj => ih j hj (hf j hj)
      obtain ⟨more, hskip, hread⟩ := readArray_of_reads hf hi hg hs rest
      rw [readValue, hskip]
      simp only [hread, bind, Except.bind]
      rfl
  | object members ih =>
    intro g cs rest hg hs hr
    cases h with
    | object hf =>
      have hv := readsMembers_push (fun m hm => ih m hm (hf m hm)) []
      rw [List.append_nil] at hv
      obtain ⟨more, hskip, hread⟩ := readObject_of_reads hv hg hs rest
      rw [readValue, hskip]
      simp only [hread, bind, Except.bind, List.reverse_reverse]
      rfl

theorem Reads.readAll {read : Read α} {j : Json} {a : α} (h : Reads read j a) {text : String}
    {cs g : List Char} (ht : text.toList = cs ++ g) (hs : Spells j cs) (hg : Gaps g) :
    readAll read text = .ok a := by
  have hstop : Stops g := List.append_nil g ▸ hg.stops stops_nil
  have hread := h gaps_nil hs hstop
  have hskip : skipGaps g = [] := by rw [← List.append_nil g, skipGaps_append hg]; rfl
  rw [Json.readAll, ht, ← List.nil_append (cs ++ g), ← List.append_assoc, hread]
  simp only [bind, Except.bind, hskip]
  rfl

end Stencil.Json
