import Stencil.Json.Printer
import Stencil.Json.Reader

/-! What a text of a JSON value looks like: a scalar has a single one, and in a container gaps may stand
around each item, name and value. The compact and the pretty text both look like this. -/

namespace Stencil.Json

theorem deepInduction {motive : Json → Prop} (null : motive .null) (bool : ∀ b, motive (.bool b))
    (number : ∀ n, motive (.number n)) (string : ∀ s, motive (.string s))
    (array : ∀ items, (∀ j ∈ items, motive j) → motive (.array items))
    (object : ∀ members, (∀ m ∈ members, motive m.2) → motive (.object members)) :
    ∀ j, motive j := by
  intro j
  refine @Json.rec motive (fun items => ∀ j ∈ items, motive j)
    (fun members => ∀ m ∈ members, motive m.2) (fun m => motive m.2) null bool number string array
    object ?_ ?_ ?_ ?_ ?_ j
  · simp
  · intro j js hj hjs
    exact List.forall_mem_cons.2 ⟨hj, hjs⟩
  · simp
  · intro m ms hm hms
    exact List.forall_mem_cons.2 ⟨hm, hms⟩
  · intro name j hj
    exact hj

def Gaps (cs : List Char) : Prop := cs.all isGap

mutual

inductive Spells : Json → List Char → Prop
  | null : Spells .null ['n', 'u', 'l', 'l']
  | tt : Spells (.bool true) ['t', 'r', 'u', 'e']
  | ff : Spells (.bool false) ['f', 'a', 'l', 's', 'e']
  | number (n : Number) : Spells (.number n) n.text
  | string (s : String) : Spells (.string s) (stringText s)
  | noItems {g : List Char} : Gaps g → Spells (.array []) ('[' :: g ++ [']'])
  | array {items : List Json} {cs : List Char} :
    SpellsItems items cs → Spells (.array items) ('[' :: cs ++ [']'])
  | noMembers {g : List Char} : Gaps g → Spells (.object []) ('{' :: g ++ ['}'])
  | object {members : List (String × Json)} {cs : List Char} :
    SpellsMembers members cs → Spells (.object members) ('{' :: cs ++ ['}'])

inductive SpellsItems : List Json → List Char → Prop
  | last {j : Json} {g cs h : List Char} :
    Gaps g → Spells j cs → Gaps h → SpellsItems [j] (g ++ cs ++ h)
  | cons {j : Json} {js : List Json} {g cs h more : List Char} :
    Gaps g → Spells j cs → Gaps h → SpellsItems js more →
    SpellsItems (j :: js) (g ++ cs ++ h ++ ',' :: more)

inductive SpellsMembers : List (String × Json) → List Char → Prop
  | last {m : String × Json} {cs : List Char} : SpellsMember m cs → SpellsMembers [m] cs
  | cons {m : String × Json} {ms : List (String × Json)} {cs more : List Char} :
    SpellsMember m cs → SpellsMembers ms more → SpellsMembers (m :: ms) (cs ++ ',' :: more)

inductive SpellsMember : String × Json → List Char → Prop
  | mk (name : String) {j : Json} {g h i cs k : List Char} :
    Gaps g → Gaps h → Gaps i → Spells j cs → Gaps k →
    SpellsMember (name, j) (g ++ stringText name ++ h ++ ':' :: (i ++ cs ++ k))

end

theorem gaps_nil : Gaps [] := rfl

theorem gaps_newline (level : Nat) : Gaps (newline level) := by
  rw [Gaps, newline, List.all_cons, List.all_replicate]
  simp [isGap]

theorem skipGaps_append {g : List Char} (hg : Gaps g) (cs : List Char) :
    skipGaps (g ++ cs) = skipGaps cs :=
  List.dropWhile_append_of_pos (List.all_eq_true.1 hg)

theorem skipGaps_cons {c : Char} (hc : isGap c = false) (cs : List Char) :
    skipGaps (c :: cs) = c :: cs := by
  rw [skipGaps, List.dropWhile_cons_of_neg]
  simp [hc]

theorem spellsItems_compactItems {items : List Json} (h : ∀ j ∈ items, Spells j j.compactChars)
    (hne : items ≠ []) : SpellsItems items (compactItems items) := by
  induction items with
  | nil => exact absurd rfl hne
  | cons j js ih =>
    rw [List.forall_mem_cons] at h
    cases js with
    | nil => simpa [compactItems] using SpellsItems.last gaps_nil h.1 gaps_nil
    | cons j' js =>
      simpa [compactItems] using SpellsItems.cons gaps_nil h.1 gaps_nil (ih h.2 (by simp))

theorem spellsMembers_compactMembers {members : List (String × Json)}
    (h : ∀ m ∈ members, Spells m.2 m.2.compactChars) (hne : members ≠ []) :
    SpellsMembers members (compactMembers members) := by
  induction members with
  | nil => exact absurd rfl hne
  | cons m ms ih =>
    obtain ⟨name, j⟩ := m
    rw [List.forall_mem_cons] at h
    have hm : SpellsMember (name, j) (stringText name ++ ':' :: j.compactChars) := by
      simpa using SpellsMember.mk name gaps_nil gaps_nil gaps_nil h.1 gaps_nil
    cases ms with
    | nil => exact .last hm
    | cons m' ms => simpa [compactMembers] using SpellsMembers.cons hm (ih h.2 (by simp))

theorem spells_compactChars (j : Json) : Spells j j.compactChars := by
  induction j using deepInduction with
  | null => exact .null
  | bool b => cases b with
    | true => exact .tt
    | false => exact .ff
  | number n => exact .number n
  | string s => exact .string s
  | array items ih =>
    cases items with
    | nil => exact .noItems gaps_nil
    | cons j js => exact .array (spellsItems_compactItems ih (by simp))
  | object members ih =>
    cases members with
    | nil => exact .noMembers gaps_nil
    | cons m ms => exact .object (spellsMembers_compactMembers ih (by simp))

variable {level : Nat} {g : List Char}

theorem spellsItems_prettyItems {items : List Json}
    (h : ∀ j ∈ items, Spells j (j.prettyChars level)) (hne : items ≠ []) (hg : Gaps g) :
    SpellsItems items (prettyItems level items ++ g) := by
  induction items with
  | nil => exact absurd rfl hne
  | cons j js ih =>
    rw [List.forall_mem_cons] at h
    cases js with
    | nil => exact .last (gaps_newline level) h.1 hg
    | cons j' js =>
      have := SpellsItems.cons (gaps_newline level) h.1 gaps_nil (ih h.2 (by simp))
      simpa [prettyItems] using this

theorem spellsMembers_prettyMembers {members : List (String × Json)}
    (h : ∀ m ∈ members, Spells m.2 (m.2.prettyChars level)) (hne : members ≠ []) (hg : Gaps g) :
    SpellsMembers members (prettyMembers level members ++ g) := by
  induction members with
  | nil => exact absurd rfl hne
  | cons m ms ih =>
    obtain ⟨name, j⟩ := m
    rw [List.forall_mem_cons] at h
    have hm {k : List Char} (hk : Gaps k) : SpellsMember (name, j)
        (newline level ++ stringText name ++ ':' :: ' ' :: j.prettyChars level ++ k) := by
      simpa using SpellsMember.mk name (gaps_newline level) gaps_nil
        (i := [' ']) rfl h.1 hk
    cases ms with
    | nil => simpa [prettyMembers] using SpellsMembers.last (hm hg)
    | cons m' ms =>
      simpa [prettyMembers] using SpellsMembers.cons (hm gaps_nil) (ih h.2 (by simp))

theorem spells_prettyChars (level : Nat) (j : Json) : Spells j (j.prettyChars level) := by
  induction j using deepInduction generalizing level with
  | null | bool | number | string => exact spells_compactChars _
  | array items ih =>
    cases items with
    | nil => exact .noItems gaps_nil
    | cons j js =>
      exact .array (spellsItems_prettyItems (fun j hj => ih j hj _) (by simp) (gaps_newline level))
  | object members ih =>
    cases members with
    | nil => exact .noMembers gaps_nil
    | cons m ms =>
      exact .object
        (spellsMembers_prettyMembers (fun m hm => ih m hm _) (by simp) (gaps_newline level))

theorem spells_compact (j : Json) : Spells j j.compact.toList := by
  rw [compact, String.toList_ofList]
  exact spells_compactChars j

theorem spells_pretty (j : Json) : Spells j j.pretty.toList := by
  rw [pretty, String.toList_ofList]
  exact spells_prettyChars 0 j

end Stencil.Json
