import Mathlib.Data.Nat.Digits.Defs
import Stencil.Caches

namespace Stencil.Capacities

/-- The number that digits stand for, of which the last one counts once. -/
def decimal (digits : List Char) : Nat :=
  Nat.ofDigits 10 (digits.reverse.map fun d => d.toNat - '0'.toNat)

theorem ofDigitChars_eq_decimal (digits : List Char) : Nat.ofDigitChars 10 digits 0 = decimal digits := by
  induction digits with
  | nil => rfl
  | cons d ds ih =>
    rw [Nat.ofDigitChars_cons, Nat.ofDigitChars_eq_ofDigitChars_zero, ih, decimal, decimal,
      List.reverse_cons, List.map_append, Nat.ofDigits_append, List.length_map, List.length_reverse,
      List.map_singleton, Nat.ofDigits_singleton, Nat.mul_zero, Nat.zero_add, Nat.add_comm]

/-- Digits behind at most one plus sign, between blanks. -/
structure Numeral (text before sign digits behind : List Char) : Prop where
  eq : text = before ++ sign ++ digits ++ behind
  blank_before : Text.allBlank before
  blank_behind : Text.allBlank behind
  sign_eq : sign = [] ∨ sign = ['+']
  ne_nil : digits ≠ []
  digit : ∀ d ∈ digits, '0' ≤ d ∧ d ≤ '9'

def Gives (setting : String) (n : Nat) : Prop :=
  n < 2 ^ 64 ∧ ∃ before sign digits behind,
    Numeral setting.toList before sign digits behind ∧ n = decimal digits

theorem isDigit_iff {c : Char} : c.isDigit ↔ '0' ≤ c ∧ c ≤ '9' := by
  simp [Char.isDigit, Char.le_def]

theorem not_isBlank_of_digit {c : Char} (h : '0' ≤ c ∧ c ≤ '9') : ¬ Text.isBlank c := by
  have hr : ∀ r ∈ Text.blankRanges, r.2 < '0'.toNat ∨ '9'.toNat < r.1 := by decide
  rw [Text.isBlank, Text.inRanges_iff]
  intro ⟨r, hm, h1, h2⟩
  have h0 : '0'.toNat ≤ c.toNat := h.1
  have h9 : c.toNat ≤ '9'.toNat := h.2
  cases hr r hm with
  | inl hlt => exact absurd (Nat.le_trans h0 h2) (Nat.not_le.2 hlt)
  | inr hlt => exact absurd (Nat.le_trans h1 h9) (Nat.not_le.2 hlt)

def unsigned : List Char → List Char
  | '+' :: ds => ds
  | ds => ds

theorem number?_eq_some_iff_unsigned {setting : String} {n : Nat} :
    number? setting = some n ↔
      let digits := unsigned (Text.trim setting.toList)
      digits ≠ [] ∧ (∀ d ∈ digits, '0' ≤ d ∧ d ≤ '9') ∧ n < 2 ^ 64 ∧ n = decimal digits := by
  have hdef : number? setting =
      let digits := unsigned (Text.trim setting.toList)
      let n := Nat.ofDigitChars 10 digits 0
      if !digits.isEmpty && digits.all Char.isDigit && n < 2 ^ 64 then some n else none := rfl
  rw [hdef]
  generalize unsigned (Text.trim setting.toList) = digits
  simp only [ofDigitChars_eq_decimal, Option.ite_none_right_eq_some, Bool.and_eq_true, Bool.not_eq_true',
    List.isEmpty_eq_false_iff, List.all_eq_true, isDigit_iff, decide_eq_true_eq, Option.some_inj]
  constructor
  · rintro ⟨⟨⟨hne, hd⟩, hn⟩, rfl⟩
    exact ⟨hne, hd, hn, rfl⟩
  · rintro ⟨hne, hd, hn, rfl⟩
    exact ⟨⟨⟨hne, hd⟩, hn⟩, rfl⟩

theorem exists_sign_append_unsigned (cs : List Char) :
    ∃ sign, (sign = [] ∨ sign = ['+']) ∧ cs = sign ++ unsigned cs := by
  fun_cases unsigned cs with
  | case1 ds => exact ⟨['+'], .inr rfl, rfl⟩
  | case2 => exact ⟨[], .inl rfl, rfl⟩

theorem unsigned_of_ne {c : Char} (hc : c ≠ '+') (cs : List Char) : unsigned (c :: cs) = c :: cs := by
  rw [unsigned]
  intro ds h
  exact hc (List.cons.inj h).1

namespace Numeral

variable {text before sign digits behind : List Char} (h : Numeral text before sign digits behind)

include h

theorem not_isBlank {c : Char} (hc : c ∈ sign ++ digits) : ¬ Text.isBlank c := by
  cases List.mem_append.1 hc with
  | inl hs =>
    cases h.sign_eq with
    | inl hn => simp [hn] at hs
    | inr hp =>
      rw [hp, List.mem_singleton] at hs
      rw [hs]
      decide
  | inr hd => exact not_isBlank_of_digit (h.digit c hd)

theorem trim_eq : Text.trim text = sign ++ digits := by
  have hne : sign ++ digits ≠ [] := List.append_ne_nil_of_right_ne_nil sign h.ne_nil
  have hend : Text.trimEnd (before ++ (sign ++ digits)) = before ++ (sign ++ digits) := by
    apply Text.trimEnd_of_getLast? (c := (sign ++ digits).getLast hne)
    · rw [List.getLast?_append, List.getLast?_eq_some_getLast hne, Option.some_or]
    · exact h.not_isBlank (List.getLast_mem hne)
  rw [Text.trim, h.eq, Text.trimEnd_append_of_blank h.blank_behind, List.append_assoc, hend,
    Text.trimStart_append_of_blank h.blank_before]
  cases hc : sign ++ digits with
  | nil => rfl
  | cons c cs =>
    apply Text.trimStart_cons_of_not_blank
    exact h.not_isBlank (by simp [hc])

theorem unsigned_trim : unsigned (Text.trim text) = digits := by
  rw [h.trim_eq]
  cases h.sign_eq with
  | inl hs =>
    cases hd : digits with
    | nil => exact absurd hd h.ne_nil
    | cons d ds =>
      rw [hs, List.nil_append]
      apply unsigned_of_ne
      intro hplus
      have hdigit := h.digit d (by simp [hd])
      rw [hplus] at hdigit
      exact absurd hdigit (by decide)
  | inr hs =>
    rw [hs]
    rfl

end Numeral

theorem exists_numeral {text : List Char} (hne : unsigned (Text.trim text) ≠ [])
    (hd : ∀ d ∈ unsigned (Text.trim text), '0' ≤ d ∧ d ≤ '9') :
    ∃ before sign behind, Numeral text before sign (unsigned (Text.trim text)) behind := by
  obtain ⟨before, behind, hb, ha, ht⟩ := Text.exists_append_trim_append text
  obtain ⟨sign, hs, hu⟩ := exists_sign_append_unsigned (Text.trim text)
  refine ⟨before, sign, behind, ?_, hb, ha, hs, hne, hd⟩
  rw [List.append_assoc before, ← hu]
  exact ht

theorem number?_eq_some_iff {setting : String} {n : Nat} :
    number? setting = some n ↔ Gives setting n := by
  rw [number?_eq_some_iff_unsigned]
  constructor
  · intro ⟨hne, hd, hn, he⟩
    obtain ⟨before, sign, behind, h⟩ := exists_numeral hne hd
    exact ⟨hn, before, sign, _, behind, h, he⟩
  · intro ⟨hn, before, sign, digits, behind, h, he⟩
    rw [h.unsigned_trim]
    exact ⟨h.ne_nil, h.digit, hn, he⟩

example : number? "\t+00018446744073709551615\n" = some (2 ^ 64 - 1) := by decide

example : number? "18446744073709551616" = none := by decide

inductive Settles (standard : Nat) : Option String → Nat → Prop
  | given {text : String} {n : Nat} : Gives text n → Settles standard (some text) (max n 1)
  | standard {setting : Option String} :
    (∀ text ∈ setting, ∀ n, ¬ Gives text n) → Settles standard setting standard

theorem settles_iff {standard : Nat} (hs : 0 < standard) {setting : Option String} {capacity : Nat} :
    Settles standard setting capacity ↔ capacity = max ((setting.bind number?).getD standard) 1 := by
  have hmax : max standard 1 = standard := Nat.max_eq_left hs
  constructor
  · intro h
    cases h with
    | given hg => rw [Option.bind_some, number?_eq_some_iff.2 hg, Option.getD_some]
    | standard hn =>
      cases hb : setting.bind number? with
      | none => exact hmax.symm
      | some n =>
        obtain ⟨text, ht, hg⟩ := Option.bind_eq_some_iff.1 hb
        exact absurd (number?_eq_some_iff.1 hg) (hn text ht n)
  · intro h
    rw [h]
    cases hb : setting.bind number? with
    | none =>
      rw [Option.getD_none, hmax]
      apply Settles.standard
      intro text ht n hg
      rw [ht, Option.bind_some, number?_eq_some_iff.2 hg] at hb
      cases hb
    | some n =>
      obtain ⟨text, rfl, hg⟩ := Option.bind_eq_some_iff.1 hb
      exact .given (number?_eq_some_iff.1 hg)

/-- The cache of templates goes by its own setting, and both caches of keys by the other one. Either setting
leaves the standard capacity unless it gives a number, of which zero counts as one. -/
theorem capacities_settled (templates keys : Option String) :
    let c := Caches.empty (ofSettings templates keys)
    (∀ n, Settles 1000 templates n ↔ n = c.templates.capacity) ∧
    (∀ n, Settles 2000 keys n ↔ n = c.trimmed.capacity) ∧
    c.untrimmed.capacity = c.trimmed.capacity ∧
    ∀ other,
      (Caches.empty (ofSettings templates other)).templates.capacity = c.templates.capacity ∧
      (Caches.empty (ofSettings other keys)).trimmed.capacity = c.trimmed.capacity ∧
      (Caches.empty (ofSettings other keys)).untrimmed.capacity = c.untrimmed.capacity :=
  ⟨fun _ => settles_iff (by decide), fun _ => settles_iff (by decide), rfl, fun _ => ⟨rfl, rfl, rfl⟩⟩

end Stencil.Capacities
