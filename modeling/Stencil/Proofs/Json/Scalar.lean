import Stencil.Proofs.Json.Spelling

namespace Stencil.Json

/-- Whether a value can end in front of a text: nothing is left, or what may stand behind a value. -/
def Stops (rest : List Char) : Prop := ∀ c ∈ rest.head?, isGap c ∨ c = ',' ∨ c = ']' ∨ c = '}'

theorem hexDigit?_digitChar : ∀ d < 16, hexDigit? (Nat.digitChar d) = some d := by decide

theorem readCode_control {c : Char} (hc : c.toNat < 0x20) (cs : List Char) :
    readCode .strict ('0' :: '0' :: Nat.digitChar (c.toNat / 16) :: Nat.digitChar (c.toNat % 16) :: cs)
      = .ok (c, cs) := by
  have hunit : readUnit
      ('0' :: '0' :: Nat.digitChar (c.toNat / 16) :: Nat.digitChar (c.toNat % 16) :: cs) =
        .ok (c.toNat, cs) := by
    have h0 : hexDigit? '0' = some 0 := rfl
    rw [readUnit, h0, hexDigit?_digitChar _ (by omega), hexDigit?_digitChar _ (by omega)]
    simp only [Except.ok.injEq, Prod.mk.injEq, and_true]
    omega
  have htrail : isTrail c.toNat = false := by
    simp only [isTrail, Bool.and_eq_false_iff, decide_eq_false_iff_not]
    omega
  have hlead : isLead c.toNat = false := by
    simp only [isLead, Bool.and_eq_false_iff, decide_eq_false_iff_not]
    omega
  rw [readCode, hunit]
  simp only [bind, Except.bind, htrail, hlead, Bool.false_eq_true, if_false, Char.ofNat_toNat]
  rfl

def prepend (c : Char) : List Char × List Char → List Char × List Char
  | (s, rest) => (c :: s, rest)

theorem readChars_of_readEscape {e : Char} {cs rest : List Char}
    (h : readEscape .strict cs = .ok (e, rest)) :
    readChars .strict ('\\' :: cs) = (readChars .strict rest).map (prepend e) := by
  rw [readChars, if_neg (by decide), if_pos rfl]
  split
  · rename_i e' rest' h'
    rw [h] at h'
    cases h'
    cases readChars .strict rest with
    | ok p => rfl
    | error f => rfl
  · rename_i f h'
    rw [h] at h'
    cases h'

theorem readChars_plain {c : Char} (hq : c ≠ '"') (hb : c ≠ '\\') (hc : ¬ c.toNat < 0x20)
    (cs : List Char) : readChars .strict (c :: cs) = (readChars .strict cs).map (prepend c) := by
  rw [readChars, if_neg hq, if_neg hb, if_neg hc]
  cases readChars .strict cs with
  | ok p => rfl
  | error f => rfl

theorem readChars_escaped (c : Char) (cs : List Char) :
    readChars .strict (escaped c ++ cs) = (readChars .strict cs).map (prepend c) := by
  rw [escaped]
  iterate 7 split; · subst c; exact readChars_of_readEscape rfl
  split
  · rename_i hc
    exact readChars_of_readEscape (readCode_control hc cs)
  · exact readChars_plain ‹_› ‹_› ‹_› cs

theorem readChars_flatMap_escaped (s rest : List Char) :
    readChars .strict (s.flatMap escaped ++ '"' :: rest) = .ok (s, rest) := by
  induction s with
  | nil =>
    rw [List.flatMap_nil, List.nil_append, readChars, if_pos rfl]
  | cons c s ih =>
    rw [List.flatMap_cons, List.append_assoc, readChars_escaped, ih]
    rfl

theorem readString_stringText (s : String) (rest : List Char) :
    readString .strict (s.toList.flatMap escaped ++ '"' :: rest) = .ok (s, rest) := by
  rw [readString, readChars_flatMap_escaped]
  simp only [bind, Except.bind, String.ofList_toList]
  rfl

def intNumeral (n : Int) : Numeral := ⟨n < 0, Decimal.digitText n.natAbs, none, none⟩

theorem Stops.not_numeral {rest : List Char} (hr : Stops rest) {c : Char} (hc : c ∈ rest.head?) :
    c.isDigit = false ∧ c ≠ '.' ∧ c ≠ 'e' ∧ c ≠ 'E' := by
  have := hr c hc
  simp only [isGap, Bool.or_eq_true, decide_eq_true_eq] at this
  obtain ((((rfl | rfl) | rfl) | rfl) | rfl | rfl | rfl) := this <;> decide

variable {rest : List Char}

theorem readDigits_append {ds : List Char} (hd : ∀ c ∈ ds, c.isDigit) (hne : ds ≠ [])
    (hr : Stops rest) : readDigits (ds ++ rest) = .ok (ds, rest) := by
  have hstop : rest.takeWhile Char.isDigit = [] ∧ rest.dropWhile Char.isDigit = rest := by
    cases rest with
    | nil => exact ⟨rfl, rfl⟩
    | cons c rest =>
      have hc := (hr.not_numeral rfl).1
      simp [hc]
  rw [readDigits, List.takeWhile_append_of_pos hd, List.dropWhile_append_of_pos hd, hstop.1, hstop.2,
    List.append_nil]
  cases ds with
  | nil => exact absurd rfl hne
  | cons d ds => rfl

theorem isDigit_of_mem_digitText {n : Nat} {c : Char} (hc : c ∈ Decimal.digitText n) : c.isDigit :=
  Nat.isDigit_of_mem_toDigits (by decide) (by decide) hc

theorem head?_digitText_ne_zero {n : Nat} (hn : 0 < n) :
    (Decimal.digitText n).head? ≠ some '0' := by
  induction n using Nat.strongRecOn with
  | ind n ih =>
    by_cases hlt : n < 10
    · have small : ∀ n < 10, 0 < n → n.digitChar ≠ '0' := by decide
      rw [Decimal.digitText, Nat.toDigits_of_lt_base hlt, List.head?_cons]
      exact fun h => small n hlt hn (Option.some.inj h)
    · have := ih (n / 10) (Nat.div_lt_self hn (by decide)) (by omega)
      rwa [Decimal.digitText, Nat.toDigits_of_base_le (by decide) (Nat.not_lt.1 hlt),
        List.head?_append, Option.or_of_isSome (List.isSome_head?.2 Nat.toDigits_ne_nil)]

theorem readWhole_digitText (n : Nat) (hr : Stops rest) :
    readWhole (Decimal.digitText n ++ rest) = .ok (Decimal.digitText n, rest) := by
  have hd : readDigits (Decimal.digitText n ++ rest) = .ok (Decimal.digitText n, rest) :=
    readDigits_append (fun _ => isDigit_of_mem_digitText) Nat.toDigits_ne_nil hr
  rw [readWhole, hd]
  simp only [bind, Except.bind]
  rw [if_neg]
  · rfl
  · cases n with
    | zero => decide
    | succ n => simp [head?_digitText_ne_zero (Nat.succ_pos n)]

theorem readFraction_of_stops (hr : Stops rest) : readFraction rest = .ok (none, rest) := by
  cases rest with
  | nil => rfl
  | cons c rest =>
    have hc := (hr.not_numeral rfl).2.1
    rw [readFraction]
    rintro cs ⟨rfl, -⟩
    exact hc rfl

theorem readPower_of_stops (hr : Stops rest) : readPower rest = .ok (none, rest) := by
  cases rest with
  | nil => rfl
  | cons c rest =>
    have hc := (hr.not_numeral rfl).2.2
    simp only [readPower]
    rw [if_neg (not_or.2 hc)]

theorem digitText_append_ne_minus (n : Nat) (rest cs : List Char) :
    Decimal.digitText n ++ rest ≠ '-' :: cs := by
  intro h
  cases hd : Decimal.digitText n with
  | nil => exact Nat.toDigits_ne_nil hd
  | cons d ds =>
    rw [hd, List.cons_append] at h
    have : d.isDigit := isDigit_of_mem_digitText (n := n) (by simp [hd])
    rw [(List.cons.inj h).1] at this
    exact absurd this (by decide)

theorem readNumeral_intText (n : Int) (hr : Stops rest) :
    readNumeral (intText n ++ rest) = .ok (intNumeral n, rest) := by
  rw [intText, intNumeral]
  split
  · rename_i hn
    simp only [List.cons_append, readNumeral, readWhole_digitText _ hr, readFraction_of_stops hr,
      readPower_of_stops hr, bind, Except.bind, hn]
    rfl
  · rename_i hn
    rw [readNumeral]
    · simp only [readWhole_digitText _ hr, readFraction_of_stops hr, readPower_of_stops hr, bind,
        Except.bind, hn]
      rfl
    · exact digitText_append_ne_minus n.natAbs rest

theorem number?_intNumeral {n : Int} (low : -(Word.depth : Int) ≤ n) (high : n < Word.limit) :
    (intNumeral n).number? = some (.whole n) := by
  have hv : digitsValue (Decimal.digitText n.natAbs) = n.natAbs :=
    Nat.ofDigitChars_toDigits (by decide) (by decide)
  rw [intNumeral, Numeral.number?]
  simp only [hv, decide_eq_true_eq]
  split
  · have hn : -(n.natAbs : Int) = n := by omega
    rw [if_pos (by omega), hn]
  · have hn : (n.natAbs : Int) = n := by omega
    rw [if_pos (by omega), hn]

theorem readNumber_intText {n : Int} (low : -(Word.depth : Int) ≤ n) (high : n < Word.limit)
    (hr : Stops rest) : readNumber .strict (intText n ++ rest) = .ok (.whole n, rest) := by
  simp only [readNumber, readNumeral_intText n hr, number?_intNumeral low high]

end Stencil.Json
