import Stencil.Text.Ranges

/-! Blank characters, those with the Unicode property White_Space, and texts without them at their
ends. -/

namespace Stencil.Text

def blankRanges : List (Nat × Nat) :=
  [(0x09, 0x0D), (0x20, 0x20), (0x85, 0x85), (0xA0, 0xA0), (0x1680, 0x1680), (0x2000, 0x200A),
   (0x2028, 0x2029), (0x202F, 0x202F), (0x205F, 0x205F), (0x3000, 0x3000)]

def isBlank (c : Char) : Bool := inRanges blankRanges c

def trimStart (cs : List Char) : List Char := cs.dropWhile isBlank

def trimEnd (cs : List Char) : List Char := (cs.reverse.dropWhile isBlank).reverse

def trim (cs : List Char) : List Char := trimStart (trimEnd cs)

def allBlank (cs : List Char) : Bool := cs.all isBlank

theorem trimEnd_append_of_blank {cs ws : List Char} (h : allBlank ws) :
    trimEnd (cs ++ ws) = trimEnd cs := by
  have hw : ∀ c ∈ ws.reverse, isBlank c := by simpa [allBlank] using h
  simp [trimEnd, List.dropWhile_append_of_pos hw]

theorem trimEnd_of_getLast? {cs : List Char} {c : Char} (h : cs.getLast? = some c) (hc : ¬ isBlank c) :
    trimEnd cs = cs := by
  obtain ⟨before, rfl⟩ := List.getLast?_eq_some_iff.1 h
  simp [trimEnd, hc]

theorem trimStart_append_of_blank {ws cs : List Char} (h : allBlank ws) :
    trimStart (ws ++ cs) = trimStart cs :=
  List.dropWhile_append_of_pos (List.all_eq_true.1 h)

theorem trimStart_cons_of_not_blank {c : Char} (hc : ¬ isBlank c) (cs : List Char) :
    trimStart (c :: cs) = c :: cs :=
  List.dropWhile_cons_of_neg hc

theorem exists_trimEnd_append (cs : List Char) : ∃ blanks, allBlank blanks ∧ cs = trimEnd cs ++ blanks := by
  refine ⟨(cs.reverse.takeWhile isBlank).reverse, ?_, ?_⟩
  · rw [allBlank, List.all_reverse]
    exact List.all_takeWhile
  · rw [trimEnd, ← List.reverse_append, List.takeWhile_append_dropWhile, List.reverse_reverse]

theorem exists_append_trim_append (cs : List Char) :
    ∃ before behind, allBlank before ∧ allBlank behind ∧ cs = before ++ trim cs ++ behind := by
  obtain ⟨behind, hb, hcs⟩ := exists_trimEnd_append cs
  refine ⟨(trimEnd cs).takeWhile isBlank, behind, List.all_takeWhile, hb, ?_⟩
  rw [trim, trimStart, List.takeWhile_append_dropWhile]
  exact hcs

end Stencil.Text
