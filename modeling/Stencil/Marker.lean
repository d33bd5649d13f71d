import Stencil.Text.Blank
import Stencil.Text.Search

namespace Stencil

inductive Trimming
  | trimmed
  | untrimmed
  deriving DecidableEq

namespace Marker

def all : List (List Char) := [[' ', '>', '>', '>'], [' ', '-', '>'], [' ', '>', '>']]

def dropMarker? (cs : List Char) : Option (List Char) := all.findSome? fun m => Text.dropEnd? m cs

theorem dropMarker?_eq_some_iff {cs stem : List Char} :
    dropMarker? cs = some stem ↔ ∃ m ∈ all, cs = stem ++ m := by
  constructor
  · intro h
    obtain ⟨m, hm, hs⟩ := List.exists_of_findSome?_eq_some h
    exact ⟨m, hm, Text.dropEnd?_eq_some_iff.1 hs⟩
  · rintro ⟨m, hm, rfl⟩
    cases hd : dropMarker? (stem ++ m) with
    | none =>
      have := List.findSome?_eq_none_iff.1 hd m hm
      simp [Text.dropEnd?] at this
    | some s =>
      obtain ⟨m', hm', hs⟩ := List.exists_of_findSome?_eq_some hd
      have he : stem ++ m = s ++ m' := Text.dropEnd?_eq_some_iff.1 hs
      have hr : m.reverse ++ stem.reverse = m'.reverse ++ s.reverse := by
        simpa using congrArg List.reverse he
      simp only [all, List.mem_cons, List.not_mem_nil, or_false] at hm hm'
      rcases hm with rfl | rfl | rfl <;> rcases hm' with rfl | rfl | rfl <;>
        simp_all

/-- The key without its marker. Trimmed, it may have blanks behind the marker and loses those around
it. -/
def strip? (mode : Trimming) (raw : String) : Option String :=
  match mode with
  | .trimmed => (dropMarker? (Text.trimEnd raw.toList)).map fun cs => String.ofList (Text.trim cs)
  | .untrimmed => (dropMarker? raw.toList).map String.ofList

end Marker

inductive KeyStyle
  | plain
  | marked (mode : Trimming)
  deriving DecidableEq

namespace KeyStyle

instance : Inhabited KeyStyle := ⟨plain⟩

def ofFlags (marked trimmed : Bool) : KeyStyle :=
  if marked then .marked (if trimmed then .trimmed else .untrimmed) else .plain

def trimming? : KeyStyle → Option Trimming
  | .plain => none
  | .marked mode => some mode

end KeyStyle

end Stencil
