import Stencil.Command.Run
import Stencil.Proofs.Renderer.Touch

namespace Stencil

namespace Arguments

def flatten (es : List (String × Value)) : List Value := es.flatMap fun e => [.string e.1, e.2]

theorem keyed?_flatten (es : List (String × Value)) : keyed? .plain (flatten es) = some es := by
  induction es with
  | nil => rfl
  | cons e es ih =>
    simp only [flatten] at ih
    simp [flatten, keyed?, ih, KeyStyle.key?]

theorem bindPlain_flatten (es : List (String × Value)) :
    bindPlain (flatten es) = .ok (.ofList es) := by
  have h := (toOption_check (flatten es)).trans (keyed?_flatten es)
  rw [bindPlain]
  cases hc : check (flatten es) with
  | error e => rw [hc] at h; cases h
  | ok fs =>
    rw [hc] at h
    cases h
    rfl

end Arguments

namespace Command

def binding (entry : String) : String × Value :=
  let cs := entry.toList
  (String.ofList (cs.takeWhile (· ≠ '=')), .string (String.ofList ((cs.dropWhile (· ≠ '=')).drop 1)))

def isBad (entry : String) : Bool := '=' ∉ entry.toList

theorem keysAndValues_eq (sets : List String) :
    keysAndValues sets =
      match sets.find? isBad with
      | some e => .error (.badEntry e)
      | none => .ok (Arguments.flatten (sets.map binding)) := by
  induction sets with
  | nil => rfl
  | cons e es ih =>
    rw [keysAndValues, Text.splitOnce?_singleton_eq, List.find?_cons]
    by_cases he : '=' ∈ e.toList
    · rw [if_pos he, ih]
      simp only [isBad, he, not_true_eq_false, decide_false]
      cases es.find? isBad <;> rfl
    · rw [if_neg he]
      simp [isBad, he]

theorem contextOf_eq (sets : List String) :
    contextOf sets =
      match sets.find? isBad with
      | some e => .error (.badEntry e)
      | none => .ok (.ofList (sets.map binding)) := by
  rw [contextOf, keysAndValues_eq]
  cases sets.find? isBad with
  | some e => rfl
  | none =>
    simp only [bind, Except.bind, Arguments.bindPlain_flatten]
    rfl

end Command

end Stencil
