import Stencil.Except
import Stencil.Json.Basic
import Stencil.Text.Offset

namespace Stencil.Json

inductive Fault
  | truncated
  | malformed
  | mismatched
  deriving DecidableEq

abbrev Read (α : Type) := List Char → Except Fault (α × List Char)

/-- A value that is passed over is read with less care: its strings may hold lone surrogates, its
numbers may be too large, and a number that is cut off is malformed. -/
inductive Care
  | strict
  | loose
  deriving DecidableEq

def hexDigit? (c : Char) : Option Nat :=
  if '0' ≤ c ∧ c ≤ '9' then some (c.toNat - '0'.toNat)
  else if 'a' ≤ c ∧ c ≤ 'f' then some (c.toNat - 'a'.toNat + 10)
  else if 'A' ≤ c ∧ c ≤ 'F' then some (c.toNat - 'A'.toNat + 10)
  else none

/-- Reads the four digits of a code unit. A text of fewer than four bytes is truncated, whatever
they are. -/
def readUnit : Read Nat
  | a :: b :: c :: d :: rest =>
    match hexDigit? a, hexDigit? b, hexDigit? c, hexDigit? d with
    | some a, some b, some c, some d => .ok (((a * 16 + b) * 16 + c) * 16 + d, rest)
    | _, _, _, _ => .error .malformed
  | short => .error (if Text.width short < 4 then .truncated else .malformed)

def isLead (u : Nat) : Bool := 0xD800 ≤ u && u ≤ 0xDBFF

def isTrail (u : Nat) : Bool := 0xDC00 ≤ u && u ≤ 0xDFFF

def readTrail : Read Nat
  | [] | ['\\'] => .error .truncated
  | '\\' :: 'u' :: rest => do
    let (u, rest) ← readUnit rest
    if isTrail u then return (u, rest) else .error .malformed
  | _ => .error .malformed

def readCode (care : Care) (cs : List Char) : Except Fault (Char × List Char) := do
  let (u, rest) ← readUnit cs
  match care with
  | .loose => return (Char.ofNat u, rest)
  | .strict =>
    if isTrail u then .error .malformed
    else if isLead u then
      let (v, rest) ← readTrail rest
      return (Char.ofNat (0x10000 + (u - 0xD800) * 0x400 + (v - 0xDC00)), rest)
    else return (Char.ofNat u, rest)

def letterEscape? (c : Char) : Option Char :=
  if c = '"' then some '"'
  else if c = '\\' then some '\\'
  else if c = '/' then some '/'
  else if c = 'b' then some '\x08'
  else if c = 'f' then some '\x0c'
  else if c = 'n' then some '\n'
  else if c = 'r' then some '\r'
  else if c = 't' then some '\t'
  else none

def readEscape (care : Care) : Read Char
  | [] => .error .truncated
  | c :: rest =>
    if c = 'u' then readCode care rest
    else match letterEscape? c with
      | some e => .ok (e, rest)
      | none => .error .malformed

theorem length_of_readUnit {cs rest : List Char} {u : Nat} (h : readUnit cs = .ok (u, rest)) :
    rest.length < cs.length := by
  unfold readUnit at h
  split at h
  · split at h
    · obtain ⟨-, rfl⟩ : _ ∧ _ := by simpa using h
      simp
      omega
    · cases h
  · cases h

theorem length_of_readTrail {cs rest : List Char} {u : Nat} (h : readTrail cs = .ok (u, rest)) :
    rest.length < cs.length := by
  unfold readTrail at h
  split at h
  · cases h
  · cases h
  · obtain ⟨⟨v, r⟩, hv, h⟩ := Except.bind_eq_ok_iff.1 h
    have := length_of_readUnit hv
    dsimp only at h
    split at h
    · obtain ⟨-, rfl⟩ : v = u ∧ r = rest := by simpa [pure, Except.pure] using h
      simp
      omega
    · cases h
  · cases h

theorem length_of_readCode {care : Care} {cs rest : List Char} {c : Char}
    (h : readCode care cs = .ok (c, rest)) : rest.length < cs.length := by
  obtain ⟨⟨u, r⟩, hu, h⟩ := Except.bind_eq_ok_iff.1 h
  have := length_of_readUnit hu
  dsimp only at h
  split at h
  · obtain ⟨-, rfl⟩ : _ ∧ r = rest := by simpa [pure, Except.pure] using h
    exact this
  · split at h
    · cases h
    · split at h
      · obtain ⟨⟨v, r'⟩, hv, h⟩ := Except.bind_eq_ok_iff.1 h
        have := length_of_readTrail hv
        obtain ⟨-, rfl⟩ : _ ∧ r' = rest := by simpa [pure, Except.pure] using h
        omega
      · obtain ⟨-, rfl⟩ : _ ∧ r = rest := by simpa [pure, Except.pure] using h
        exact this

theorem length_of_readEscape {care : Care} {cs rest : List Char} {c : Char}
    (h : readEscape care cs = .ok (c, rest)) : rest.length < cs.length := by
  cases cs with
  | nil => cases h
  | cons d cs =>
    simp only [readEscape] at h
    split at h
    · exact Nat.lt_succ_of_lt (length_of_readCode h)
    · split at h
      · obtain ⟨-, rfl⟩ : _ ∧ cs = rest := by simpa using h
        simp
      · cases h

def readChars (care : Care) : Read (List Char)
  | [] => .error .truncated
  | c :: cs =>
    if c = '"' then .ok ([], cs)
    else if c = '\\' then
      match _h : readEscape care cs with
      | .ok (e, rest) => do
        let (es, rest) ← readChars care rest
        return (e :: es, rest)
      | .error f => .error f
    else if c.toNat < 0x20 then .error .malformed
    else do
      let (es, rest) ← readChars care cs
      return (c :: es, rest)
termination_by cs => cs.length
decreasing_by
  · exact Nat.lt_succ_of_lt (length_of_readEscape _h)
  · simp

def readString (care : Care) : Read String := fun cs => do
  let (s, rest) ← readChars care cs
  return (String.ofList s, rest)

end Stencil.Json
