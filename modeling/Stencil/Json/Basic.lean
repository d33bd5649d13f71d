import Stencil.Dict.Entries
import Stencil.Decimal.Binary64

namespace Stencil

inductive Json.Number
  | whole (n : Int)
  | real (negative : Bool) (magnitude : Binary64)
  deriving DecidableEq

inductive Json
  | null
  | bool (b : Bool)
  | number (n : Json.Number)
  | string (s : String)
  | array (items : List Json)
  | object (members : List (String × Json))
  deriving Inhabited

namespace Json

inductive Kind
  | null | bool | number | string | array | object
  deriving DecidableEq

def Kind.name : Kind → String
  | .null => "null"
  | .bool => "bool"
  | .number => "number"
  | .string => "string"
  | .array => "array"
  | .object => "object"

def kind : Json → Kind
  | .null => .null
  | .bool _ => .bool
  | .number _ => .number
  | .string _ => .string
  | .array _ => .array
  | .object _ => .object

def nat (n : Nat) : Json := .number (.whole n)

mutual

/-- Members in ascending order at every depth; of equal names the last one stays. -/
def canonical : Json → Json
  | .array items => .array (canonicalItems items)
  | .object members => .object (Entries.sort (canonicalMembers members))
  | j => j

def canonicalItems : List Json → List Json
  | [] => []
  | j :: js => canonical j :: canonicalItems js

def canonicalMembers : List (String × Json) → List (String × Json)
  | [] => []
  | (k, j) :: ms => (k, canonical j) :: canonicalMembers ms

end

mutual

def Canonical : Json → Prop
  | .array items => CanonicalItems items
  | .object members => Entries.Ascending members ∧ CanonicalMembers members
  | _ => True

def CanonicalItems : List Json → Prop
  | [] => True
  | j :: js => Canonical j ∧ CanonicalItems js

def CanonicalMembers : List (String × Json) → Prop
  | [] => True
  | (_, j) :: ms => Canonical j ∧ CanonicalMembers ms

end

theorem canonicalMembers_iff {ms : List (String × Json)} :
    CanonicalMembers ms ↔ ∀ m ∈ ms, Canonical m.2 := by
  induction ms with
  | nil => simp [CanonicalMembers]
  | cons m ms ih => simp [CanonicalMembers, ih]

theorem canonicalMembers_insert {ms : List (String × Json)} (h : CanonicalMembers ms)
    {k : String} {j : Json} (hj : Canonical j) : CanonicalMembers (Entries.insert k j ms) := by
  rw [canonicalMembers_iff] at h ⊢
  intro m hm
  rcases Entries.mem_insert hm with rfl | hm
  · exact hj
  · exact h m hm

theorem canonicalMembers_sort {ms : List (String × Json)} (h : CanonicalMembers ms) :
    CanonicalMembers (Entries.sort ms) := by
  have go : ∀ (ms sorted : List (String × Json)), CanonicalMembers ms → CanonicalMembers sorted →
      CanonicalMembers (ms.foldl (fun sorted m => Entries.insert m.1 m.2 sorted) sorted) := by
    intro ms
    induction ms with
    | nil => exact fun _ _ hs => hs
    | cons m ms ih => exact fun _ hm hs => ih _ hm.2 (canonicalMembers_insert hs hm.1)
  exact go ms [] h trivial

mutual

theorem canonical_canonical : (j : Json) → Canonical j.canonical
  | .null | .bool _ | .number _ | .string _ => trivial
  | .array items => canonicalItems_canonicalItems items
  | .object members =>
    ⟨Entries.ascending_sort _, canonicalMembers_sort (canonicalMembers_canonicalMembers members)⟩

theorem canonicalItems_canonicalItems : (js : List Json) → CanonicalItems (canonicalItems js)
  | [] => trivial
  | j :: js => ⟨canonical_canonical j, canonicalItems_canonicalItems js⟩

theorem canonicalMembers_canonicalMembers :
    (ms : List (String × Json)) → CanonicalMembers (canonicalMembers ms)
  | [] => trivial
  | (_, j) :: ms => ⟨canonical_canonical j, canonicalMembers_canonicalMembers ms⟩

end

end Json

end Stencil
