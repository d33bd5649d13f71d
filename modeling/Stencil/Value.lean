import Stencil.Json.Printer

namespace Stencil

structure Value where
  json : Json
  canonical : json.Canonical

namespace Value

def ofJson (j : Json) : Value := ⟨j.canonical, j.canonical_canonical⟩

def null : Value := ⟨.null, trivial⟩

def string (s : String) : Value := ⟨.string s, trivial⟩

instance : Inhabited Value := ⟨null⟩

def kind (v : Value) : Json.Kind := v.json.kind

def string? (v : Value) : Option String :=
  match v.json with
  | .string s => some s
  | _ => none

@[simp] theorem string?_string (s : String) : (string s).string? = some s := rfl

theorem kind_of_string? {v : Value} {s : String} (h : v.string? = some s) : v.kind = .string := by
  rw [string?] at h
  split at h
  · rename_i hj
    rw [kind, hj]
    rfl
  · cases h

theorem eq_string_of_string? {v : Value} {s : String} (h : v.string? = some s) : v = .string s := by
  obtain ⟨j, hj⟩ := v
  rw [string?] at h
  split at h <;> cases h
  simp_all [string]

theorem kind_eq_string_iff {v : Value} : v.kind = .string ↔ v.string?.isSome := by
  obtain ⟨j, hj⟩ := v
  cases j <;> simp [kind, string?, Json.kind]

def text (v : Value) : String := v.json.compact

def display (v : Value) : String := v.string?.getD v.text

end Value

end Stencil
