import Stencil.Dict.Entries

namespace Stencil

structure Dict (α : Type) where
  entries : List (String × α)
  ascending : Entries.Ascending entries

namespace Dict

variable {α : Type}

def empty : Dict α := ⟨[], List.Pairwise.nil⟩

instance : EmptyCollection (Dict α) := ⟨empty⟩

instance : Inhabited (Dict α) := ⟨empty⟩

def get? (d : Dict α) (k : String) : Option α := Entries.get? k d.entries

def contains (d : Dict α) (k : String) : Bool := (d.get? k).isSome

def insert (d : Dict α) (k : String) (a : α) : Dict α :=
  ⟨Entries.insert k a d.entries, d.ascending.insert k a⟩

def erase (d : Dict α) (k : String) : Dict α :=
  ⟨d.entries.filter fun e => e.1 != k, d.ascending.sublist List.filter_sublist⟩

def insertAll (d : Dict α) (es : List (String × α)) : Dict α :=
  es.foldl (fun d e => d.insert e.1 e.2) d

def ofList (es : List (String × α)) : Dict α := empty.insertAll es

def union (d e : Dict α) : Dict α := d.insertAll e.entries

def eraseAll (d : Dict α) (ks : List String) : Dict α := ks.foldl erase d

@[simp] theorem get?_empty (k : String) : (empty : Dict α).get? k = none := rfl

theorem get?_insert (d : Dict α) (k j : String) (a : α) :
    (d.insert k a).get? j = if j = k then some a else d.get? j :=
  Entries.get?_insert k j a d.entries

theorem get?_erase (d : Dict α) (k j : String) :
    (d.erase k).get? j = if j = k then none else d.get? j :=
  Entries.get?_filter_ne k j d.entries

@[simp] theorem insertAll_cons (d : Dict α) (e : String × α) (es : List (String × α)) :
    d.insertAll (e :: es) = (d.insert e.1 e.2).insertAll es := rfl

theorem insertAll_append (d : Dict α) (es fs : List (String × α)) :
    d.insertAll (es ++ fs) = (d.insertAll es).insertAll fs :=
  List.foldl_append

theorem lookup_reverse_cons (k j : String) (a : α) (es : List (String × α)) :
    ((j, a) :: es).reverse.lookup k = (es.reverse.lookup k).or (if k = j then some a else none) := by
  rw [List.reverse_cons, List.lookup_append, List.lookup_cons, List.lookup_nil]
  by_cases h : k = j
  · simp [h]
  · rw [if_neg h, beq_false_of_ne h]

theorem get?_insertAll (d : Dict α) (es : List (String × α)) (k : String) :
    (d.insertAll es).get? k = (es.reverse.lookup k).or (d.get? k) := by
  induction es generalizing d with
  | nil => rfl
  | cons e es ih =>
    cases e with
    | mk j a =>
      rw [insertAll_cons, ih, get?_insert, lookup_reverse_cons, Option.or_assoc]
      split <;> rfl

theorem get?_ofList (es : List (String × α)) (k : String) :
    (ofList es).get? k = es.reverse.lookup k := by
  rw [ofList, get?_insertAll, get?_empty, Option.or_none]

@[simp] theorem eraseAll_cons (d : Dict α) (k : String) (ks : List String) :
    d.eraseAll (k :: ks) = (d.erase k).eraseAll ks := rfl

theorem get?_eq_some_iff {d : Dict α} {k : String} {a : α} :
    d.get? k = some a ↔ (k, a) ∈ d.entries :=
  ⟨Entries.mem_of_get?, Entries.get?_of_mem d.ascending⟩

theorem lookup_reverse_of_mem_iff {d : Dict α} {es : List (String × α)}
    (h : ∀ e, e ∈ es ↔ e ∈ d.entries) (k : String) : es.reverse.lookup k = d.get? k := by
  have mem : ∀ a, es.reverse.lookup k = some a → d.get? k = some a := by
    intro a ha
    obtain ⟨before, behind, he, -⟩ := List.lookup_eq_some_iff.1 ha
    rw [get?_eq_some_iff, ← h, ← List.mem_reverse, he]
    simp
  cases hl : es.reverse.lookup k with
  | some a => exact (mem a hl).symm
  | none =>
    cases hd : d.get? k with
    | none => rfl
    | some a =>
      have hk := (h (k, a)).2 (get?_eq_some_iff.1 hd)
      simpa using List.lookup_eq_none_iff.1 hl (k, a) (List.mem_reverse.2 hk)

theorem get?_union (d e : Dict α) (k : String) :
    (d.union e).get? k = (e.get? k).or (d.get? k) := by
  rw [union, get?_insertAll, lookup_reverse_of_mem_iff fun _ => .rfl]

theorem get?_eraseAll (d : Dict α) (ks : List String) (k : String) :
    (d.eraseAll ks).get? k = if k ∈ ks then none else d.get? k := by
  induction ks generalizing d with
  | nil => rfl
  | cons j ks ih =>
    rw [eraseAll_cons, ih, get?_erase]
    by_cases hj : k = j <;> by_cases hk : k ∈ ks <;> simp [hj, hk]

@[ext] theorem ext {d e : Dict α} (h : ∀ k, d.get? k = e.get? k) : d = e := by
  have : d.entries = e.entries :=
    Entries.eq_of_mem_iff d.ascending e.ascending fun (k, a) => by
      rw [← get?_eq_some_iff, ← get?_eq_some_iff, h]
  cases d
  cases e
  congr

theorem union_ofList (d : Dict α) (es : List (String × α)) : d.union (ofList es) = d.insertAll es := by
  ext k : 1
  rw [get?_union, get?_ofList, get?_insertAll]

theorem empty_union (d : Dict α) : empty.union d = d := by
  ext k : 1
  rw [get?_union, get?_empty, Option.or_none]

theorem union_assoc (d e f : Dict α) : (d.union e).union f = d.union (e.union f) := by
  ext k : 1
  rw [get?_union, get?_union, get?_union, get?_union, Option.or_assoc]

theorem ofList_of_mem_iff {d : Dict α} {es : List (String × α)}
    (h : ∀ e, e ∈ es ↔ e ∈ d.entries) : ofList es = d := by
  ext k : 1
  rw [get?_ofList, lookup_reverse_of_mem_iff h]

end Dict

end Stencil
