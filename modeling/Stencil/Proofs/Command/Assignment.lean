import Stencil.Proofs.Command.Entries

namespace Stencil

theorem Value.string_injective {s t : String} (h : string s = string t) : s = t := by
  have := congrArg Value.string? h
  rw [string?_string, string?_string] at this
  exact Option.some.inj this

namespace Command

/-- The key and the value stand on either side of the first equals sign of the entry. -/
structure Assigns (entry key value : String) : Prop where
  eq : entry = key ++ "=" ++ value
  not_mem : '=' ∉ key.toList

def FirstBad (sets : List String) (entry : String) : Prop :=
  '=' ∉ entry.toList ∧ ∃ before behind, sets = before ++ entry :: behind ∧ ∀ e ∈ before, '=' ∈ e.toList

def LastAssigns (sets : List String) (key value : String) : Prop :=
  ∃ before entry behind, sets = before ++ entry :: behind ∧ Assigns entry key value ∧
    ∀ other ∈ behind, ∀ w, ¬ Assigns other key w

variable {entry key value : String} {sets : List String}

namespace Assigns

theorem toList_eq (h : Assigns entry key value) :
    entry.toList = key.toList ++ '=' :: value.toList := by
  rw [h.eq, String.toList_append, String.toList_append, List.append_assoc]
  rfl

theorem mem (h : Assigns entry key value) : '=' ∈ entry.toList := by
  rw [h.toList_eq]
  exact List.mem_append_right _ List.mem_cons_self

theorem binding_eq (h : Assigns entry key value) : binding entry = (key, .string value) := by
  have hs := Text.splitOnce?_singleton (b := value.toList) h.not_mem
  rw [← h.toList_eq, Text.splitOnce?_singleton_eq, if_pos h.mem] at hs
  obtain ⟨hkey, hvalue⟩ := Prod.mk.inj (Option.some.inj hs)
  rw [binding, hkey, hvalue, String.ofList_toList, String.ofList_toList]

end Assigns

theorem exists_assigns (h : '=' ∈ entry.toList) :
    ∃ key value, Assigns entry key value ∧ binding entry = (key, .string value) := by
  have hs := Text.splitOnce?_singleton_eq '=' entry.toList
  rw [if_pos h] at hs
  have he := congrArg String.ofList (Text.eq_of_splitOnce? hs)
  rw [String.ofList_toList, String.ofList_append, String.ofList_append] at he
  refine ⟨_, _, ⟨he, ?_⟩, rfl⟩
  rw [String.toList_ofList]
  intro hm
  have := List.all_eq_true.1 List.all_takeWhile _ hm
  simp at this

theorem exists_value_eq {v : Value} (h : '=' ∈ entry.toList) (hb : binding entry = (key, v)) :
    ∃ value, v = .string value ∧ Assigns entry key value := by
  obtain ⟨key', value, ha, hb'⟩ := exists_assigns h
  obtain ⟨rfl, rfl⟩ := Prod.mk.inj (hb.symm.trans hb')
  exact ⟨value, rfl, ha⟩

theorem lookup_reverse_map_binding_eq_some_iff (h : ∀ e ∈ sets, '=' ∈ e.toList) {v : Value} :
    (sets.map binding).reverse.lookup key = some v ↔
      ∃ value, v = .string value ∧ LastAssigns sets key value := by
  rw [List.lookup_eq_some_iff]
  constructor
  · intro ⟨after, rest, hl, hn⟩
    rw [← List.reverse_inj, List.reverse_reverse, List.reverse_append, List.reverse_cons,
      List.append_assoc, List.singleton_append, List.map_eq_append_iff] at hl
    obtain ⟨before, _, rfl, -, hl⟩ := hl
    obtain ⟨entry, behind, rfl, hb, hl⟩ := List.map_eq_cons_iff.1 hl
    obtain ⟨value, hv, ha⟩ := exists_value_eq (h entry (by simp)) hb
    refine ⟨value, hv, before, entry, behind, rfl, ha, ?_⟩
    intro other ho w hw
    have hm : binding other ∈ after.reverse := hl ▸ List.mem_map_of_mem ho
    have := hn _ (List.mem_reverse.1 hm)
    simp [hw.binding_eq] at this
  · intro ⟨value, hv, before, entry, behind, hs, ha, hn⟩
    subst hs
    refine ⟨(behind.map binding).reverse, (before.map binding).reverse, ?_, ?_⟩
    · simp [ha.binding_eq, hv]
    · intro p hp
      obtain ⟨other, ho, rfl⟩ := List.mem_map.1 (List.mem_reverse.1 hp)
      obtain ⟨key', w, hw, hb⟩ := exists_assigns (h other (by simp [ho]))
      rw [hb, bne_iff_ne]
      rintro rfl
      exact hn other ho w hw

theorem lookup_reverse_map_binding_eq_none_iff (h : ∀ e ∈ sets, '=' ∈ e.toList) :
    (sets.map binding).reverse.lookup key = none ↔ ∀ e ∈ sets, ∀ w, ¬ Assigns e key w := by
  rw [List.lookup_eq_none_iff]
  constructor
  · intro hn e he w hw
    have := hn _ (List.mem_reverse.2 (List.mem_map_of_mem he))
    simp [hw.binding_eq] at this
  · intro hn p hp
    obtain ⟨e, he, rfl⟩ := List.mem_map.1 (List.mem_reverse.1 hp)
    obtain ⟨key', w, hw, hb⟩ := exists_assigns (h e he)
    rw [hb, bne_iff_ne]
    rintro rfl
    exact hn e he w hw

variable {c : Context}

theorem contextOf_eq_ok_iff :
    contextOf sets = .ok c ↔ (∀ e ∈ sets, '=' ∈ e.toList) ∧ c = .ofList (sets.map binding) := by
  rw [contextOf_eq]
  cases hf : sets.find? isBad with
  | some bad =>
    have hbad : '=' ∉ bad.toList := by simpa [isBad] using List.find?_some hf
    simp only [reduceCtorEq, false_iff]
    intro h
    exact hbad (h.1 bad (List.mem_of_find?_eq_some hf))
  | none =>
    have hgood : ∀ e ∈ sets, '=' ∈ e.toList := by simpa [isBad] using hf
    simp only [Except.ok.injEq]
    exact ⟨fun h => ⟨hgood, h.symm⟩, fun h => h.2.symm⟩

theorem find?_isBad_eq_some_iff : sets.find? isBad = some entry ↔ FirstBad sets entry := by
  rw [List.find?_eq_some_iff_append]
  simp [FirstBad, isBad]

theorem contextOf_eq_error_iff {f : Failure} :
    contextOf sets = .error f ↔ ∃ e, FirstBad sets e ∧ f = .badEntry e := by
  simp only [← find?_isBad_eq_some_iff]
  rw [contextOf_eq]
  cases sets.find? isBad <;> simp [eq_comm]

theorem get?_contextOf (h : contextOf sets = .ok c) {v : Value} :
    c.get? key = some v ↔ ∃ value, v = .string value ∧ LastAssigns sets key value := by
  obtain ⟨hgood, rfl⟩ := contextOf_eq_ok_iff.1 h
  rw [Dict.get?_ofList]
  exact lookup_reverse_map_binding_eq_some_iff hgood

theorem contains_contextOf (h : contextOf sets = .ok c) :
    c.contains key ↔ ∃ e ∈ sets, ∃ value, Assigns e key value := by
  obtain ⟨hgood, rfl⟩ := contextOf_eq_ok_iff.1 h
  rw [Dict.contains, Dict.get?_ofList, Option.isSome_iff_ne_none, ne_eq,
    lookup_reverse_map_binding_eq_none_iff hgood]
  simp

section Rebuilding

variable {m : Dict String}

variable (hm : ∀ b ∈ m.entries, '=' ∉ b.1.toList)
  (hp : sets.Perm (m.entries.map fun b => b.1 ++ "=" ++ b.2))

include hm hp

theorem exists_mem_assigns_iff :
    (∃ e ∈ sets, Assigns e key value) ↔ m.get? key = some value := by
  rw [Dict.get?_eq_some_iff]
  constructor
  · intro ⟨e, he, ha⟩
    obtain ⟨b, hb, rfl⟩ := List.mem_map.1 (hp.mem_iff.1 he)
    have hb' : Assigns (b.1 ++ "=" ++ b.2) b.1 b.2 := ⟨rfl, hm b hb⟩
    obtain ⟨rfl, hv⟩ := Prod.mk.inj (hb'.binding_eq.symm.trans ha.binding_eq)
    rw [← Value.string_injective hv]
    exact hb
  · intro hb
    exact ⟨_, hp.mem_iff.2 (List.mem_map_of_mem hb), rfl, hm _ hb⟩

theorem lastAssigns_iff (hc : contextOf sets = .ok c) :
    LastAssigns sets key value ↔ m.get? key = some value := by
  have hget : ∀ w, LastAssigns sets key w → m.get? key = some w := by
    intro w ⟨before, e, behind, hs, ha, _⟩
    exact (exists_mem_assigns_iff hm hp).1 ⟨e, by simp [hs], ha⟩
  refine ⟨hget value, fun h => ?_⟩
  obtain ⟨e, he, ha⟩ := (exists_mem_assigns_iff hm hp).2 h
  obtain ⟨v, hv⟩ := Option.isSome_iff_exists.1 ((contains_contextOf hc).2 ⟨e, he, value, ha⟩)
  obtain ⟨w, -, hw⟩ := (get?_contextOf hc).1 hv
  cases h.symm.trans (hget w hw)
  exact hw

theorem contextOf_of_perm :
    ∃ c, contextOf sets = .ok c ∧ ∀ k, c.get? k = (m.get? k).map .string := by
  have hgood : ∀ e ∈ sets, '=' ∈ e.toList := by
    intro e he
    obtain ⟨b, hb, rfl⟩ := List.mem_map.1 (hp.mem_iff.1 he)
    exact Assigns.mem ⟨rfl, hm b hb⟩
  have hc := contextOf_eq_ok_iff.2 ⟨hgood, rfl⟩
  refine ⟨_, hc, fun k => Option.ext fun v => ?_⟩
  rw [get?_contextOf hc, Option.map_eq_some_iff]
  simp only [lastAssigns_iff hm hp hc, and_comm, eq_comm]

end Rebuilding

/-- A context is made of entries if and only if each of them has an equals sign, and otherwise the first
one without is reported; the list of keys and values behind the context is never refused. The context
binds the keys of the entries, each to the value of the last entry for it. So entries for the bindings of
a map, in any order, make up the map again. -/
theorem contextOf_assigns (sets : List String) :
    ((∃ c, contextOf sets = .ok c) ↔ ∀ e ∈ sets, '=' ∈ e.toList) ∧
    (∀ f, contextOf sets = .error f ↔ ∃ e, FirstBad sets e ∧ f = .badEntry e ∧
      f.message = "invalid --set entry " ++ Text.Quoted.quote e ++ ", expected key=value") ∧
    (∀ e, contextOf sets ≠ .error (.unbound e)) ∧
    (∀ c, contextOf sets = .ok c → ∀ k,
      (c.contains k ↔ ∃ e ∈ sets, ∃ value, Assigns e k value) ∧
      ∀ v, c.get? k = some v ↔ ∃ value, v = .string value ∧ LastAssigns sets k value) ∧
    ∀ m : Dict String, (∀ b ∈ m.entries, '=' ∉ b.1.toList) →
      sets.Perm (m.entries.map fun b => b.1 ++ "=" ++ b.2) →
      ∃ c, contextOf sets = .ok c ∧ ∀ k, c.get? k = (m.get? k).map .string := by
  refine ⟨?_, fun f => ?_, ?_, ?_, fun m hm hp => contextOf_of_perm hm hp⟩
  · simp only [contextOf_eq_ok_iff, exists_and_left, exists_eq, and_true]
  · rw [contextOf_eq_error_iff]
    constructor
    · rintro ⟨e, he, rfl⟩
      exact ⟨e, he, rfl, rfl⟩
    · intro ⟨e, he, hf, _⟩
      exact ⟨e, he, hf⟩
  · intro e he
    obtain ⟨bad, -, hf⟩ := contextOf_eq_error_iff.1 he
    cases hf
  · exact fun c hc k => ⟨contains_contextOf hc, fun v => get?_contextOf hc⟩

theorem contextOf_assigns_shuffled :
    let m : Dict String := .ofList [("a", ""), ("", "=b")]
    (∃ c, contextOf ["a=", "==b"] = .ok c ∧ ∀ k, c.get? k = (m.get? k).map .string) ∧
    (∃ c, contextOf ["a=1", "=", "a=2=3"] = .ok c ∧ c.get? "a" = some (.string "2=3")) ∧
    contextOf ["a=1", "b", "c"] = .error (.badEntry "b") := by
  intro m
  refine ⟨?_, ?_, ?_⟩
  · apply (contextOf_assigns ["a=", "==b"]).2.2.2.2 m
    · decide
    · decide
  · obtain ⟨c, hc⟩ := (contextOf_assigns ["a=1", "=", "a=2=3"]).1.2 (by decide)
    have hlast : LastAssigns ["a=1", "=", "a=2=3"] "a" "2=3" :=
      ⟨["a=1", "="], "a=2=3", [], rfl, ⟨rfl, by decide⟩, by simp⟩
    refine ⟨c, hc, ?_⟩
    exact (((contextOf_assigns _).2.2.2.1 c hc "a").2 _).2 ⟨"2=3", rfl, hlast⟩
  · apply ((contextOf_assigns ["a=1", "b", "c"]).2.1 _).2
    exact ⟨"b", ⟨by decide, ["a=1"], ["c"], rfl, by decide⟩, rfl, rfl⟩

end Command

end Stencil
