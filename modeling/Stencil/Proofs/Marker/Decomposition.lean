import Stencil.Marker

namespace Stencil

namespace Marker

structure Marked (raw stem marker blanks : List Char) : Prop where
  mem_all : marker ∈ all
  allBlank : Text.allBlank blanks
  eq : raw = stem ++ marker ++ blanks

/-- As `strip?`, with other markers or with the same ones in another order. -/
def stripBy? (markers : List (List Char)) (mode : Trimming) (raw : String) : Option String :=
  let drop cs := markers.findSome? fun m => Text.dropEnd? m cs
  match mode with
  | .trimmed => (drop (Text.trimEnd raw.toList)).map fun cs => String.ofList (Text.trim cs)
  | .untrimmed => (drop raw.toList).map String.ofList

variable {raw stem marker blanks : List Char}

theorem getLast?_of_mem_all : ∀ m ∈ all, m.getLast? = some '>' := by decide

theorem Marked.trimEnd_eq (h : Marked raw stem marker blanks) : Text.trimEnd raw = stem ++ marker := by
  have hl : (stem ++ marker).getLast? = some '>' := by
    rw [List.getLast?_append, getLast?_of_mem_all marker h.mem_all, Option.some_or]
  rw [h.eq, Text.trimEnd_append_of_blank h.allBlank]
  exact Text.trimEnd_of_getLast? hl (by decide)

theorem dropMarker?_trimEnd_eq_some_iff :
    dropMarker? (Text.trimEnd raw) = some stem ↔ ∃ marker blanks, Marked raw stem marker blanks := by
  rw [dropMarker?_eq_some_iff]
  constructor
  · rintro ⟨m, hm, he⟩
    obtain ⟨blanks, hb, hr⟩ := Text.exists_trimEnd_append raw
    exact ⟨m, blanks, hm, hb, he ▸ hr⟩
  · rintro ⟨m, blanks, h⟩
    exact ⟨m, h.mem_all, h.trimEnd_eq⟩

theorem Marked.unique {stem' marker' blanks' : List Char} (h : Marked raw stem marker blanks)
    (h' : Marked raw stem' marker' blanks') : stem = stem' ∧ marker = marker' ∧ blanks = blanks' := by
  have hs : stem = stem' := by
    apply Option.some.inj
    rw [← dropMarker?_trimEnd_eq_some_iff.2 ⟨_, _, h⟩, dropMarker?_trimEnd_eq_some_iff.2 ⟨_, _, h'⟩]
  have ht : stem ++ marker = stem' ++ marker' := h.trimEnd_eq.symm.trans h'.trimEnd_eq
  have hb : stem ++ marker ++ blanks = stem' ++ marker' ++ blanks' := h.eq.symm.trans h'.eq
  rw [ht] at hb
  rw [hs] at ht
  exact ⟨hs, List.append_cancel_left ht, List.append_cancel_left hb⟩

theorem findSome?_dropEnd?_of_perm {markers : List (List Char)} (h : markers.Perm all) (cs : List Char) :
    (markers.findSome? fun m => Text.dropEnd? m cs) = dropMarker? cs := by
  cases hf : markers.findSome? fun m => Text.dropEnd? m cs with
  | some stem =>
    obtain ⟨m, hm, hs⟩ := List.exists_of_findSome?_eq_some hf
    exact (dropMarker?_eq_some_iff.2 ⟨m, h.mem_iff.1 hm, Text.dropEnd?_eq_some_iff.1 hs⟩).symm
  | none =>
    symm
    rw [List.findSome?_eq_none_iff] at hf
    exact List.findSome?_eq_none_iff.2 fun m hm => hf m (h.mem_iff.2 hm)

theorem stripBy?_of_perm {markers : List (List Char)} (h : markers.Perm all) (mode : Trimming)
    (raw : String) : stripBy? markers mode raw = strip? mode raw := by
  cases mode <;> simp only [stripBy?, strip?, findSome?_dropEnd?_of_perm h]

theorem strip?_untrimmed_eq_some_iff {raw key : String} :
    strip? .untrimmed raw = some key ↔ ∃ m ∈ all, raw = key ++ String.ofList m := by
  simp only [strip?, Option.map_eq_some_iff, dropMarker?_eq_some_iff]
  constructor
  · rintro ⟨stem, ⟨m, hm, he⟩, rfl⟩
    exact ⟨m, hm, by rw [← String.ofList_append, ← he, String.ofList_toList]⟩
  · rintro ⟨m, hm, rfl⟩
    exact ⟨key.toList, ⟨m, hm, by simp⟩, String.ofList_toList⟩

theorem strip?_trimmed_eq_some_iff {raw key : String} :
    strip? .trimmed raw = some key ↔ ∃ stem marker blanks, Marked raw.toList stem marker blanks ∧
      key = String.ofList (Text.trim stem) := by
  simp only [strip?, Option.map_eq_some_iff, dropMarker?_trimEnd_eq_some_iff]
  constructor
  · rintro ⟨stem, ⟨m, blanks, h⟩, rfl⟩
    exact ⟨stem, m, blanks, h, rfl⟩
  · rintro ⟨stem, m, blanks, h, rfl⟩
    exact ⟨stem, ⟨m, blanks, h⟩, rfl⟩

theorem strip?_trimmed_eq_map (raw : String) :
    strip? .trimmed raw = (strip? .untrimmed (String.ofList (Text.trimEnd raw.toList))).map fun key =>
      String.ofList (Text.trim key.toList) := by
  simp [strip?, Function.comp_def]

theorem isSome_strip?_trimmed {raw : String} (h : (strip? .untrimmed raw).isSome) :
    (strip? .trimmed raw).isSome := by
  obtain ⟨key, hk⟩ := Option.isSome_iff_exists.1 h
  obtain ⟨m, hm, rfl⟩ := strip?_untrimmed_eq_some_iff.1 hk
  have hd : Marked (key ++ String.ofList m).toList key.toList m [] := ⟨hm, rfl, by simp⟩
  rw [strip?_trimmed_eq_some_iff.2 ⟨_, _, _, hd, rfl⟩]
  rfl

/-- Exactly the marked keys are accepted, by any order of the markers, for there is one way at most to make
up a text: trimmed if its last blanks are left out of account, and those around the stem too. -/
theorem strip?_iff_marked {markers : List (List Char)} (h : markers.Perm all) (raw : String) :
    (∀ key, strip? .untrimmed raw = some key ↔ ∃ m ∈ all, raw = key ++ String.ofList m) ∧
      (∀ key, strip? .trimmed raw = some key ↔ ∃ stem marker blanks,
        Marked raw.toList stem marker blanks ∧ key = String.ofList (Text.trim stem)) ∧
      (∀ stem stem' marker marker' blanks blanks', Marked raw.toList stem marker blanks →
        Marked raw.toList stem' marker' blanks' →
          stem = stem' ∧ marker = marker' ∧ blanks = blanks') ∧
      (∀ mode, stripBy? markers mode raw = strip? mode raw) ∧
      strip? .trimmed raw =
        ((strip? .untrimmed (String.ofList (Text.trimEnd raw.toList))).map fun key =>
          String.ofList (Text.trim key.toList)) ∧
      ((strip? .untrimmed raw).isSome → (strip? .trimmed raw).isSome) :=
  ⟨fun _ => strip?_untrimmed_eq_some_iff, fun _ => strip?_trimmed_eq_some_iff,
    fun _ _ _ _ _ _ h h' => h.unique h', fun mode => stripBy?_of_perm h mode raw,
    strip?_trimmed_eq_map raw, isSome_strip?_trimmed⟩

theorem strip?_iff_marked_stacked :
    let markers := [[' ', '>', '>'], [' ', '>', '>', '>'], [' ', '-', '>']]
    let raw := "\u3000a >> ->\u2028"
    markers.Perm all ∧ strip? .trimmed raw = some "a >>" ∧ stripBy? markers .trimmed raw = some "a >>" ∧
      strip? .untrimmed raw = none ∧
      ∀ stem marker blanks, Marked raw.toList stem marker blanks → marker = [' ', '-', '>'] := by
  intro markers raw
  have h : markers.Perm all := by decide
  obtain ⟨hu, ht, hd, ho, hm, -⟩ := strip?_iff_marked h raw
  have hr : Marked raw.toList ['\u3000', 'a', ' ', '>', '>'] [' ', '-', '>'] ['\u2028'] :=
    ⟨by decide, by decide, by decide⟩
  have hs : strip? .trimmed raw = some "a >>" := (ht "a >>").2 ⟨_, _, _, hr, by decide⟩
  refine ⟨h, hs, (ho .trimmed).trans hs, by decide, ?_⟩
  intro stem marker blanks hk
  exact (hd _ _ _ _ _ _ hk hr).2.1

end Marker

end Stencil
