import Stencil.Command.Run
import Stencil.Proofs.Json.Reading
import Stencil.Proofs.Template.Tiling

namespace Stencil

open Json (Fits Gaps Reads ReadsMember ReadsMembers Spells)

namespace Span

def members (s : Span) : List (String × Json) :=
  [("start", Json.nat s.start), ("end", Json.nat s.stop)]

def InRange (s : Span) : Prop := s.start < Word.limit ∧ s.stop < Word.limit

theorem offset?_nat {n : Nat} (h : n < Word.limit) : offset? (Json.nat n) = some n := by
  rw [Json.nat, offset?, if_pos ⟨Int.natCast_nonneg n, Int.ofNat_lt.2 h⟩, Int.toNat_natCast]

end Span

namespace Token

def members (span : Json) : Token → List (String × Json)
  | .literal text _ =>
    [("kind", .string Kind.literal.name), ("text", .string text), ("span", span)]
  | .placeholder key fallback _ =>
    [("kind", .string Kind.placeholder.name), ("key", .string key), ("fallback", .string fallback),
      ("span", span)]

def memberNames : List String := ["kind", "text", "key", "fallback", "span"]

/-- An object with the members of a token and of its span, each in any order, those of the token among
others that have names of their own and values that are read, as all strings are. -/
inductive InAnyOrder (t : Token) : Json → Prop
  | mk {bounds others ms : List (String × Json)} :
    bounds.Perm t.span.members →
    (∀ m ∈ others, m.1 ∉ memberNames ∧ Fits (Json.maxDepth - 1) m.2) →
    ms.Perm (t.members (.object bounds) ++ others) → InAnyOrder t (.object ms)

theorem inAnyOrder_toJson (t : Token) : t.InAnyOrder t.toJson := by
  have h : t.toJson = .object (t.members (.object t.span.members)) := by cases t <;> rfl
  rw [h]
  exact @InAnyOrder.mk t _ [] _ (.refl _) (by simp) (by rw [List.append_nil])

def Once (name : String) (j : Json) (ms : List (String × Json)) : Prop :=
  ms.filter (fun m => m.1 == name) = [(name, j)]

variable {name : String} {j : Json} {ms ns : List (String × Json)}

theorem Once.member? (h : Once name j ms) : Token.member? name ms = some j := by
  rw [Token.member?, h]

theorem Once.of_perm (h : Once name j ns) (hp : ms.Perm ns) : Once name j ms := by
  have := hp.filter fun m => m.1 == name
  rw [h] at this
  exact List.perm_singleton.1 this

theorem Once.exists_append (h : Once name j ms) :
    ∃ before behind, ms = before ++ (name, j) :: behind ∧ ∀ m ∈ before ++ behind, m.1 ≠ name := by
  obtain ⟨before, behind, rfl, hbefore, -, hbehind⟩ := List.filter_eq_cons_iff.1 h
  refine ⟨before, behind, rfl, ?_⟩
  intro m hm
  rcases List.mem_append.1 hm with hm | hm
  · simpa using hbefore m hm
  · simpa using List.filter_eq_nil_iff.1 hbehind m hm

theorem Once.of_append_cons {before behind : List (String × Json)} {m : String × Json}
    (h : Once name j (before ++ m :: behind)) (hm : m.1 ≠ name) :
    Once name j (before ++ behind) := by
  rw [Once, List.filter_append, List.filter_cons_of_neg (by simpa using hm)] at h
  rw [Once, List.filter_append, h]

theorem once_members_append {t : Token} {span : Json} {others : List (String × Json)}
    (ho : ∀ m ∈ others, m.1 ∉ memberNames) (hn : name ∈ memberNames)
    (h : Once name j (t.members span)) : Once name j (t.members span ++ others) := by
  have : others.filter (fun m => m.1 == name) = [] := by
    rw [List.filter_eq_nil_iff]
    intro m hm hmn
    exact ho m hm (eq_of_beq hmn ▸ hn)
  rw [Once, List.filter_append, this, List.append_nil]
  exact h

theorem ofJson?_span {s : Span} (h : s.InRange) {bounds : List (String × Json)}
    (hb : bounds.Perm s.members) : Span.ofJson? (.object bounds) = some s := by
  have hall : (bounds.all fun m => m.1 = "start" || m.1 = "end") = true := by
    rw [List.all_eq_true]
    intro m hm
    have := hb.mem_iff.1 hm
    simp only [Span.members, List.mem_cons, List.not_mem_nil, or_false] at this
    rcases this with rfl | rfl <;> rfl
  have hstart : Once "start" (Json.nat s.start) s.members := rfl
  have hstop : Once "end" (Json.nat s.stop) s.members := rfl
  simp only [Span.ofJson?, if_pos hall, Option.bind_eq_bind, Option.bind_eq_some_iff]
  exact ⟨_, (hstart.of_perm hb).member?, _, Span.offset?_nat h.1, _, (hstop.of_perm hb).member?, _,
    Span.offset?_nat h.2, rfl⟩

def kind : Token → Kind
  | .literal _ _ => .literal
  | .placeholder _ _ _ => .placeholder

theorem once_kind (t : Token) (span : Json) :
    Once "kind" (.string t.kind.name) (t.members span) := by
  cases t <;> rfl

theorem ofMembers?_eq_some {t : Token} {span : Json} (hs : Span.ofJson? span = some t.span)
    (h : ∀ {name j}, name ∈ memberNames → name ≠ "kind" → Once name j (t.members span) →
      Once name j ms) :
    ofMembers? ms t.kind = some t := by
  cases t with
  | literal text s =>
    have htext : Once "text" (.string text) ms := h (by decide) (by decide) rfl
    have hspan : Once "span" span ms := h (by decide) (by decide) rfl
    rw [kind, ofMembers?, htext.member?, hspan.member?]
    simp only [Option.bind_eq_bind, Option.bind_some, string?, hs]
    rfl
  | placeholder key fallback s =>
    have hkey : Once "key" (.string key) ms := h (by decide) (by decide) rfl
    have hfallback : Once "fallback" (.string fallback) ms := h (by decide) (by decide) rfl
    have hspan : Once "span" span ms := h (by decide) (by decide) rfl
    rw [kind, ofMembers?, hkey.member?, hfallback.member?, hspan.member?]
    simp only [Option.bind_eq_bind, Option.bind_some, string?, hs]
    rfl

theorem once_of_perm {t : Token} {span : Json} {others : List (String × Json)}
    (ho : ∀ m ∈ others, m.1 ∉ memberNames) (hp : ms.Perm (t.members span ++ others))
    (hn : name ∈ memberNames) (h : Once name j (t.members span)) : Once name j ms :=
  (once_members_append ho hn h).of_perm hp

theorem ofJson?_of_inAnyOrder {t : Token} (h : t.InAnyOrder j) (hs : t.span.InRange) :
    ofJson? j = some t := by
  cases h with
  | @mk bounds others ms hb ho hp =>
    have ho' : ∀ m ∈ others, m.1 ∉ memberNames := fun m hm => (ho m hm).1
    have hkind := once_of_perm ho' hp (by decide) (once_kind t _)
    have hmembers : ofMembers? ms t.kind = some t :=
      ofMembers?_eq_some (ofJson?_span hs hb) fun hn _ => once_of_perm ho' hp hn
    rw [ofJson?, hkind.member?]
    simp only [Option.bind_eq_bind, Option.bind_some, string?, Kind.ofName?_name, hmembers]

theorem readKind_stringText {g : List Char} (hg : Gaps g) (k : Kind) (rest : List Char) :
    readKind (g ++ Json.stringText k.name ++ rest) = .ok (k, rest) := by
  rw [readKind, Json.stringText, List.append_assoc, List.cons_append, List.cons_append,
    hg.skip (c := '"') rfl, List.append_assoc]
  simp only [List.cons_append, List.nil_append, Json.readString_stringText, bind, Except.bind,
    Kind.ofName?_name]
  rfl

theorem readsMember_kind (k : Kind) (ms : List (String × Json)) :
    ReadsMember readMember (none, ms) ("kind", .string k.name) (some k, ms) := by
  rintro g h _ rest hg hh ⟨⟩ -
  rw [readMember, if_pos rfl, Json.readColon_append hg]
  simp only [bind, Except.bind, readKind_stringText hh]
  rfl

theorem readsMember_other {m : String × Json} (hm : m.1 ≠ "kind")
    (hf : Fits (Json.maxDepth - 1) m.2) (k? : Option Kind) (ms : List (String × Json)) :
    ReadsMember readMember (k?, ms) m (k?, m :: ms) := by
  intro g h cs rest hg hh hs hr
  have := Json.readsMember_push (Json.reads_readValue hf) ms hg hh hs hr
  rw [readMember, if_neg hm, readField, this]
  rfl

theorem readsMembers_others {k? : Option Kind} (h : ∀ m ∈ ms, m.1 ≠ "kind")
    (hf : ∀ m ∈ ms, Fits (Json.maxDepth - 1) m.2) (before : List (String × Json)) :
    ReadsMembers readMember (k?, before) ms (k?, ms.reverse ++ before) := by
  induction ms generalizing before with
  | nil => exact .nil
  | cons m ms ih =>
    rw [List.forall_mem_cons] at h hf
    rw [List.reverse_cons, List.append_assoc]
    exact .cons (readsMember_other h.1 hf.1 k? before) (ih h.2 hf.2 (m :: before))

theorem fits_nat {n depth : Nat} (h : n < Word.limit) : Fits depth (Json.nat n) :=
  .whole (by omega) (Int.ofNat_lt.2 h)

theorem fits_members {t : Token} (hs : t.span.InRange) {bounds : List (String × Json)}
    (hb : bounds.Perm t.span.members) (depth : Nat) :
    ∀ m ∈ t.members (.object bounds), Fits (depth + 1) m.2 := by
  have hspan : Fits (depth + 1) (.object bounds) := by
    refine .object fun m hm => ?_
    have := hb.mem_iff.1 hm
    simp only [Span.members, List.mem_cons, List.not_mem_nil, or_false] at this
    rcases this with rfl | rfl
    · exact fits_nat hs.1
    · exact fits_nat hs.2
  cases t <;> simp [members, hspan, Fits.string]

theorem reads_read {t : Token} {j : Json} (h : t.InAnyOrder j) (hs : t.span.InRange) :
    Reads read j t := by
  cases h with
  | @mk bounds others ms hb ho hp =>
    have hf : ∀ m ∈ ms, Fits (Json.maxDepth - 1) m.2 := by
      intro m hm
      rcases List.mem_append.1 (hp.mem_iff.1 hm) with hm | hm
      · exact fits_members hs hb _ m hm
      · exact (ho m hm).2
    have ho' : ∀ m ∈ others, m.1 ∉ memberNames := fun m hm => (ho m hm).1
    -- the kind stands somewhere; the members on both sides of it are only collected
    obtain ⟨before, behind, rfl, hother⟩ :=
      (once_of_perm ho' hp (by decide) (once_kind t _)).exists_append
    rw [List.forall_mem_append] at hother
    rw [List.forall_mem_append, List.forall_mem_cons] at hf
    have hmembers : ofMembers? (behind.reverse ++ before.reverse) t.kind = some t := by
      refine ofMembers?_eq_some (ofJson?_span hs hb) fun hn hne h => ?_
      refine ((once_of_perm ho' hp hn h).of_append_cons (Ne.symm hne)).of_perm ?_
      rw [← List.reverse_append]
      exact List.reverse_perm _
    have hreads := (readsMembers_others hother.1 hf.1 []).append
      (.cons (readsMember_kind t.kind _) (readsMembers_others hother.2 hf.2.2 _))
    rw [List.append_nil] at hreads
    intro g cs rest hg hsp hr
    obtain ⟨more, hskip, hread⟩ := Json.readObject_of_reads hreads hg hsp rest
    rw [read, hskip]
    simp only [hread, bind, Except.bind, Option.bind, hmembers]
    rfl

theorem ofText_of_spells {t : Token} {j : Json} (h : t.InAnyOrder j) (hs : t.span.InRange)
    {text : String} (hsp : Spells j text.toList) : ofText text = .ok t :=
  Reads.readAll (reads_read h hs) (List.append_nil _).symm hsp Json.gaps_nil

def readList : Json.Read (List Token) := fun cs =>
  match Json.skipGaps cs with
  | '[' :: rest => Json.readArray read rest
  | cs => .error (Json.mismatch cs)

variable {ts : List Token}

theorem fits_toJson {t : Token} (hs : t.span.InRange) (depth : Nat) :
    Fits (depth + 2) t.toJson := by
  have h := fits_members hs (.refl _) depth
  cases t <;> exact .object h

theorem fits_map_toJson (hs : ∀ t ∈ ts, t.span.InRange) (depth : Nat) :
    ∀ j ∈ ts.map toJson, Fits (depth + 2) j := by
  intro j hj
  obtain ⟨t, ht, rfl⟩ := List.mem_map.1 hj
  exact fits_toJson (hs t ht) depth

theorem reads_readList (hs : ∀ t ∈ ts, t.span.InRange) :
    Reads readList (.array (ts.map toJson)) ts := by
  intro g cs rest hg hsp hr
  have hi : List.Forall₂ (Reads read) (ts.map toJson) ts := by
    rw [List.forall₂_map_left_iff, List.forall₂_same]
    intro t ht
    exact reads_read t.inAnyOrder_toJson (hs t ht)
  obtain ⟨more, hskip, hread⟩ :=
    Json.readArray_of_reads (fits_map_toJson hs 0) hi hg hsp rest
  rw [readList, hskip]
  exact hread

theorem listOfJson?_map_toJson (hs : ∀ t ∈ ts, t.span.InRange) :
    listOfJson? (.array (ts.map toJson)) = some ts := by
  rw [listOfJson?]
  induction ts with
  | nil => rfl
  | cons t ts ih =>
    rw [List.forall_mem_cons] at hs
    rw [List.map_cons, List.mapM_cons, ofJson?_of_inAnyOrder t.inAnyOrder_toJson hs.1, ih hs.2]
    rfl

variable {template : String}

theorem inRange_of_mem_tokens (h : template.utf8ByteSize < Word.limit) {t : Token}
    (ht : t ∈ Template.tokens template) : t.span.InRange := by
  have hs := Template.isValid_span ht
  exact ⟨Nat.lt_of_le_of_lt hs.1.le_utf8ByteSize h, Nat.lt_of_le_of_lt hs.2.le_utf8ByteSize h⟩

def printed (ts : List Token) : String := Command.line (Json.array (ts.map toJson)).pretty

theorem run_tokens {files : Files} {source : Source} (h : Command.load files source = .ok template) :
    Command.run files (.tokens source) = .ok (printed (Template.tokens template), files) := by
  rw [Command.run, Command.source, h]
  rfl

theorem readAll_printed {α : Type} {read : Json.Read α} {a : α}
    (h : Reads read (.array (ts.map toJson)) a) : Json.readAll read (printed ts) = .ok a := by
  refine h.readAll (g := ['\n']) ?_ (Json.spells_pretty _) rfl
  rw [printed, Command.line, String.toList_append]
  rfl

theorem ofText_printed (hs : ∀ t ∈ ts, t.span.InRange) :
    Json.ofText Json.maxDepth (printed ts) = .ok (.array (ts.map toJson)) :=
  readAll_printed (Json.reads_readValue (.array (fits_map_toJson hs _)))

/-- A token is read back from its compact and its pretty text, whatever the order of its members and
of those of its span, and whatever else is among the former. So each template has its tokens read back
from what the program prints of them, by a reader of tokens or by way of a value. The offsets of a text
in memory are numbers of 64 bits. -/
theorem reads_back :
    (∀ t : Token, t.span.InRange → t.InAnyOrder t.toJson ∧
      ∀ j, t.InAnyOrder j → ofText j.compact = .ok t ∧ ofText j.pretty = .ok t) ∧
    ∀ files source template, Command.load files source = .ok template →
      template.utf8ByteSize < Word.limit →
      ∃ text, Command.run files (.tokens source) = .ok (text, files) ∧
        Json.readAll readList text = .ok (Template.tokens template) ∧
        (Json.ofText Json.maxDepth text).map listOfJson? =
          .ok (some (Template.tokens template)) := by
  refine ⟨fun t hs => ⟨t.inAnyOrder_toJson, fun j h => ⟨?_, ?_⟩⟩, ?_⟩
  · exact ofText_of_spells h hs (Json.spells_compact j)
  · exact ofText_of_spells h hs (Json.spells_pretty j)
  · intro files source template hload hsize
    have hs : ∀ t ∈ Template.tokens template, t.span.InRange :=
      fun t ht => inRange_of_mem_tokens hsize ht
    refine ⟨_, run_tokens hload, readAll_printed (reads_readList hs), ?_⟩
    rw [ofText_printed hs, Except.map, listOfJson?_map_toJson hs]

theorem reads_back_reversed :
    let t : Token := .placeholder "a\"\\\x01" "é\n" ⟨3, Word.limit - 1⟩
    let others : List (String × Json) := [("tag", .string "kind"), ("", .string "\t"), ("tag", .null)]
    let j : Json := .object (t.members (.object t.span.members.reverse) ++ others).reverse
    (ofText j.compact = .ok t ∧ ofText j.pretty = .ok t) ∧
    ∃ text, Command.run ∅ (.tokens (.inline "\"\\${a|}")) = .ok (text, ∅) ∧
      Json.readAll readList text = .ok (Template.tokens "\"\\${a|}") ∧
      (Json.ofText Json.maxDepth text).map listOfJson? =
        .ok (some (Template.tokens "\"\\${a|}")) := by
  intro t others j
  have hs : t.span.InRange := by simp [t, span, Span.InRange, Word.limit]
  have ho : ∀ m ∈ others, m.1 ∉ memberNames ∧ Fits (Json.maxDepth - 1) m.2 := by
    simp [others, memberNames, Fits.string, Fits.null]
  have h : t.InAnyOrder j := .mk (List.reverse_perm _) ho (List.reverse_perm _)
  exact ⟨(reads_back.1 t hs).2 j h, reads_back.2 ∅ _ _ rfl (by decide)⟩

end Token

end Stencil
