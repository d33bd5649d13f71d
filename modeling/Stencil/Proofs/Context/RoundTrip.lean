import Stencil.Session
import Stencil.Proofs.Caches.Reached
import Stencil.Proofs.Json.Reading

namespace Stencil

open Json (Fits Gaps Reads ReadsMember Spells)

theorem Dict.entries_ofList {α : Type} (es : List (String × α)) :
    (ofList es).entries = Entries.sort es := by
  rw [ofList, insertAll, Entries.sort]
  exact (List.foldl_hom entries fun _ _ => rfl).symm

theorem Entries.sort_eq_self {α : Type} {es : List (String × α)} (h : Ascending es) :
    sort es = es := by
  rw [← Dict.entries_ofList, @Dict.ofList_of_mem_iff _ ⟨es, h⟩ es fun _ => .rfl]

namespace Json

mutual

theorem canonical_eq_self : (j : Json) → Canonical j → j.canonical = j
  | .null, _ | .bool _, _ | .number _, _ | .string _, _ => rfl
  | .array items, h => congrArg Json.array (canonicalItems_eq_self items h)
  | .object members, h => by
    rw [canonical, canonicalMembers_eq_self members h.2, Entries.sort_eq_self h.1]

theorem canonicalItems_eq_self : (js : List Json) → CanonicalItems js → canonicalItems js = js
  | [], _ => rfl
  | j :: js, h => congrArg₂ List.cons (canonical_eq_self j h.1) (canonicalItems_eq_self js h.2)

theorem canonicalMembers_eq_self :
    (ms : List (String × Json)) → CanonicalMembers ms → canonicalMembers ms = ms
  | [], _ => rfl
  | (k, j) :: ms, h => by
    rw [canonicalMembers, canonical_eq_self j h.1, canonicalMembers_eq_self ms h.2]

end

end Json

@[simp] theorem Value.ofJson_json (v : Value) : ofJson v.json = v := by
  cases v with
  | mk j h =>
    simp only [ofJson, Json.canonical_eq_self j h]

theorem Session.setService_serviceAt (s : Session) (i : Nat) :
    s.setService i (s.serviceAt i) = s := by
  have h : s.services.set i (s.serviceAt i) = s.services := by
    rw [serviceAt]
    by_cases hi : i < s.services.length
    · rw [List.getD_eq_getElem?_getD, List.getElem?_eq_getElem hi, Option.getD_some,
        List.set_getElem_self]
    · exact List.set_eq_of_length_le (Nat.le_of_not_lt hi)
  rw [setService, h]

namespace Context

def members (context : Context) : List (String × Json) :=
  context.entries.map fun e => (e.1, e.2.json)

def wrapped (members : List (String × Json)) : Json := .object [("context", .object members)]

theorem wrap_eq (context : Context) : context.wrap = wrapped context.members := rfl

variable {ms : List (String × Json)}

theorem ofMembers_of_perm {context : Context} (h : ms.Perm context.members) :
    ofMembers ms = context := by
  rw [ofMembers]
  apply Dict.ofList_of_mem_iff
  have := h.map fun m : String × Json => (m.1, Value.ofJson m.2)
  intro e
  rw [this.mem_iff, members, List.map_map]
  simp

theorem reads_read (hf : ∀ m ∈ ms, Fits (Json.maxDepth - 2) m.2) :
    Reads read (.object ms) (ofMembers ms) := by
  intro g cs rest hg hs hr
  have hm := Json.readsMembers_push (fun m hm => Json.reads_readValue (hf m hm)) []
  rw [List.append_nil] at hm
  obtain ⟨more, hskip, hread⟩ := Json.readObject_of_reads hm hg hs rest
  rw [read, hskip]
  simp only [readField, hread, bind, Except.bind, List.reverse_reverse]
  rfl

theorem readsMember_context (hf : ∀ m ∈ ms, Fits (Json.maxDepth - 2) m.2) :
    ReadsMember readMember none ("context", .object ms) (some (ofMembers ms)) := by
  intro g h cs rest hg hh hs hr
  rw [readMember, if_pos rfl, Json.readColon_append hg]
  simp only [bind, Except.bind, reads_read hf hh hs hr]
  rfl

theorem reads_readWrapped (hf : ∀ m ∈ ms, Fits (Json.maxDepth - 2) m.2) :
    Reads readWrapped (wrapped ms) (ofMembers ms) := by
  intro g cs rest hg hs hr
  obtain ⟨more, hskip, hread⟩ :=
    Json.readObject_of_reads (.cons (readsMember_context hf) .nil) hg hs rest
  rw [readWrapped, hskip]
  simp only [hread, bind, Except.bind]
  rfl

theorem ofText_of_spells {context : Context} {depth : Nat} (hd : depth + 2 ≤ Json.maxDepth)
    (hf : ∀ m ∈ context.members, Fits depth m.2) (hp : ms.Perm context.members) {text : String}
    (hs : Spells (wrapped ms) text.toList) : ofText text = .ok context := by
  have hms : ∀ m ∈ ms, Fits (Json.maxDepth - 2) m.2 := by
    intro m hm
    exact (hf m (hp.mem_iff.1 hm)).mono (Nat.le_sub_of_add_le hd)
  rw [← ofMembers_of_perm hp]
  exact Reads.readAll (reads_readWrapped hms) (List.append_nil _).symm hs Json.gaps_nil

/-- The texts of a context on its own, with its bindings in any order. -/
def Texts (context : Context) (text : String) : Prop :=
  ∃ ms : List (String × Json), ms.Perm context.members ∧
    (text = (wrapped ms).compact ∨ text = (wrapped ms).pretty)

theorem ofText_of_texts {context : Context} {depth : Nat} (hd : depth + 2 ≤ Json.maxDepth)
    (hf : ∀ m ∈ context.members, Fits depth m.2) {text : String} (h : context.Texts text) :
    ofText text = .ok context := by
  obtain ⟨ms, hp, rfl | rfl⟩ := h
  · exact ofText_of_spells hd hf hp (Json.spells_compact _)
  · exact ofText_of_spells hd hf hp (Json.spells_pretty _)

theorem render_eq {c d : Caches} (hc : c.Reached) (hd : d.Reached) (context : Context)
    (template : String) : (c.render context template).1 = (d.render context template).1 := by
  rw [(hc.coherent.render context template).result, (hd.coherent.render context template).result]

/-- A context whose numbers are whole ones of 64 bits, nested no deeper than the reader goes, is read
back from all its texts. It then fills each template as before, whatever caches help on either side, as
long as nobody has put anything into them. What a renderer of a session is written as is such a text,
and a session makes another renderer of it that has the same context. -/
theorem restores (context : Context) {depth : Nat} (hd : depth + 2 ≤ Json.maxDepth)
    (hf : ∀ m ∈ context.members, Fits depth m.2) :
    (∀ text, context.Texts text → ∃ restored, ofText text = .ok restored ∧ restored = context ∧
      ∀ c d : Caches, c.Reached → d.Reached → ∀ template,
        (c.render restored template).1 = (d.render context template).1) ∧
    ∀ (s : Session) (name : String) (service : Nat),
      s.renderers.get? name = some ⟨context, service⟩ →
      ∃ text, context.Texts text ∧ s.step (.query name .json) = (.renderer (.text (some text)), s) ∧
        ∀ target, s.step (.bind target none (.json text)) =
          (Session.context context, s.setRenderer target ⟨context, Session.shared⟩) := by
  refine ⟨fun text h => ?_, fun s name service hr => ?_⟩
  · exact ⟨context, ofText_of_texts hd hf h, rfl, fun c d hc hd => render_eq hc hd context⟩
  · have h : context.Texts context.wrap.compact := ⟨_, .refl _, .inl (congrArg _ context.wrap_eq)⟩
    refine ⟨_, h, ?_, fun target => ?_⟩
    · simp only [Session.step, Session.withName, hr, Session.query, Renderer.Query.reply,
        Session.setService_serviceAt]
    · have ho (c : Caches) :
          (Renderer.Origin.json context.wrap.compact).bind c = (.ok context, c) := by
        rw [Renderer.Origin.bind, ofText_of_texts hd hf h]
        rfl
      simp only [Session.step, Session.bind, ho, Session.setService_serviceAt]

theorem restores_reversed :
    let bounds : Json := .array [.number (.whole (-(Word.depth : Int))), Json.nat (Word.limit - 1)]
    let v : Value := .ofJson (.object [("", .array [bounds, .object [], .string "\x00\"é"])])
    let context : Context := .ofList [("k", .null), ("", v)]
    let s : Session := (Session.start {} []).setRenderer "a" ⟨context, Session.shared⟩
    (∃ restored, ofText (wrapped context.members.reverse).pretty = .ok restored ∧
      restored = context ∧ ∀ c d : Caches, c.Reached → d.Reached → ∀ template,
        (c.render restored template).1 = (d.render context template).1) ∧
    ∃ text, context.Texts text ∧ s.step (.query "a" .json) = (.renderer (.text (some text)), s) ∧
      ∀ target, s.step (.bind target none (.json text)) =
        (Session.context context, s.setRenderer target ⟨context, Session.shared⟩) := by
  intro bounds v context s
  have hbounds : Fits 98 bounds := by
    refine .array fun j hj => ?_
    rcases List.mem_pair.1 hj with rfl | rfl <;> exact .whole (by decide) (by decide)
  have hv : Fits 100 v.json := by
    have he : v.json = .object [("", .array [bounds, .object [], .string "\x00\"é"])] := rfl
    rw [he]
    refine .object fun m hm => ?_
    rw [List.mem_singleton.1 hm]
    refine .array fun j hj => ?_
    simp only [List.mem_cons, List.not_mem_nil, or_false] at hj
    rcases hj with rfl | rfl | rfl
    · exact hbounds
    · exact .object (by simp)
    · exact .string _
  have hf : ∀ m ∈ context.members, Fits 100 m.2 :=
    List.forall_mem_cons.2 ⟨hv, List.forall_mem_singleton.2 .null⟩
  have h := @restores context 100 (by decide) hf
  exact ⟨h.1 _ ⟨_, List.reverse_perm _, .inr rfl⟩, h.2 s "a" Session.shared rfl⟩

end Context

end Stencil
