import Stencil.Command.Run
import Stencil.Proofs.Rendering.Dependence

namespace Stencil.Command

/-- The pieces of a text between its line breaks, in front of the first and behind the last included. -/
def pieces (text : String) : List String := (text.toList.splitOn '\n').map String.ofList

theorem pieces_line_append {s : String} (h : '\n' ∉ s.toList) (rest : String) :
    pieces (line s ++ rest) = s :: pieces rest := by
  have ht : (line s ++ rest).toList = s.toList ++ '\n' :: rest.toList := by
    rw [line, String.toList_append, String.toList_append, List.append_assoc]
    rfl
  rw [pieces, ht, List.splitOn_append_cons_self_of_not_mem h, List.map_cons, String.ofList_toList]
  rfl

theorem pieces_join_map_line {ls : List String} (h : ∀ s ∈ ls, '\n' ∉ s.toList) :
    pieces (String.join (ls.map line)) = ls ++ [""] := by
  induction ls with
  | nil => rfl
  | cons s ls ih =>
    rw [List.forall_mem_cons] at h
    rw [List.map_cons, String.join_cons, pieces_line_append h.1, ih h.2, List.cons_append]

theorem newline_not_mem_of_mem_keys {template key : String} (h : key ∈ Template.keys template) :
    '\n' ∉ key.toList :=
  (Template.isKey_of_mem_keys h).1 '\n' (by simp)

def listing (template : String) : String := String.join ((Template.keys template).map line)

theorem pieces_listing (template : String) :
    pieces (listing template) = Template.keys template ++ [""] :=
  pieces_join_map_line fun _ => newline_not_mem_of_mem_keys

theorem listing_eq_iff {template other : String} :
    listing template = listing other ↔ Template.keys template = Template.keys other := by
  constructor
  · intro h
    have hp := congrArg pieces h
    rw [pieces_listing, pieces_listing] at hp
    exact List.append_cancel_right hp
  · intro h
    rw [listing, listing, h]

variable {files files' : Files} {source source' : Source} {template template' : String}

theorem run_keys (h : load files source = .ok template) :
    run files (.keys source) = .ok (listing template, files) := by
  rw [run, Command.source, h]
  rfl

/-- The lines that are printed for the keys of a template are its keys, in order, repeated and empty ones
included. So the same is printed for two templates if and only if they have the same keys. -/
theorem pieces_run_keys (h : load files source = .ok template)
    (h' : load files' source' = .ok template') :
    ∃ text text', run files (.keys source) = .ok (text, files) ∧
      run files' (.keys source') = .ok (text', files') ∧
      pieces text = Template.keys template ++ [""] ∧
      (text = text' ↔ Template.keys template = Template.keys template') :=
  ⟨_, _, run_keys h, run_keys h', pieces_listing template, listing_eq_iff⟩

theorem pieces_run_keys_multiline :
    let files : Files := (∅ : Files).put "t" "${a}${: y}".toUTF8
    ∃ text text', run ∅ (.keys (.inline "${a: 1}\n$\x7bb\nc\x7d${: x}${}$\x7ba")) = .ok (text, ∅) ∧
      run files (.keys (.file "t")) = .ok (text', files) ∧
      pieces text = ["a", "", ""] ∧ text = text' := by
  have hk : Template.keys "${a: 1}\n$\x7bb\nc\x7d${: x}${}$\x7ba" = ["a", ""] := by decide +kernel
  have hk' : Template.keys "${a}${: y}" = ["a", ""] := by decide +kernel
  intro files
  have hinline : load ∅ (.inline "${a: 1}\n$\x7bb\nc\x7d${: x}${}$\x7ba") =
    .ok "${a: 1}\n$\x7bb\nc\x7d${: x}${}$\x7ba" := rfl
  have hfile : load files (.file "t") = .ok "${a}${: y}" := rfl
  obtain ⟨text, text', hr, hr', hp, he⟩ := pieces_run_keys hinline hfile
  refine ⟨text, text', hr, hr', ?_, ?_⟩
  · rw [hp, hk]
    rfl
  · rw [he, hk, hk']

end Stencil.Command
