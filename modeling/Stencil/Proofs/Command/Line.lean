import Stencil.Command.Run

namespace Stencil.Command

def Setting.name : Setting → String
  | .template => "template"
  | .inline => "inline"
  | .set => "set"
  | .arg => "arg"
  | .output => "output"

@[simp] theorem Setting.ofName?_name (s : Setting) : ofName? .render s.name = some s := by
  cases s <;> rfl

theorem Setting.not_mem_name (s : Setting) : '=' ∉ s.name.toList := by
  cases s <;> decide

def written (o : Setting × String) : String := "--" ++ o.1.name ++ "=" ++ o.2

def valuesOf (s : Setting) (os : List (Setting × String)) : List String :=
  (os.filter fun o => o.1 = s).map Prod.snd

variable {s : Setting} {value : String} {os : List (Setting × String)}

theorem valuesOf_cons (o : Setting × String) :
    valuesOf s (o :: os) = if o.1 = s then o.2 :: valuesOf s os else valuesOf s os := by
  rw [valuesOf, List.filter_cons]
  split <;> simp_all [valuesOf]

theorem form_written (o : Setting × String) :
    Form.of (written o) = .named o.1.name (some o.2) := by
  have h : (written o).toList = '-' :: '-' :: (o.1.name.toList ++ '=' :: o.2.toList) := by
    simp [written]
  have hsplit := Text.splitOnce?_singleton (b := o.2.toList) o.1.not_mem_name
  cases hcs : o.1.name.toList ++ '=' :: o.2.toList with
  | nil => simp at hcs
  | cons c cs =>
    rw [hcs] at h hsplit
    simp only [Form.of, h, hsplit, String.ofList_toList]

namespace Draft

variable {d : Draft}

theorem read_written (hd : d.pending = none) (o : Setting × String) :
    d.read .render (.named o.1.name (some o.2)) = d.put o.2 o.1 := by
  rw [read, Setting.ofName?_name]
  simp only [offer, settle, hd]
  rfl

theorem pending_put {d' : Draft} (hd : d.pending = none) (h : d.put value s = .ok d') :
    d'.pending = none := by
  cases s with
  | set | arg =>
    cases h
    exact hd
  | template | inline | output =>
    simp only [put, bind, Except.bind] at h
    split at h <;> cases h
    exact hd

theorem readAll_written (hd : d.pending = none) :
    d.readAll .render (os.map written) = os.foldlM (fun d o => d.put o.2 o.1) d := by
  induction os generalizing d with
  | nil => rfl
  | cons o os ih =>
    rw [List.map_cons, readAll, form_written, List.foldlM_cons]
    simp only [read_written hd]
    cases h : d.put o.2 o.1 with
    | error u => rfl
    | ok d' => exact ih (pending_put hd h)

theorem once_of_append (isPath : Bool) {old new : Option String} {rest : List String}
    (h : old.toList ++ value :: rest = new.toList) (hv : isPath → new ≠ some "") :
    once old value isPath = .ok (some value) ∧ value :: rest = new.toList := by
  cases old with
  | some x =>
    cases new <;> simp at h
  | none =>
    cases new with
    | none => simp at h
    | some y =>
      obtain ⟨rfl, rfl⟩ : value = y ∧ rest = [] := by simpa using h
      have hy : (isPath && value.isEmpty) = false := by
        cases isPath with
        | false => rfl
        | true => simpa using hv rfl
      rw [once, if_neg (by simp), hy]
      exact ⟨rfl, rfl⟩

theorem foldlM_put {inline output : Option String} (ht : valuesOf .template os = [])
    (hi : d.inline.toList ++ valuesOf .inline os = inline.toList)
    (ho : d.output.toList ++ valuesOf .output os = output.toList) (hne : output ≠ some "") :
    os.foldlM (fun d o => d.put o.2 o.1) d =
      .ok { d with
        inline := inline
        sets := d.sets ++ valuesOf .set os
        args := d.args ++ valuesOf .arg os
        output := output } := by
  induction os generalizing d with
  | nil =>
    rw [valuesOf, List.filter_nil, List.map_nil, List.append_nil] at hi ho
    have hi : d.inline = inline := by simpa using congrArg List.head? hi
    have ho : d.output = output := by simpa using congrArg List.head? ho
    simp [valuesOf, ← hi, ← ho, pure, Except.pure]
  | cons o os ih =>
    obtain ⟨s, value⟩ := o
    rw [List.foldlM_cons]
    cases s with
    | template => simp [valuesOf_cons] at ht
    | set =>
      refine (ih (d := { d with sets := d.sets ++ [value] }) ht hi ho).trans ?_
      simp [valuesOf_cons]
    | arg =>
      refine (ih (d := { d with args := d.args ++ [value] }) ht hi ho).trans ?_
      simp [valuesOf_cons]
    | inline =>
      obtain ⟨hput, hrest⟩ := once_of_append false hi (by simp)
      simp only [put, hput, bind, Except.bind]
      exact ih ht hrest ho
    | output =>
      obtain ⟨hput, hrest⟩ := once_of_append true ho fun _ => hne
      simp only [put, hput, bind, Except.bind]
      exact ih ht hi hrest

end Draft

variable {text : String} {sets args : List String} {path : Option String}

def options (text : String) (sets args : List String) (path : Option String) :
    List (Setting × String) :=
  (.inline, text) ::
    (sets.map (.set, ·) ++ args.map (.arg, ·) ++ path.toList.map (.output, ·))

/-- The options in any order in which those for entries keep theirs, and those for arguments too. -/
structure InOrder (text : String) (sets args : List String) (path : Option String)
    (os : List (Setting × String)) : Prop where
  perm : os.Perm (options text sets args path)
  valuesOf_set : valuesOf .set os = sets
  valuesOf_arg : valuesOf .arg os = args

theorem valuesOf_append (os ps : List (Setting × String)) :
    valuesOf s (os ++ ps) = valuesOf s os ++ valuesOf s ps := by
  rw [valuesOf, List.filter_append, List.map_append]
  rfl

theorem valuesOf_map (t : Setting) (values : List String) :
    valuesOf s (values.map (t, ·)) = if t = s then values else [] := by
  induction values with
  | nil => simp [valuesOf]
  | cons v vs ih =>
    rw [List.map_cons, valuesOf_cons, ih]
    split <;> rfl

theorem valuesOf_options :
    valuesOf s (options text sets args path) =
      match s with
      | .template => []
      | .inline => [text]
      | .set => sets
      | .arg => args
      | .output => path.toList := by
  cases s <;> simp [options, valuesOf_cons, valuesOf_append, valuesOf_map]

theorem inOrder_options (text : String) (sets args : List String) (path : Option String) :
    InOrder text sets args path (options text sets args path) :=
  ⟨.refl _, valuesOf_options, valuesOf_options⟩

namespace InOrder

variable (h : InOrder text sets args path os)

include h

theorem valuesOf_perm (s : Setting) :
    (valuesOf s os).Perm (valuesOf s (options text sets args path)) :=
  (h.perm.filter _).map _

theorem valuesOf_template : valuesOf .template os = [] :=
  (h.valuesOf_perm .template |>.trans (.of_eq valuesOf_options)).eq_nil

theorem valuesOf_inline : valuesOf .inline os = [text] :=
  List.perm_singleton.1 (h.valuesOf_perm .inline |>.trans (.of_eq valuesOf_options))

theorem valuesOf_output : valuesOf .output os = path.toList := by
  have hp := (h.valuesOf_perm .output).trans (.of_eq valuesOf_options)
  cases path with
  | none => exact hp.eq_nil
  | some path => exact List.perm_singleton.1 hp

theorem ofArguments_eq (hne : path ≠ some "") :
    ofArguments ("render" :: os.map written) = .ok (.render (.inline text) sets args path) := by
  have hread : Draft.readAll .render {} (os.map written) =
      .ok { inline := some text, sets := sets, args := args, output := path } := by
    have hi : (none : Option String).toList ++ valuesOf .inline os = (some text).toList :=
      h.valuesOf_inline
    rw [Draft.readAll_written rfl,
      Draft.foldlM_put (d := {}) h.valuesOf_template hi h.valuesOf_output hne, h.valuesOf_set,
      h.valuesOf_arg]
    rfl
  have hform : Form.of "render" = .word "render" := rfl
  have hverb : Verb.ofName? "render" = some .render := rfl
  rw [ofArguments]
  simp only [hform, hverb, hread, bind, Except.bind]
  rfl

end InOrder

/-- Any text, entries, arguments and path that is not empty reach a rendering by the options for them,
in whatever order these come, as long as entries and arguments keep theirs. So the order makes no
difference to what is printed, to the files or to the failure. -/
theorem ofArguments_render (text : String) (sets args : List String) (path : Option String)
    (hne : path ≠ some "") :
    InOrder text sets args path (options text sets args path) ∧
    ∀ os, InOrder text sets args path os →
      ofArguments ("render" :: os.map written) =
        .ok (.render (.inline text) sets args path) ∧
      ∀ os', InOrder text sets args path os' → ∀ files,
        (ofArguments ("render" :: os.map written)).map (run files) =
          (ofArguments ("render" :: os'.map written)).map (run files) := by
  refine ⟨inOrder_options text sets args path, fun os h => ⟨h.ofArguments_eq hne, ?_⟩⟩
  intro os' h' files
  rw [h.ofArguments_eq hne, h'.ofArguments_eq hne]

theorem ofArguments_render_shuffled :
    ofArguments ["render", "--arg=--set=", "--output=-", "--set==", "--arg=", "--inline=-- $\n",
      "--set="] = .ok (.render (.inline "-- $\n") ["=", ""] ["--set=", ""] (some "-")) := by
  let os : List (Setting × String) := [(.arg, "--set="), (.output, "-"), (.set, "="), (.arg, ""),
    (.inline, "-- $\n"), (.set, "")]
  have h : InOrder "-- $\n" ["=", ""] ["--set=", ""] (some "-") os :=
    ⟨by decide, by decide, by decide⟩
  have := ((ofArguments_render _ _ _ _ (by decide)).2 os h).1
  simpa [os, written, Setting.name] using this

end Stencil.Command
