import Stencil.Text.Search

namespace Stencil

inductive Source
  | file (path : String)
  | inline (text : String)
  deriving DecidableEq

inductive Command
  | render (source : Source) (sets args : List String) (output : Option String)
  | tokens (source : Source)
  | keys (source : Source)
  deriving DecidableEq

namespace Command

inductive Usage
  | nothingGiven
  | helpWanted
  | versionWanted
  | unknownCommand
  | unexpectedArgument
  | unexpectedValue
  | missingValue
  | missingSource
  | conflict
  deriving DecidableEq

inductive Verb
  | render
  | tokens
  | keys
  deriving DecidableEq

def Verb.ofName? (name : String) : Option Verb :=
  if name = "render" then some .render
  else if name = "tokens" then some .tokens
  else if name = "keys" then some .keys
  else none

def helpName : String := "help"

inductive Setting
  | template
  | inline
  | set
  | arg
  | output
  deriving DecidableEq

namespace Setting

def isFor : Verb → Setting → Bool
  | .render, _ => true
  | _, .template => true
  | _, .inline => true
  | _, _ => false

def ofName? (verb : Verb) (name : String) : Option Setting :=
  let found : Option Setting :=
    if name = "template" then some .template
    else if name = "inline" then some .inline
    else if name = "set" then some .set
    else if name = "arg" then some .arg
    else if name = "output" then some .output
    else none
  found.filter (isFor verb)

def ofLetter? (verb : Verb) (letter : Char) : Option Setting :=
  let found : Option Setting :=
    if letter = 't' then some .template
    else if letter = 'i' then some .inline
    else if letter = 'o' then some .output
    else none
  found.filter (isFor verb)

end Setting

inductive Form
  | escape
  | named (name : String) (value : Option String)
  | letters (first : Char) (rest : List Char)
  | word (text : String)

def Form.of (argument : String) : Form :=
  match argument.toList with
  | ['-', '-'] => .escape
  | '-' :: '-' :: cs =>
    match Text.splitOnce? ['='] cs with
    | some (name, value) => .named (String.ofList name) (some (String.ofList value))
    | none => .named (String.ofList cs) none
  | '-' :: c :: cs => .letters c cs
  | _ => .word argument

/-- What was read so far. The last option may wait for its value, and it takes effect only when the
next one begins. -/
structure Draft where
  template : Option String := none
  inline : Option String := none
  sets : List String := []
  args : List String := []
  output : Option String := none
  pending : Option (Setting × Option String) := none

namespace Draft

def once (old : Option String) (value : String) (isPath : Bool) : Except Usage (Option String) :=
  if old.isSome then .error .conflict
  else if isPath && value.isEmpty then .error .missingValue
  else .ok (some value)

def put (d : Draft) (value : String) : Setting → Except Usage Draft
  | .template => do return { d with template := ← once d.template value true }
  | .inline => do return { d with inline := ← once d.inline value false }
  | .set => .ok { d with sets := d.sets ++ [value] }
  | .arg => .ok { d with args := d.args ++ [value] }
  | .output => do return { d with output := ← once d.output value true }

def settle (d : Draft) : Except Usage Draft :=
  match d.pending with
  | none => .ok d
  | some (_, none) => .error .missingValue
  | some (s, some value) => { d with pending := none }.put value s

def offer (d : Draft) (s : Setting) (attached : Option String) : Except Usage Draft := do
  let d ← d.settle
  match attached with
  | some value => d.put value s
  | none => return { d with pending := some (s, none) }

def attachedTo : List Char → Option String
  | [] => none
  | '=' :: cs => some (String.ofList cs)
  | cs => some (String.ofList cs)

def help (d : Draft) : Except Usage Draft := do
  let _ ← d.settle
  .error .helpWanted

def read (verb : Verb) (d : Draft) : Form → Except Usage Draft
  | .escape => .ok d
  | .named name value =>
    match Setting.ofName? verb name with
    | some s => d.offer s value
    | none =>
      if name = helpName then if value.isSome then .error .unexpectedValue else d.help
      else .error .unexpectedArgument
  | .letters first rest =>
    match Setting.ofLetter? verb first with
    | some s => d.offer s (attachedTo rest)
    | none => if first = 'h' then d.help else .error .unexpectedArgument
  | .word text =>
    match d.pending with
    | some (s, none) => .ok { d with pending := some (s, some text) }
    | _ => .error .unexpectedArgument

def readAll (verb : Verb) (d : Draft) : List String → Except Usage Draft
  | [] => .ok d
  | a :: rest =>
    match Form.of a with
    | .escape => if rest.isEmpty then .ok d else .error .unexpectedArgument
    | form => do readAll verb (← d.read verb form) rest

def source (d : Draft) : Except Usage Source :=
  match d.template, d.inline with
  | some _, some _ => .error .conflict
  | some path, none => .ok (.file path)
  | none, some text => .ok (.inline text)
  | none, none => .error .missingSource

def command (d : Draft) (verb : Verb) : Except Usage Command := do
  let d ← d.settle
  let source ← d.source
  match verb with
  | .render => return .render source d.sets d.args d.output
  | .tokens => return .tokens source
  | .keys => return .keys source

end Draft

def helpFor : List String → Usage
  | [] => .helpWanted
  | [name] =>
    if (Verb.ofName? name).isSome || name = helpName then .helpWanted else .unknownCommand
  | _ => .unknownCommand

def afterEscape : List String → Usage
  | [] => .nothingGiven
  | name :: _ =>
    if (Verb.ofName? name).isSome || name = helpName then .unexpectedArgument else .unknownCommand

def ofArguments : List String → Except Usage Command
  | [] => .error .nothingGiven
  | a :: rest =>
    match Form.of a with
    | .escape => .error (afterEscape rest)
    | .named name value =>
      if name = helpName then .error (if value.isSome then .unexpectedValue else .helpWanted)
      else if name = "version" then
        .error (if value.isSome then .unexpectedValue else .versionWanted)
      else .error .unexpectedArgument
    | .letters first _ =>
      if first = 'h' then .error .helpWanted
      else if first = 'V' then .error .versionWanted
      else .error .unexpectedArgument
    | .word name =>
      match Verb.ofName? name with
      | some verb => do (← Draft.readAll verb {} rest).command verb
      | none => if name = helpName then .error (helpFor rest) else .error .unknownCommand

end Command

end Stencil
