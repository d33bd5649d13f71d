import Stencil.Command
import Stencil.Files
import Stencil.Rendering
import Stencil.Text.Quoted
import Stencil.Token.Json

namespace Stencil

namespace Command

inductive Failure
  | badEntry (entry : String)
  | unbound (e : ArgumentError)
  | unread (path : String) (fault : Files.Fault)
  | unwritten (path : String) (fault : Files.Fault)
  deriving DecidableEq

def Failure.message : Failure → String
  | .badEntry entry =>
    let quoted := Text.Quoted.quote entry
    s!"invalid --set entry {quoted}, expected key=value"
  | .unbound e => s!"Failed to build context: {e.message}"
  | .unread path fault =>
    let quoted := Text.Quoted.quote path
    s!"Failed to load template file {quoted}: {fault.message}"
  | .unwritten path fault =>
    let quoted := Text.Quoted.quote path
    s!"Failed to write output to {quoted}: {fault.message}"

def keysAndValues : List String → Except Failure (List Value)
  | [] => .ok []
  | e :: es =>
    match Text.splitOnce? ['='] e.toList with
    | some (key, value) =>
      (keysAndValues es).map fun kvs =>
        .string (String.ofList key) :: .string (String.ofList value) :: kvs
    | none => .error (.badEntry e)

def contextOf (entries : List String) : Except Failure Context := do
  let kvs ← keysAndValues entries
  (Arguments.bindPlain kvs).mapError .unbound

inductive Effect
  | print (text : String)
  | write (path text : String)
  deriving DecidableEq

/-- The rendering of a template: in order if there are arguments, which leave the entries unread,
and else by key. -/
def rendering (sets args : List String) (template : String) : Except Failure String :=
  let c : Caches := default
  if args.isEmpty then do
    let context ← contextOf sets
    return (c.render context template).1
  else .ok (c.renderInOrder template (args.map Value.string)).1

def line (s : String) : String := s ++ "\n"

def effect (template : String) : Command → Except Failure Effect
  | .render _ sets args output => do
    let s ← rendering sets args template
    match output with
    | some path => return .write path s
    | none => return .print (line s)
  | .tokens _ =>
    let json : Json := .array ((Template.tokens template).map Token.toJson)
    .ok (.print (line json.pretty))
  | .keys _ => .ok (.print (String.join ((Template.keys template).map line)))

def source : Command → Source
  | .render s _ _ _ => s
  | .tokens s => s
  | .keys s => s

def load (files : Files) : Source → Except Failure String
  | .inline text => .ok text
  | .file path => (files.text? path).mapError (.unread path)

def Effect.apply (files : Files) : Effect → Except Failure (String × Files)
  | .print text => .ok (text, files)
  | .write path text => do
    let files ← (files.write path text).mapError (.unwritten path)
    return ("", files)

def run (files : Files) (c : Command) : Except Failure (String × Files) := do
  let template ← load files c.source
  (← c.effect template).apply files

end Command

end Stencil
