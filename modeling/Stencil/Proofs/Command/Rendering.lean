import Stencil.Proofs.Files.Written
import Stencil.Proofs.Caches.Reached
import Stencil.Proofs.Command.Entries

namespace Stencil.Command

structure World where
  files : Files
  printed : String

namespace World

def carryOut (w : World) : Effect → Except Failure Unit × World
  | .print text => (.ok (), { w with printed := w.printed ++ text })
  | .write path text =>
    match w.files.write path text with
    | .ok files => (.ok (), { w with files := files })
    | .error f => (.error (.unwritten path f), w)

def run (w : World) (c : Command) : Except Failure Unit × World :=
  match (load w.files c.source).bind c.effect with
  | .error f => (.error f, w)
  | .ok e => w.carryOut e

end World

def result (c : Caches) (sets args : List String) (template : String) : String :=
  if args = [] then (c.render (.ofList (sets.map binding)) template).1
  else (c.renderInOrder template (args.map Value.string)).1

variable {c : Caches} {sets args : List String} {output : Option String} {template : String}

namespace World

variable {w : World} {source : Source}

end World

end Stencil.Command
