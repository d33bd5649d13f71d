import Stencil.Dict
import Stencil.Path

namespace Stencil

/-- Files and directories of a whole tree, with a working directory, which is there as well as all those
above it. Directories and the working one are given by the names that lead to them from the root. A file
goes by its path from the working directory if it lies in it, and else from the root. -/
structure Files where
  contents : Dict ByteArray
  directories : List (List String)
  working : List String

namespace Files

instance : EmptyCollection Files := ⟨⟨∅, [], []⟩⟩

def nameOf (files : Files) (names : List String) : String :=
  if files.working.isPrefixOf names then "/".intercalate (names.drop files.working.length)
  else "/" ++ "/".intercalate names

def isDirectory (files : Files) (names : List String) : Bool :=
  names.isPrefixOf files.working || files.directories.contains names

def directoriesTo (name : String) : List (List String) :=
  let names := (name.toList.splitOn '/').map String.ofList
  ((List.range names.length).drop 1).map names.take

/-- Files in a working directory with the empty name, which no path has on its way. -/
def ofList (es : List (String × ByteArray)) : Files :=
  ⟨.ofList es, es.flatMap fun e => (directoriesTo e.1).map ("" :: ·), [""]⟩

inductive Fault
  | notFound
  | notDirectory
  | isDirectory
  | nameTooLong
  | zeroInName
  | notText
  deriving DecidableEq

def Fault.message : Fault → String
  | .notFound => "No such file or directory (os error 2)"
  | .notDirectory => "Not a directory (os error 20)"
  | .isDirectory => "Is a directory (os error 21)"
  | .nameTooLong => "File name too long (os error 36)"
  | .zeroInName => "file name contained an unexpected NUL byte"
  | .notText => "stream did not contain valid UTF-8"

def nameLimit : Nat := 255

def pathLimit : Nat := 4095

def path? (s : String) : Except Fault Path :=
  if s.toList.contains '\x00' then .error .zeroInName
  else if s.isEmpty then .error .notFound
  else if pathLimit < s.utf8ByteSize then .error .nameTooLong
  else .ok (.ofString s)

/-- What stands at a place. A place is vacant if a file could be made there. -/
inductive Found
  | directory (names : List String)
  | file (name : String) (bytes : ByteArray)
  | vacant (name : String)

def find (files : Files) (names : List String) : Step → Except Fault Found
  | .stay => .ok (.directory names)
  | .up => .ok (.directory names.dropLast)
  | .down name =>
    let names := names ++ [name]
    if nameLimit < name.utf8ByteSize then .error .nameTooLong
    else if files.isDirectory names then .ok (.directory names)
    else
      match files.contents.get? (files.nameOf names) with
      | some bytes => .ok (.file (files.nameOf names) bytes)
      | none => .ok (.vacant (files.nameOf names))

def enter (files : Files) (names : List String) (s : Step) : Except Fault (List String) := do
  match ← files.find names s with
  | .directory names => return names
  | .file _ _ => throw .notDirectory
  | .vacant _ => throw .notFound

def walk (files : Files) (p : Path) : Except Fault (List String) :=
  p.way.foldlM files.enter (if p.rooted then [] else files.working)

def bytes? (files : Files) (path : String) : Except Fault ByteArray := do
  let p ← path? path
  match ← files.find (← files.walk p) p.last with
  | .directory _ => throw .isDirectory
  | .vacant _ => throw .notFound
  | .file _ bytes => if p.slash then throw .notDirectory else return bytes

def textOf (bytes : ByteArray) : Except Fault String :=
  match String.fromUTF8? bytes with
  | some s => .ok s
  | none => .error .notText

def text? (files : Files) (path : String) : Except Fault String := do textOf (← files.bytes? path)

def put (files : Files) (name : String) (bytes : ByteArray) : Files :=
  { files with contents := files.contents.insert name bytes }

/-- The name of the file that writing to a path binds. -/
def target? (files : Files) (path : String) : Except Fault String := do
  let p ← path? path
  let names ← files.walk p
  if p.namesDirectory then throw .isDirectory
  match ← files.find names p.last with
  | .directory _ => throw .isDirectory
  | .file name _ | .vacant name => return name

def write (files : Files) (path text : String) : Except Fault Files :=
  (files.target? path).map fun name => files.put name text.toUTF8

end Files

end Stencil
