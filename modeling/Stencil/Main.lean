import Stencil.Command.Run

namespace Stencil.Main

def faultAt? (code : UInt32) : Option Files.Fault :=
  match min code (-code) with
  | 2 => some .notFound
  | 20 => some .notDirectory
  | 21 => some .isDirectory
  | 36 => some .nameTooLong
  | _ => none

def faultOf (e : IO.Error) : IO Files.Fault :=
  let fault? :=
    match e with
    | .noFileOrDirectory _ code _ => faultAt? code
    | .inappropriateType _ code _ => faultAt? code
    | .invalidArgument _ code _ => faultAt? code
    | _ => none
  match fault? with
  | some f => return f
  | none => throw e

def load : Source → IO (Except Command.Failure String)
  | .inline text => return .ok text
  | .file path => do
    try
      let bytes ← IO.FS.readBinFile path
      return (Files.textOf bytes).mapError (.unread path)
    catch e => return .error (.unread path (← faultOf e))

def carryOut : Command.Effect → IO (Except Command.Failure Unit)
  | .print text => return .ok (← IO.print text)
  | .write path text => do
    try
      IO.FS.writeFile path text
      return .ok ()
    catch e => return .error (.unwritten path (← faultOf e))

def runCommand (c : Command) : IO (Except Command.Failure Unit) := do
  match (← load c.source).bind c.effect with
  | .error f => return .error f
  | .ok e => carryOut e

def usage : String :=
  "Usage: stencil render|tokens|keys (--template <path>|--inline <text>) " ++
    "[--set <key=value>]... [--arg <value>]... [--output <path>]"

def version : String := "stencil 0.1.0"

end Stencil.Main

def main (arguments : List String) : IO UInt32 := do
  match Stencil.Command.ofArguments arguments with
  | .ok c =>
    match ← Stencil.Main.runCommand c with
    | .ok () => return 0
    | .error f =>
      IO.eprintln s!"Error: {f.message}"
      return 1
  | .error .helpWanted =>
    IO.println Stencil.Main.usage
    return 0
  | .error .versionWanted =>
    IO.println Stencil.Main.version
    return 0
  | .error _ =>
    IO.eprintln Stencil.Main.usage
    return 2
