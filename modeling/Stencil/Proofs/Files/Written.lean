import Stencil.Except
import Stencil.Files

namespace Stencil.Files

def Found.put (name : String) (bytes : ByteArray) : Found → Found
  | .directory names => .directory names
  | .file n old => .file n (if n = name then bytes else old)
  | .vacant n => if n = name then .file n bytes else .vacant n

variable {files files' : Files} {names names' : List String} {s : Step} {p : Path} {r : Found}
  {path text name : String} {bytes : ByteArray}

namespace Leads

end Leads

end Stencil.Files
