import Stencil.Dict
import Stencil.Value

namespace Stencil

abbrev Context := Dict Value

namespace Context

def toJson (c : Context) : Json := .object (c.entries.map fun e => (e.1, e.2.json))

def ofMembers (members : List (String × Json)) : Context :=
  .ofList (members.map fun m => (m.1, .ofJson m.2))

def display? (c : Context) (key : String) : Option String := (c.get? key).map Value.display

end Context

end Stencil
