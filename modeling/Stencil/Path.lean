namespace Stencil

inductive Step
  | stay
  | up
  | down (name : String)
  deriving DecidableEq

def Step.ofPart (part : List Char) : Step :=
  if part = ['.'] then .stay
  else if part = ['.', '.'] then .up
  else .down (String.ofList part)

/-- The directories on the way, and the last step, which need not lead to one. -/
structure Path where
  rooted : Bool
  way : List Step
  last : Step
  slash : Bool
  deriving DecidableEq

def Path.ofString (s : String) : Path :=
  let cs := s.toList
  let steps := ((cs.splitOn '/').filter (· ≠ [])).map Step.ofPart
  ⟨cs.head? = some '/', steps.dropLast, steps.getLastD .stay, cs.getLast? = some '/'⟩

def Path.namesDirectory (p : Path) : Bool :=
  match p.last with
  | .down _ => p.slash
  | _ => false

end Stencil
