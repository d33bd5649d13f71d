import Stencil.Text.Offset

namespace Stencil

/-- The bytes from `start` on and before `stop`. -/
structure Span where
  start : Nat
  stop : Nat
  deriving DecidableEq, Inhabited

inductive Token
  | literal (text : String) (span : Span)
  | placeholder (key fallback : String) (span : Span)
  deriving DecidableEq, Inhabited

namespace Token

def span : Token → Span
  | .literal _ s => s
  | .placeholder _ _ s => s

def key? : Token → Option String
  | .literal _ _ => none
  | .placeholder k _ _ => some k

def isPlaceholder (t : Token) : Bool := t.key?.isSome

def source (template : String) (t : Token) : String :=
  match Text.between? t.span.start t.span.stop template.toList with
  | some cs => String.ofList cs
  | none => ""

theorem source_eq {template : String} {t : Token} {a b : List Char} {s : String}
    (h : template.toList = a ++ s.toList ++ b) (hs : t.span.start = Text.width a)
    (he : t.span.stop = Text.width a + Text.width s.toList) : t.source template = s := by
  have : Text.between? t.span.start t.span.stop template.toList = some s.toList :=
    Text.between?_eq_some_iff.2 ⟨a, b, h, hs.symm, he.symm⟩
  simp [source, this]

end Token

end Stencil
