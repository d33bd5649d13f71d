import Stencil.Template.Chunk
import Stencil.Token

namespace Stencil.Template

def delimiter : List Char := [':', ' ']

/-- The key of a placeholder, and the text that stands in for its value: the default, or without one
the placeholder itself. -/
def keyAndFallback (inner : List Char) : List Char × List Char :=
  (Text.splitOnce? delimiter inner).getD (inner, enclose inner)

def Chunk.token (start : Nat) (k : Chunk) : Token :=
  let span : Span := ⟨start, start + Text.width k.source⟩
  match k with
  | .plain s => .literal (String.ofList s) span
  | .dollar s => .literal (String.ofList (s ++ ['$'])) span
  | .hole inner =>
    let (key, fallback) := keyAndFallback inner
    .placeholder (String.ofList key) (String.ofList fallback) span

@[simp] theorem Chunk.span_token (start : Nat) (k : Chunk) :
    (k.token start).span = ⟨start, start + Text.width k.source⟩ := by
  cases k <;> rfl

def tokensFrom (start : Nat) : List Chunk → List Token
  | [] => []
  | k :: ks => k.token start :: tokensFrom (start + Text.width k.source) ks

def tokens (template : String) : List Token := tokensFrom 0 (chunks template.toList)

def keys (template : String) : List String := (tokens template).filterMap Token.key?

end Stencil.Template
