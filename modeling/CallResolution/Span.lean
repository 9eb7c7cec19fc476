namespace CallResolution

/-- A stretch of source text. Lines count from one, so line zero is no known place. -/
structure Span where
  line : Nat := 0
  column : Nat := 0
  length : Nat := 0
deriving DecidableEq

namespace Span

def unknown : Span := {}

def isEmpty (s : Span) : Bool := s.length == 0

def isKnown (s : Span) : Bool := s.line != 0

def render (s : Span) : String :=
  if s.isKnown then toString s.line ++ ":" ++ toString s.column else "?"

end Span

end CallResolution
