import CallResolution.CallKind
import CallResolution.Literal
import CallResolution.Member
import CallResolution.Span

namespace CallResolution

/-- A form of the source, before its symbols are resolved. -/
inductive Node where
  | literal (value : Literal) (span : Span)
  | symbol (name : String) (span : Span)
  | call (kind : CallKind) (name : String) (typeArgs : List TypeId) (receiver : Option Node)
      (args : List Node) (span : Span)
  | lambda (params : List Param) (body : Node) (span : Span)

namespace Node

def span : Node → Span
  | literal _ s | symbol _ s | call _ _ _ _ _ s | lambda _ _ s => s

def mkCall (kind : CallKind) (name : String) (typeArgs : List TypeId) (receiver : Option Node)
    (args : List Node) (span : Span) : Node :=
  call { kind with generic := kind.generic || !typeArgs.isEmpty } name typeArgs receiver args span

end Node

/-- The parameter that a name means within lambdas, which are given by their parameters, the nearest first. -/
def bound? (around : List (List Param)) (name : String) : Option Param :=
  around.findSome? fun params ↦ params.find? (·.name == name)

end CallResolution
