import CallResolution.Attempt
import CallResolution.Definition
import CallResolution.Overload.Ranking
import CallResolution.Scope.Chain

namespace CallResolution

structure Options where
  ambiguity : Ambiguity := .firstWins
  /-- How many scopes may be nested in the root. -/
  maxDepth : Nat := 256
deriving DecidableEq

structure Reducer where
  types : Registry
  scopes : ScopeChain Definition
  options : Options := {}

abbrev Reduction (α : Type) := Attempt Reducer CompileError α

namespace Reduction

variable {α : Type}

def onTypes (x : Attempt Registry CompileError α) : Reduction α :=
  Attempt.within Reducer.types (fun r s ↦ { s with types := r }) x

def setScopes (c : ScopeChain Definition) : Reduction Unit := .modify ({ · with scopes := c })

def checkDepth (span : Span) : Reduction Unit := do
  let s ← .get
  if s.options.maxDepth < s.scopes.depth + 1 then .fail (.scopeTooDeep s.options.maxDepth span)
  else return ()

def push (span : Span) : Reduction Unit := do
  checkDepth span
  setScopes ((← .get).scopes.enter {})

def pushWith (entries : List (SymbolKey × Definition)) (span : Span) : Reduction Unit := do
  checkDepth span
  let c := (← .get).scopes
  let s ← Attempt.mapError .symbol (.ofExcept (c.childScope entries))
  setScopes (c.enter s)

def pop : Reduction Unit := do
  match (← .get).scopes.leave? with
  | none => .fail (.internal "cannot leave the root scope")
  | some c => setScopes c

/-- Runs `body` in a scope of its own, which is left also after an error. -/
def inScope (span : Span) (body : Reduction α) : Reduction α := do
  push span
  Attempt.ensuring body pop

def define (k : SymbolKey) (d : Definition) : Reduction Unit := do
  let c := (← .get).scopes
  let inner ← Attempt.mapError .symbol (.ofExcept (c.inner.add k d))
  setScopes { c with inner := inner }

end Reduction

end CallResolution
