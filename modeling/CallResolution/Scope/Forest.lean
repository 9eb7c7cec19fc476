import CallResolution.Attempt
import CallResolution.Scope.Chain

namespace CallResolution

variable {α : Type}

/-- What can be asked of scopes that share the scopes around them. Each goes by its number in the order
of creation. -/
inductive Request (α : Type) where
  | root
  | child (parent : Nat)
  | childWith (parent : Nat) (entries : List (SymbolKey × α))
  | add (n : Nat) (k : SymbolKey) (a : α)
  | remove (n : Nat) (k : SymbolKey)
  | clear (n : Nat)
  | freeze (n : Nat)
  | digest (n : Nat)

inductive Reply where
  | created (n : Nat)
  | changed
  | removed (found : Bool)
  | digest (value : UInt64)
deriving DecidableEq

/-- Scopes that share the scopes around them. Each knows the numbers of its enclosing scopes, the
nearest first. -/
structure ScopeForest (α : Type) where
  scopes : List (Scope α × List Nat) := []

namespace ScopeForest

abbrev Action (α β : Type) := Attempt (ScopeForest α) SymbolError β

def scope? (f : ScopeForest α) (n : Nat) : Option (Scope α) := (f.scopes[n]?).map Prod.fst

def outer? (f : ScopeForest α) (n : Nat) : Option (List Nat) := (f.scopes[n]?).map Prod.snd

def parent? (f : ScopeForest α) (n : Nat) : Option Nat := (f.outer? n).bind (·.head?)

def chain? (f : ScopeForest α) (n : Nat) : Option (ScopeChain α) := do
  let (inner, outer) ← f.scopes[n]?
  return ⟨inner, outer.filterMap f.scope?⟩

def push (s : Scope α) (outer : List Nat) : Action α Reply := do
  let f ← .get
  .modify fun f ↦ ⟨f.scopes ++ [(s, outer)]⟩
  return .created f.scopes.length

def onScope (n : Nat) (act : Scope α → Except SymbolError (Reply × Scope α)) : Action α Reply := do
  let (s, outer) ← .ask (·.scopes[n]?)
  let (reply, s) ← .ofExcept (act s)
  .modify fun f ↦ ⟨f.scopes.set n (s, outer)⟩
  return reply

variable [BEq α]

def perform : Request α → Action α Reply
  | .root => push {} []
  | .child n => do
    let outer ← .ask (·.outer? n)
    push {} (n :: outer)
  | .childWith n entries => do
    let outer ← .ask (·.outer? n)
    let c ← .ask (·.chain? n)
    let s ← .ofExcept (c.childScope entries)
    push s (n :: outer)
  | .add n k a => onScope n fun s ↦ do return (.changed, ← s.add k a)
  | .remove n k => onScope n fun s ↦ do
    let (found, s) ← s.remove k
    return (.removed found, s)
  | .clear n => onScope n fun s ↦ do return (.changed, ← s.clear)
  | .freeze n => onScope n fun s ↦ return (.changed, s.freeze)
  | .digest n => do
    let c ← .ask (·.chain? n)
    return .digest c.digest

end ScopeForest

end CallResolution
