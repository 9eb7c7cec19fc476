import CallResolution.Conversion
import CallResolution.Scope.Chain

namespace CallResolution

variable {α : Type}

/-- How closely the receiver type of a symbol fits the one asked for. A symbol for receivers of no
type in particular fits every query, and less closely than any other. -/
inductive Fit where
  | near (distance : Nat)
  | general
deriving DecidableEq

def Fit.lt : Fit → Fit → Bool
  | .near m, .near n => m < n
  | .near _, .general => true
  | .general, _ => false

/-- The fit of a symbol's receiver type to that of a query, which converts to `types`. Two static
views fit as the types that they stand for. -/
def Registry.receiverFit (r : Registry) (fuel : Nat) (types : List TypeId) :
    (entry query : Option TypeId) → Option (Option Fit)
  | none, _ => some (some .general)
  | some _, none => some none
  | some entry, some query =>
    if entry = query then some (some (.near 0))
    else do
      match ← r.position fuel types query entry with
      | some i => return some (.near i)
      | none =>
        match r.staticTarget? entry, r.staticTarget? query with
        | some entryTarget, some queryTarget =>
          if entryTarget = queryTarget then return some (.near types.length)
          else do
            let wrapped ← r.convertible fuel queryTarget
            let i ← r.position fuel wrapped queryTarget entryTarget
            return i.map fun i ↦ .near (types.length + i)
        | _, _ => return none

def closest {β : Type} : List (Option Fit × β) → Option (Fit × β)
  | [] => none
  | (none, _) :: es => closest es
  | (some f, b) :: es =>
    match closest es with
    | none => some (f, b)
    | some (g, c) => if g.lt f then some (g, c) else some (f, b)

def Scope.closestMatch (r : Registry) (fuel : Nat) (query : SymbolKey) (s : Scope α) :
    Option (Option (SymbolKey × α)) := do
  let types ← match query.receiver with
    | none => some []
    | some t => r.convertible fuel t
  let entries := s.entries.filter fun e ↦ e.1.name == query.name && e.1.kind.covers query.kind
  let fits ← entries.mapM fun e ↦ do
    return (← r.receiverFit fuel types e.1.receiver query.receiver, e)
  return (closest fits).map Prod.snd

def firstMatch (r : Registry) (fuel : Nat) (query : SymbolKey) :
    List (Scope α) → Option (Option (SymbolKey × α))
  | [] => some none
  | s :: ss => do
    match ← s.closestMatch r fuel query with
    | some e => return some e
    | none => firstMatch r fuel query ss

def ScopeChain.closestMatch (r : Registry) (fuel : Nat) (query : SymbolKey) (c : ScopeChain α) :
    Option (Option (SymbolKey × α)) :=
  firstMatch r fuel query c.toList

end CallResolution
