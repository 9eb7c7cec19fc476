import CallResolution.Generic.Inference
import CallResolution.Generic.Specialization
import CallResolution.Overload.Ranking
import CallResolution.Overload.Rest

namespace CallResolution

namespace Registry

def acceptsAll (r : Registry) (fuel : Nat) (types : List TypeId) (args : List Expr) : Option Bool :=
  (types.zip args).allM fun (t, arg) ↦ r.acceptsExpr fuel t arg

end Registry

namespace Candidate

def isApplicable (fuel : Nat) (c : Candidate) : Attempt Registry CompileError Bool :=
  if !c.receiverFits then return false
  else if c.method.isVariadic then do
    let (_, element) ← Attempt.ofExcept (c.method.restElement (← .get))
    let fixed := c.method.paramTypes.dropLast
    if c.args.length < fixed.length then return false
    else
      let rest := List.replicate (c.args.length - fixed.length) element
      .ask (·.acceptsAll fuel (fixed ++ rest) c.args)
  else if c.method.params.length ≠ c.args.length then return false
  else .ask (·.acceptsAll fuel c.method.paramTypes c.args)

def specialize (fuel : Nat) (c : Candidate) (map : Substitution) :
    Attempt Registry CompileError Candidate := do
  return { c with method := ← c.method.specialize fuel map, substitution := map }

/-- Binds explicit type arguments; a candidate that they do not suit is dropped. -/
def bindExplicit (fuel : Nat) (typeArgs : List TypeId) (c : Candidate) :
    Attempt Registry CompileError (Option Candidate) :=
  let params := c.method.typeParams
  if params.length ≠ typeArgs.length then return none
  else do
    let suits ← .ask fun r ↦ (params.zip typeArgs).allM fun (param, arg) ↦ r.satisfies fuel param arg
    if suits then do
      let map ← Attempt.ofExcept (Substitution.ofArgs c.method.name params typeArgs)
      return some (← c.specialize fuel map)
    else return none

def bindTypeArgs (fuel : Nat) (typeArgs : List TypeId) (cs : List Candidate) :
    Attempt Registry CompileError (List Candidate) :=
  if typeArgs.isEmpty then return cs
  else do return (← cs.mapM (bindExplicit fuel typeArgs)).filterMap id

/-- Binds inferred type arguments; a candidate is dropped without them or if they make it
inapplicable. -/
def bindInferred (fuel : Nat) (c : Candidate) :
    Attempt Registry CompileError (Option Candidate) := do
  match ← Attempt.ask fun r ↦ c.method.infer r fuel c.args with
  | none => return none
  | some map => do
    let c ← c.specialize fuel map
    return if ← c.isApplicable fuel then some c else none

def settle (fuel : Nat) (c : Candidate) : Attempt Registry CompileError (Option Candidate) := do
  if ← c.isApplicable fuel then
    if c.method.isUnboundGeneric then c.bindInferred fuel else return some c
  else return none

def pack (c : Candidate) : Attempt Registry CompileError Candidate := do
  if c.method.isVariadic then
    return { c with args := ← Attempt.ofExcept (c.method.packRest (← .get) c.args) }
  else return c

end Candidate

/-- The call that a receiver and arguments select among the methods `members`, if any of them
applies. -/
def dispatch (fuel : Nat) (ambiguity : Ambiguity) (span : Span) (receiver : Option Expr)
    (members : List Method) (typeArgs : List TypeId) (args : List Expr) :
    Attempt Registry CompileError (Option Expr) := do
  let bound ← Candidate.bindTypeArgs fuel typeArgs (members.map (.ofMethod receiver args))
  let settled ← bound.mapM (Candidate.settle fuel)
  let packed ← (settled.filterMap id).mapM Candidate.pack
  let r ← .get
  match ← Attempt.ofExcept (Candidate.best r ambiguity span packed) with
  | none => return none
  | some c => return some (c.emit r)

end CallResolution
