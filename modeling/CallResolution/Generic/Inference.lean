import CallResolution.Conversion
import CallResolution.Registry.Instance

namespace CallResolution.Registry

def onlyOne (test : TypeId → Option Bool) : List TypeId → Option (Option TypeId)
  | [] => some none
  | t :: ts => do
    if ← test t then return if ← ts.anyM test then none else some t
    else onlyOne test ts

/-- The closed instance of `template` that `arg` converts to, if there is only one. -/
def instanceOf (r : Registry) (fuel : Nat) (template arg : TypeId) : Option (Option TypeId) := do
  onlyOne (fun t ↦ do return !(← r.isOpen fuel t) && r.template? t == some template)
    (← r.convertible fuel arg)

/-- What type parameters in `param` have to be for `arg` to fit. -/
def pairTypes (r : Registry) : (fuel : Nat) → (param arg : TypeId) →
    Option (List (TypeId × TypeId))
  | 0, _, _ => none
  | fuel + 1, param, arg =>
    if r.isParam param then some [(param, arg)]
    else do
      if ← r.isOpen fuel param then
        match r.template? param with
        | none => return []
        | some template =>
          match ← r.instanceOf fuel template arg with
          | none => return []
          | some found => do
            let pairs ← ((r.typeArgs param).zip (r.typeArgs found)).mapM fun (p, a) ↦
              r.pairTypes fuel p a
            return pairs.flatten
      else return []

def pairExpr (r : Registry) (fuel : Nat) (param : TypeId) (arg : Expr) :
    Option (List (TypeId × TypeId)) :=
  match arg, r.signature? param with
  | .lambda params body _, some signature => do
    let pairs ← (signature.params.zip params).mapM fun (expected, actual) ↦
      r.pairTypes fuel expected actual.type
    return pairs.flatten ++ (← r.pairTypes fuel signature.result body.type)
  | _, _ => r.pairTypes fuel param arg.type

end CallResolution.Registry

namespace CallResolution

/-- The types that `count` arguments are matched with; the element type of a rest parameter stands
for each argument that it takes. -/
def Method.expectedTypes (r : Registry) (d : Method) (count : Nat) : Option (List TypeId) :=
  if d.isVariadic then do
    let rest ← d.paramTypes.getLast?
    let element ← r.elementType? rest
    let fixed := d.paramTypes.dropLast
    if count < fixed.length then none
    else return fixed ++ List.replicate (count - fixed.length) element
  else some d.paramTypes

def Substitution.bindAll (map : Substitution) : List (TypeId × TypeId) → Option Substitution
  | [] => some map
  | (param, bound) :: pairs =>
    match map.find? param with
    | none => Substitution.bindAll (map.insert param bound) pairs
    | some other => if other = bound then Substitution.bindAll map pairs else none

def Substitution.fits (r : Registry) (fuel : Nat) (map : Substitution) (params : List TypeId) :
    Option Bool :=
  params.allM fun param ↦
    match map.find? param with
    | none => some false
    | some bound => r.satisfies fuel param bound

/-- The type arguments of a generic method that its arguments leave no choice about. -/
def Method.infer (r : Registry) (fuel : Nat) (d : Method) (args : List Expr) :
    Option (Option Substitution) :=
  match d.expectedTypes r args.length with
  | none => some none
  | some types => do
    let pairs ← (types.zip args).mapM fun (param, arg) ↦ r.pairExpr fuel param arg
    match Substitution.bindAll ∅ (pairs.flatten.filter (·.1 ∈ d.typeParams)) with
    | none => return none
    | some map => return if ← map.fits r fuel d.typeParams then some map else none

end CallResolution
