import CallResolution.Expr
import CallResolution.Registry.Basic

namespace CallResolution.Registry

/-! Every walk below follows links of the registry to the nesting depth `fuel` and has no answer
beyond it. Bases and contracts stop at a type that has been seen; circles among type arguments,
templates or bounds leave a walk without an answer at any depth. -/

/-- The type is a type parameter or mentions one among its arguments. -/
def isOpen (r : Registry) : (fuel : Nat) → TypeId → Option Bool
  | 0, _ => none
  | fuel + 1, t => if r.isParam t then some true else (r.typeArgs t).anyM (r.isOpen fuel)

/-- An open instance stands for its template. -/
def normalize (r : Registry) (fuel : Nat) (t : TypeId) : Option TypeId :=
  match r.template? t with
  | none => some t
  | some template => do return if ← r.isOpen fuel t then template else t

def baseChain (r : Registry) : (fuel : Nat) → (seen : List TypeId) → (base : Option TypeId) →
    Option (List TypeId)
  | _, _, none => some []
  | 0, _, some _ => none
  | fuel + 1, seen, some t =>
    if t ∈ seen then some []
    else do return t :: (← r.baseChain fuel (seen ++ [t]) (r.base? t))

def visitContract (r : Registry) : (fuel : Nat) → (seen : List TypeId) → TypeId →
    Option (List TypeId)
  | 0, _, _ => none
  | fuel + 1, seen, t =>
    if t ∈ seen then some seen
    else (r.interfaces t).foldlM (r.visitContract fuel) (seen ++ [t])

def appendNew (seen : List TypeId) (t : TypeId) : List TypeId :=
  if t ∈ seen then seen else seen ++ [t]

/-- Appends what `t` converts to: itself, its bases, their contracts, `object` for an interface,
and what its template converts to unless `t` is open. -/
def visitConvertible (r : Registry) : (fuel : Nat) → (seen : List TypeId) → TypeId →
    Option (List TypeId)
  | 0, _, _ => none
  | fuel + 1, seen, t => do
    let self := if t ∈ seen then [] else [t]
    let chain := self ++ (← r.baseChain fuel (seen ++ self) (r.base? t))
    let visited ← (chain.flatMap r.interfaces).foldlM (r.visitContract fuel) (seen ++ chain)
    let visited := if r.isInterface t then appendNew visited .object else visited
    match r.template? t with
    | none => return visited
    | some template =>
      if ← r.isOpen fuel t then return visited else r.visitConvertible fuel visited template

def convertible (r : Registry) (fuel : Nat) (t : TypeId) : Option (List TypeId) :=
  r.visitConvertible fuel [] t

def meetsConstraints (r : Registry) (c : Constraints) (arg : TypeId) : Bool :=
  (!c.defaultConstructor || r.hasDefaultConstructor arg) &&
    (!c.referenceType || !r.isValueType arg) && (!c.valueType || r.isValueType arg)

mutual

def satisfies (r : Registry) : (fuel : Nat) → (param arg : TypeId) → Option Bool
  | 0, _, _ => none
  | fuel + 1, param, arg =>
    match r.paramInfo? param with
    | none => some false
    | some info =>
      if r.meetsConstraints info.constraints arg then
        (info.bounds.filter (· ≠ param)).allM (r.accepts fuel · arg)
      else some false

def accepts (r : Registry) : (fuel : Nat) → (param arg : TypeId) → Option Bool
  | 0, _, _ => none
  | fuel + 1, param, arg =>
    if param = arg then some true
    else if r.isParam param then r.satisfies fuel param arg
    else do
      let target ← r.normalize fuel param
      let types ← r.convertible fuel arg
      types.anyM fun t ↦ if t = param then some true else do return (← r.normalize fuel t) == target

end

/-- Where `target` stands among the types `types` that `t` converts to; after all of them if `t`
is accepted for it in another way. -/
def position (r : Registry) (fuel : Nat) (types : List TypeId) (t target : TypeId) :
    Option (Option Nat) :=
  match types.idxOf? target with
  | some i => some (some i)
  | none => do return if ← r.accepts fuel target t then some types.length else none

def acceptsExpr (r : Registry) (fuel : Nat) (param : TypeId) (arg : Expr) : Option Bool :=
  match arg, r.signature? param with
  | .lambda params body _, some signature =>
    if signature.params.length ≠ params.length then some false
    else do
      let matched ← (signature.params.zip params).allM fun (expected, actual) ↦
        if expected = actual.type then some true
        else if r.isParam expected then r.accepts fuel expected actual.type
        else some false
      if matched then r.accepts fuel signature.result body.type else return false
  | _, _ => r.accepts fuel param arg.type

end CallResolution.Registry
