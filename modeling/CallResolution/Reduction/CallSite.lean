import CallResolution.Overload.Dispatch
import CallResolution.Reduction.State

namespace CallResolution.Reduction

/-- The use of a symbol: its receiver is reduced, its arguments are reduced on demand. -/
structure CallSite where
  kind : CallKind
  name : String
  typeArgs : List TypeId := []
  span : Span
  receiver : Option Expr := none
  args : List (Reduction Expr) := []

namespace CallSite

def reduceArgs (site : CallSite) : Reduction (List Expr) := site.args.mapM id

def wants (site : CallSite) (flag : CallKind → Bool) : Bool := site.kind.isUnknown || flag site.kind

end CallSite

def describeArgs (args : List Expr) : Reduction String := do
  return (← .get).types.describeAll (args.map Expr.type)

def dispatchAt (fuel : Nat) (site : CallSite) (receiver : Option Expr) (members : List Method)
    (args : List Expr) : Reduction (Option Expr) := do
  let options := (← .get).options
  onTypes (dispatch fuel options.ambiguity site.span receiver members site.typeArgs args)

def callOverload (fuel : Nat) (site : CallSite) (receiver : Option Expr)
    (overloads : List Method) : Reduction Expr := do
  let args ← site.reduceArgs
  let described ← describeArgs args
  match ← dispatchAt fuel site receiver overloads args with
  | some e => return e
  | none => .fail (.noMatchingOverload site.name described site.span)

end CallResolution.Reduction
