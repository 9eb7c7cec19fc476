import CallResolution.Expr
import CallResolution.Registry.Instance

namespace CallResolution

structure Candidate where
  receiver : Option Expr
  method : Method
  substitution : Substitution := ∅
  args : List Expr
  isExtension : Bool

/-- An extension method takes the receiver as its first argument. -/
def Candidate.ofMethod (receiver : Option Expr) (args : List Expr) (d : Method) : Candidate :=
  if d.isExtension then
    { receiver := none, method := d, args := receiver.toList ++ args, isExtension := true }
  else { receiver := receiver, method := d, args := args, isExtension := false }

def Candidate.receiverFits (c : Candidate) : Bool :=
  match c.method.kind with
  | .instanceMethod => c.receiver.isSome
  | .staticMethod | .constructor => c.receiver.isNone

def Registry.coerce (r : Registry) (param : TypeId) (arg : Expr) : Expr :=
  if arg.isLambda && (r.signature? param).isSome then arg.bindLambda param else arg

def Candidate.emit (r : Registry) (c : Candidate) : Expr :=
  let args := (c.args.zip c.method.params).map fun (arg, param) ↦ r.coerce param.type arg
  if c.method.isConstructor then .new c.method args c.method.result
  else .call c.receiver c.method args c.method.result

end CallResolution
