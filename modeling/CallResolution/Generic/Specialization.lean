import CallResolution.Registry.Instance

namespace CallResolution

def Substitution.ofArgs (name : String) (params args : List TypeId) :
    Except CompileError Substitution :=
  if params.length ≠ args.length then
    .error (.registration (.typeArgCount name params.length args.length))
  else .ok (.ofList (params.zip args))

/-- The method with its type parameters replaced. Each choice of arguments has its own identity. -/
def Method.specialize (fuel : Nat) (d : Method) (map : Substitution) :
    Attempt Registry CompileError Method :=
  match d.typeParams.mapM map.find? with
  | none =>
    .fail (.internal ("generic parameter of '" ++ d.name ++ "' left unbound during specialization"))
  | some args => do
    let replaced ← Attempt.mapError .registration (d.mapTypes (Registry.substitute fuel map))
    return { replaced with id := .ofInstance d.id args, typeArgs := args }

end CallResolution
