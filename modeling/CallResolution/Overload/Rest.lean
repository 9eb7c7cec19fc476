import CallResolution.Overload.Candidate

namespace CallResolution

def Method.restElement (r : Registry) (d : Method) : Except CompileError (TypeId × TypeId) :=
  match d.params.getLast? with
  | none => .error (.internal ("variadic '" ++ d.name ++ "' declares no parameters"))
  | some rest =>
    match r.elementType? rest.type with
    | none =>
      .error (.internal
        ("variadic '" ++ d.name ++ "' has a non-array rest parameter '" ++ rest.name ++ "'"))
    | some element => .ok (rest.type, element)

/-- Collects the arguments past the fixed parameters in one array, each converted to its element
type. -/
def Method.packRest (r : Registry) (d : Method) (args : List Expr) :
    Except CompileError (List Expr) := do
  let (array, element) ← d.restElement r
  let fixed := d.params.length - 1
  if args.length < fixed then
    .error (.internal ("variadic '" ++ d.name ++ "' packed with " ++ toString args.length ++
      " argument(s), needs at least " ++ toString fixed))
  else
    let items := (args.drop fixed).map fun item ↦ (r.coerce element item).convertTo element
    return args.take fixed ++ [.newArray element items array]

end CallResolution
