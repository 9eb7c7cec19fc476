import CallResolution.Bindings
import CallResolution.Reduction.Reduce
import CallResolution.Registry.Builtin

namespace CallResolution

/-- The types and the root symbols that forms are compiled against. It takes registrations until it
is sealed. -/
structure Environment where
  types : Registry := .builtin
  pending : Option Bindings := some (({} : Bindings).addLiveMembers)
  root : Option (Scope Definition) := none
  options : Options := {}

namespace Environment

variable {α : Type}

abbrev Action (α : Type) := Attempt Environment EnvironmentError α

def isSealed (e : Environment) : Bool := e.root.isSome

def requireUnsealed : Action Unit := do
  if (← .get).isSealed then .fail .alreadySealed else return ()

def onPending (f : Bindings → Bindings) : Action Unit := do
  match (← .get).pending with
  | none => .fail .alreadySealed
  | some b => .modify ({ · with pending := some (f b) })

def onTypes (x : Attempt Registry RegistrationError α) : Action α :=
  Attempt.mapError .registration
    (Attempt.within Environment.types (fun r e ↦ { e with types := r }) x)

def registerType (d : TypeDecl) : Action TypeId := do
  requireUnsealed
  let id ← onTypes (Registry.register d)
  onPending (·.addType d.name id)
  return id

def registerExtension (m : Method) : Action Unit := do
  requireUnsealed
  .modify fun e ↦ { e with types := e.types.addExtension m }

def registerFunction (name : String) (overloads : List Method) : Action Unit :=
  onPending (·.addFunction name overloads)

def register (k : SymbolKey) (d : Definition) : Action Unit := onPending (·.add k d)

def sealRoot : Action Unit := do
  match (← .get).pending with
  | none => return ()
  | some b => do
    .modify ({ · with pending := none })
    let root ← Attempt.mapError .symbol (.ofExcept b.install)
    .modify ({ · with root := some root })

/-- Runs a reduction against the root scope. The types that it makes are kept. -/
def reduceWith (x : Reduction α) : Action α := do
  let e ← .get
  match e.root with
  | none => .fail .notSealed
  | some root =>
    Attempt.mapError .compilation <|
      Attempt.within (fun e : Environment ↦ (⟨e.types, ⟨root, []⟩, e.options⟩ : Reducer))
        (fun s e ↦ { e with types := s.types }) x

def compile (fuel : Nat) (node : Node) : Action Expr := reduceWith (Reduction.reduce fuel node)

end Environment

end CallResolution
