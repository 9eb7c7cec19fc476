import CallResolution.Registry.Basic

namespace CallResolution

abbrev Substitution := Dictionary TypeId TypeId

namespace Registry

/-- The type of `target` used as a value. -/
def staticWrapper (target : TypeId) : Attempt Registry RegistrationError TypeId := do
  let r ← .get
  let id := TypeId.ofStatic target
  if r.contains id then return id
  else
    match r.name? target with
    | none => .fail (.typeNotFound target.render)
    | some name => do
      .modify (·.insertInstance
        { name := "static " ++ name, id := id, kind := .static target, base := some .object })
      return id

def instanceHeader (r : Registry) (d : TypeDecl) (template : TypeId) (args : List TypeId) :
    TypeDecl where
  name := d.name ++ "<" ++ r.describeAll args ++ ">"
  id := .ofInstance template args
  kind := d.kind
  template := some template
  typeArgs := args
  defaultMember := d.defaultMember

variable {m : Type → Type} [Monad m]

def instanceKind (f : TypeId → m TypeId) : TypeKind → m TypeKind
  | .delegate s => do return .delegate (← s.mapTypes f)
  | kind => return kind

def instanceMethod (f : TypeId → m TypeId) (owner : TypeId) (d : Method) : m Method := do
  let d ← d.mapTypes f
  return { d with owner := owner, id := .ofMethod owner d.name d.paramTypes }

def instanceConstructor (f : TypeId → m TypeId) (header : TypeDecl) (d : Method) : m Method := do
  let params ← d.params.mapM (Param.mapTypes f)
  return { Method.construct header.id header.name params with isVariadic := d.isVariadic }

/-- Completes the header of an instance with the parts of its template `d`, each type in them
replaced by `f`. -/
def instanceDecl (f : TypeId → m TypeId) (header d : TypeDecl) : m TypeDecl := do
  let base ← d.base.mapM f
  let interfaces ← d.interfaces.mapM f
  let kind ← instanceKind f d.kind
  let methods ← d.methods.mapM (instanceMethod f header.id)
  let constructors ← d.constructors.mapM (instanceConstructor f header)
  let fields ← d.fields.mapM (Field.mapTypes f)
  let properties ← d.properties.mapM (Property.mapTypes f)
  return { header with
    base := base
    interfaces := interfaces
    kind := kind
    methods := methods
    constructors := constructors
    fields := fields.map ({ · with owner := header.id })
    properties := properties.map ({ · with owner := header.id }) }

mutual

/-- Replaces type parameters in `t`, also inside instances and static views, to nesting depth
`fuel`. Instances that come up are made. -/
def substitute : (fuel : Nat) → Substitution → TypeId → Attempt Registry RegistrationError TypeId
  | 0, _, _ => .exhausted
  | fuel + 1, map, t =>
    match map.find? t with
    | some bound => return bound
    | none => do
      let r ← .get
      match r.staticTarget? t, r.template? t with
      | some target, _ => do
        let replaced ← substitute fuel map target
        if replaced = target then return t else staticWrapper replaced
      | none, some template => do
        let args := r.typeArgs t
        let replaced ← args.mapM (substitute fuel map)
        if replaced = args then return t else instantiate fuel template replaced
      | none, none => return t

/-- The instance of `template` at `args`, made to nesting depth `fuel` if it is not known. Its
header is entered before its parts are filled in, so that a template may mention itself. -/
def instantiate : (fuel : Nat) → TypeId → List TypeId → Attempt Registry RegistrationError TypeId
  | 0, _, _ => .exhausted
  | fuel + 1, template, args => do
    let r ← .get
    let id := TypeId.ofInstance template args
    if r.contains id then return id
    else
      match r.find? template with
      | none => .fail (.typeNotFound template.render)
      | some d =>
        if !d.isTemplate then .fail (.notATemplate d.name)
        else if d.typeParams.length ≠ args.length then
          .fail (.typeArgCount d.name d.typeParams.length args.length)
        else do
          let header := r.instanceHeader d template args
          .modify (·.insertInstance header)
          let entry ← instanceDecl (substitute fuel (.ofList (d.typeParams.zip args))) header d
          .modify (·.insertInstance entry)
          return id

end

def arrayOf (fuel : Nat) (element : TypeId) : Attempt Registry RegistrationError TypeId :=
  instantiate fuel .array [element]

end Registry

end CallResolution
