import CallResolution.Attempt
import CallResolution.Dictionary
import CallResolution.Error
import CallResolution.TypeDecl

namespace CallResolution

/-- The known types. Instances of templates and static views are made when they are asked for and
kept apart from what was registered. -/
structure Registry where
  types : Dictionary TypeId TypeDecl := ∅
  names : Dictionary String TypeId := ∅
  extensions : List Method := []
  instances : Dictionary TypeId TypeDecl := ∅

namespace Registry

def find? (r : Registry) (t : TypeId) : Option TypeDecl := (r.types.find? t).or (r.instances.find? t)

def contains (r : Registry) (t : TypeId) : Bool := r.types.contains t || r.instances.contains t

def lookup (r : Registry) (name : String) : Option TypeId := r.names.find? name

def name? (r : Registry) (t : TypeId) : Option String := (r.find? t).map (·.name)

def describe (r : Registry) (t : TypeId) : String := (r.name? t).getD t.render

def describeAll (r : Registry) (ts : List TypeId) : String := ", ".intercalate (ts.map r.describe)

def kind? (r : Registry) (t : TypeId) : Option TypeKind := (r.find? t).map (·.kind)

def paramInfo? (r : Registry) (t : TypeId) : Option TypeParam := (r.find? t).bind (·.paramInfo)

def isParam (r : Registry) (t : TypeId) : Bool := (r.paramInfo? t).isSome

/-- A type parameter derives from `object`. -/
def base? (r : Registry) (t : TypeId) : Option TypeId :=
  (r.find? t).bind fun d ↦ if d.paramInfo.isSome then some .object else d.base

/-- The contracts of a type parameter are its bounds. -/
def interfaces (r : Registry) (t : TypeId) : List TypeId :=
  match r.find? t with
  | none => []
  | some d => (d.paramInfo.map (·.bounds)).getD d.interfaces

def template? (r : Registry) (t : TypeId) : Option TypeId := (r.find? t).bind (·.template)

def typeArgs (r : Registry) (t : TypeId) : List TypeId := ((r.find? t).map (·.typeArgs)).getD []

def typeParams (r : Registry) (t : TypeId) : List TypeId := ((r.find? t).map (·.typeParams)).getD []

def isInterface (r : Registry) (t : TypeId) : Bool := (r.find? t).any (·.isInterface)

def isValueType (r : Registry) (t : TypeId) : Bool := (r.find? t).any (·.isValueType)

def hasDefaultConstructor (r : Registry) (t : TypeId) : Bool :=
  (r.find? t).any (·.hasDefaultConstructor)

def signature? (r : Registry) (t : TypeId) : Option Signature := (r.find? t).bind (·.signature)

def staticTarget? (r : Registry) (t : TypeId) : Option TypeId := (r.find? t).bind (·.staticTarget)

def defaultMember? (r : Registry) (t : TypeId) : Option String := (r.find? t).bind (·.defaultMember)

def methods (r : Registry) (t : TypeId) (name : String) : List Method :=
  ((r.find? t).map (·.methodsNamed name)).getD []

def constructors (r : Registry) (t : TypeId) : List Method :=
  ((r.find? t).map (·.constructors)).getD []

def members (r : Registry) (t : TypeId) (name : String) : List Member :=
  ((r.find? t).map (·.membersNamed name)).getD []

def extensionsNamed (r : Registry) (name : String) : List Method :=
  r.extensions.filter (·.name == name)

def elementType? (r : Registry) (t : TypeId) : Option TypeId :=
  if r.template? t = some .array then (r.typeArgs t).head? else none

def insert (r : Registry) (d : TypeDecl) : Registry :=
  { r with types := r.types.insert d.id d, names := r.names.insert d.name d.id }

def insertParam (r : Registry) (d : TypeDecl) : Registry :=
  { r with types := r.types.insert d.id d }

def insertInstance (r : Registry) (d : TypeDecl) : Registry :=
  { r with instances := r.instances.insert d.id d }

/-- Classes, value types and delegates derive from `object` unless they say otherwise. -/
def withImplicitBase (d : TypeDecl) : TypeDecl :=
  let derives := match d.kind with
    | .classType | .valueType | .delegate _ => true
    | _ => false
  if d.base.isNone && derives && d.id != .object then { d with base := some .object } else d

def register (d : TypeDecl) : Attempt Registry RegistrationError TypeId := do
  let r ← .get
  if r.contains d.id then .fail (.duplicateType d.name)
  else
    match (d.base.toList ++ d.interfaces).find? (!r.contains ·) with
    | some t => .fail (.typeNotFound t.render)
    | none => do
      .modify (·.insert (withImplicitBase d))
      return d.id

/-- Adds the type parameter `name` that `info.owner` declares. Its bounds are not checked. -/
def registerParam (name : String) (info : TypeParam) :
    Attempt Registry RegistrationError TypeId := do
  let r ← .get
  let id := TypeId.ofParam info.owner name
  if r.contains id then .fail (.duplicateType (info.owner ++ "::" ++ name))
  else do
    .modify (·.insertParam { name := name, id := id, kind := .parameter info })
    return id

def addExtension (r : Registry) (m : Method) : Registry :=
  { r with extensions := r.extensions ++ [if m.isExtension then m else m.asExtension] }

end Registry

end CallResolution
