import CallResolution.TypeId

namespace CallResolution

structure Param where
  name : String
  type : TypeId
deriving DecidableEq

structure Signature where
  params : List TypeId
  result : TypeId
deriving DecidableEq

inductive MethodKind where
  | instanceMethod
  | staticMethod
  | constructor
deriving DecidableEq

structure Method where
  name : String
  owner : TypeId
  id : TypeId
  kind : MethodKind
  params : List Param
  result : TypeId
  /-- Called on a receiver that becomes its first argument. -/
  isExtension : Bool := false
  /-- The last parameter is an array that takes all remaining arguments. -/
  isVariadic : Bool := false
  typeParams : List TypeId := []
  typeArgs : List TypeId := []
deriving DecidableEq

namespace Method

def onInstance (owner : TypeId) (name : String) (params : List Param) (result : TypeId) : Method where
  name := name
  owner := owner
  id := .ofMethod owner name (params.map Param.type)
  kind := .instanceMethod
  params := params
  result := result

def onType (owner : TypeId) (name : String) (params : List Param) (result : TypeId) : Method where
  name := name
  owner := owner
  id := .ofMethod owner name (params.map Param.type)
  kind := .staticMethod
  params := params
  result := result

def construct (owner : TypeId) (ownerName : String) (params : List Param) : Method where
  name := ownerName
  owner := owner
  id := .ofConstructor owner (params.map Param.type)
  kind := .constructor
  params := params
  result := owner

def asExtension (m : Method) : Method := { m with kind := .staticMethod, isExtension := true }

def asVariadic (m : Method) : Method := { m with isVariadic := true }

def paramTypes (m : Method) : List TypeId := m.params.map Param.type

def isUnboundGeneric (m : Method) : Bool := !m.typeParams.isEmpty && m.typeArgs.isEmpty

def isStatic (m : Method) : Bool := m.kind != .instanceMethod

def isConstructor (m : Method) : Bool := m.kind == .constructor

end Method

structure Field where
  name : String
  owner : TypeId
  type : TypeId
  isStatic : Bool := false
deriving DecidableEq

structure Property where
  name : String
  owner : TypeId
  type : TypeId
  /-- Nonempty for an indexer. -/
  index : List Param := []
  isStatic : Bool := false
deriving DecidableEq

inductive Member where
  | field (f : Field)
  | property (p : Property)
deriving DecidableEq

namespace Member

def name : Member → String
  | field f => f.name
  | property p => p.name

def owner : Member → TypeId
  | field f => f.owner
  | property p => p.owner

def type : Member → TypeId
  | field f => f.type
  | property p => p.type

def isStatic : Member → Bool
  | field f => f.isStatic
  | property p => p.isStatic

def isIndexer : Member → Bool
  | field _ => false
  | property p => !p.index.isEmpty

end Member

variable {m : Type → Type} [Monad m]

/-! Effectful maps over the types that a declaration mentions, in the order of declaration. -/

def Param.mapTypes (f : TypeId → m TypeId) (p : Param) : m Param := do
  return { p with type := ← f p.type }

def Signature.mapTypes (f : TypeId → m TypeId) (s : Signature) : m Signature := do
  let params ← s.params.mapM f
  return ⟨params, ← f s.result⟩

def Method.mapTypes (f : TypeId → m TypeId) (d : Method) : m Method := do
  let params ← d.params.mapM (Param.mapTypes f)
  return { d with params := params, result := ← f d.result }

def Field.mapTypes (f : TypeId → m TypeId) (d : Field) : m Field := do
  return { d with type := ← f d.type }

def Property.mapTypes (f : TypeId → m TypeId) (d : Property) : m Property := do
  let type ← f d.type
  return { d with type := type, index := ← d.index.mapM (Param.mapTypes f) }

def Member.mapTypes (f : TypeId → m TypeId) : Member → m Member
  | field d => do return field (← d.mapTypes f)
  | property d => do return property (← d.mapTypes f)

end CallResolution
