import CallResolution.Member

namespace CallResolution

structure Constraints where
  defaultConstructor : Bool := false
  referenceType : Bool := false
  valueType : Bool := false
deriving DecidableEq

namespace Constraints

def toBits (c : Constraints) : Nat :=
  c.defaultConstructor.toNat + 2 * c.referenceType.toNat + 4 * c.valueType.toNat

def ofBits (n : Nat) : Constraints where
  defaultConstructor := n.testBit 0
  referenceType := n.testBit 1
  valueType := n.testBit 2

theorem ofBits_toBits (c : Constraints) : ofBits c.toBits = c := by
  obtain ⟨a, b, c⟩ := c
  cases a <;> cases b <;> cases c <;> decide

end Constraints

structure TypeParam where
  owner : String
  index : Nat
  constraints : Constraints := {}
  bounds : List TypeId := []
deriving DecidableEq

inductive TypeKind where
  | classType
  | valueType
  | interfaceType
  | delegate (signature : Signature)
  | parameter (info : TypeParam)
  /-- The type of `target` used as a value. -/
  | static (target : TypeId)
deriving DecidableEq

structure TypeDecl where
  name : String
  id : TypeId
  kind : TypeKind
  base : Option TypeId := none
  interfaces : List TypeId := []
  /-- Nonempty for a template. -/
  typeParams : List TypeId := []
  /-- The template of which this is an instance. -/
  template : Option TypeId := none
  typeArgs : List TypeId := []
  methods : List Method := []
  constructors : List Method := []
  fields : List Field := []
  properties : List Property := []
  /-- The member that an access without a name means. -/
  defaultMember : Option String := none
deriving DecidableEq

namespace TypeDecl

def isTemplate (d : TypeDecl) : Bool := !d.typeParams.isEmpty

def isInstance (d : TypeDecl) : Bool := d.template.isSome

def isInterface (d : TypeDecl) : Bool := d.kind == .interfaceType

def isValueType (d : TypeDecl) : Bool :=
  match d.kind with
  | .valueType => true
  | .parameter info => info.constraints.valueType
  | _ => false

def hasDefaultConstructor (d : TypeDecl) : Bool :=
  match d.kind with
  | .valueType => true
  | .classType => d.constructors.isEmpty || d.constructors.any (·.params.isEmpty)
  | .parameter info => info.constraints.defaultConstructor || info.constraints.valueType
  | _ => false

def paramInfo (d : TypeDecl) : Option TypeParam :=
  match d.kind with
  | .parameter info => some info
  | _ => none

def signature (d : TypeDecl) : Option Signature :=
  match d.kind with
  | .delegate s => some s
  | _ => none

def staticTarget (d : TypeDecl) : Option TypeId :=
  match d.kind with
  | .static target => some target
  | _ => none

def membersNamed (d : TypeDecl) (name : String) : List Member :=
  (d.fields.filter (·.name == name)).map .field ++
    (d.properties.filter (·.name == name)).map .property

def methodsNamed (d : TypeDecl) (name : String) : List Method :=
  d.methods.filter (·.name == name)

end TypeDecl

end CallResolution
