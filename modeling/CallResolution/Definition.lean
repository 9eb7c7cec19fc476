import CallResolution.Expr

namespace CallResolution

inductive Rule where
  | constant (e : Expr)
  | typeReference (target : TypeId)
  | methods (overloads : List Method)
  | constructors (target : TypeId)
  /-- An access to a member that the receiver has, or to an extension method. -/
  | liveMembers
  | receiver
  /-- The second argument, with `name` standing for the first. -/
  | letIn (name : String)
  | failing (text : String)

/-- A rule with an identity, by which definitions are compared. One that is made on the way, for
the parameter of a lambda, has none and is like no other. -/
structure Definition where
  rule : Rule
  identity : Option Nat := none

namespace Definition

def same (d e : Definition) : Bool := d.identity.isSome && d.identity == e.identity

instance : BEq Definition := ⟨same⟩

def constant (e : Expr) : Definition := { rule := .constant e }

def parameter (name : String) (type : TypeId) : Definition := constant (.parameter name type)

end Definition

end CallResolution
