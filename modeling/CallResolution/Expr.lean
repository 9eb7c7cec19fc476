import CallResolution.Literal
import CallResolution.Member

namespace CallResolution

inductive Expr where
  | constant (value : Literal) (type : TypeId)
  | parameter (name : String) (type : TypeId)
  /-- The type `target` used as a value. -/
  | typeRef (target type : TypeId)
  | call (receiver : Option Expr) (method : Method) (args : List Expr) (type : TypeId)
  | new (constructor : Method) (args : List Expr) (type : TypeId)
  | newArray (element : TypeId) (items : List Expr) (type : TypeId)
  | member (receiver : Option Expr) (member : Member) (args : List Expr) (type : TypeId)
  | convert (operand : Expr) (type : TypeId)
  | lambda (params : List Param) (body : Expr) (type : TypeId)

namespace Expr

def type : Expr → TypeId
  | constant _ t | parameter _ t | typeRef _ t | call _ _ _ t | new _ _ t | newArray _ _ t
  | member _ _ _ t | convert _ t | lambda _ _ t => t

def literal (value : Literal) : Expr := constant value value.type

def unboundLambda (params : List Param) (body : Expr) : Expr := lambda params body .lambda

def isLambda : Expr → Bool
  | lambda _ _ _ => true
  | _ => false

def convertTo (e : Expr) (t : TypeId) : Expr := if e.type = t then e else convert e t

def bindLambda (e : Expr) (delegate : TypeId) : Expr :=
  match e with
  | lambda params body _ => lambda params body delegate
  | e => e

mutual

/-- Equality of expressions, with numbers compared as values. -/
def beq : Expr → Expr → Bool
  | constant v t, constant v' t' => v == v' && t == t'
  | parameter n t, parameter n' t' => n == n' && t == t'
  | typeRef x t, typeRef x' t' => x == x' && t == t'
  | call r m as t, call r' m' as' t' => beqReceiver r r' && m == m' && beqList as as' && t == t'
  | new m as t, new m' as' t' => m == m' && beqList as as' && t == t'
  | newArray x is t, newArray x' is' t' => x == x' && beqList is is' && t == t'
  | member r m as t, member r' m' as' t' =>
    beqReceiver r r' && m == m' && beqList as as' && t == t'
  | convert e t, convert e' t' => beq e e' && t == t'
  | lambda ps b t, lambda ps' b' t' => ps == ps' && beq b b' && t == t'
  | _, _ => false

def beqReceiver : Option Expr → Option Expr → Bool
  | none, none => true
  | some e, some e' => beq e e'
  | _, _ => false

def beqList : List Expr → List Expr → Bool
  | [], [] => true
  | e :: es, e' :: es' => beq e e' && beqList es es'
  | _, _ => false

end

instance : BEq Expr := ⟨beq⟩

theorem type_convertTo (e : Expr) (t : TypeId) : (e.convertTo t).type = t := by
  unfold convertTo
  split
  · assumption
  · rfl

end Expr

end CallResolution
