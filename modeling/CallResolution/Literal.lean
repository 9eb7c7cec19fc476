import CallResolution.TypeId
import CallResolution.Text.Quoted
import CallResolution.Decimal.Floating

namespace CallResolution

/-- A constant in the source. A floating-point number is given by its 64 bits. -/
inductive Literal where
  | int (value : Int64)
  | float (bits : UInt64)
  | bool (value : Bool)
  | text (value : String)
  | nil

namespace Literal

def type : Literal → TypeId
  | int _ => .int
  | float _ => .float
  | bool _ => .bool
  | text _ => .string
  | nil => .object

def beq : Literal → Literal → Bool
  | int a, int b => a == b
  | float a, float b => Decimal.Floating.same a b
  | bool a, bool b => a == b
  | text a, text b => a == b
  | nil, nil => true
  | _, _ => false

instance : BEq Literal := ⟨beq⟩

def render : Literal → String
  | int v => toString v.toInt
  | float b => Decimal.Floating.render b
  | bool v => if v then "true" else "false"
  | text s => Text.quoted s
  | nil => "null"

end Literal

end CallResolution
