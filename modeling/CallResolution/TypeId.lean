import CallResolution.XXHash
import CallResolution.Text.Hex

namespace CallResolution

/-- Identity of a type, method or constructor, computed from names and parts. -/
structure TypeId where
  bits : UInt64
deriving DecidableEq

namespace TypeId

def separator : UInt64 := 0x4bc94d6bd06053ad
def typeMark : UInt64 := 0x2fac10b63a6cc57c
def methodMark : UInt64 := 0x7d3c8b4a92e15f6d
def constructorMark : UInt64 := 0x9a7f3d5e2b8c4601
def paramMark : UInt64 := 0x1a095090689d4647
def staticMark : UInt64 := 0x3e9f5d2a8c7b1403
def builtinMark : UInt64 := 0x5ea77ffbcdf5f302

def firstMarker : UInt64 := 0x9e3779b97f4a7c15

def markers : List UInt64 :=
  [firstMarker, 0xbf58476d1ce4e5b9, 0x94d049bb133111eb, 0xd6e8feb86659fd93,
   0xe7037ed1a0b428db, 0xc6a4a7935bd1e995, 0x8648dbbc94d49b8d, 0xa2b48b2c69e0d657,
   0x7c3e9f2a5b8d1403, 0x5d8c7b4a3e9f2106, 0x3f1e9d8c7b5a4203, 0x1a2b3c4d5e6f7089,
   0x9f8e7d6c5b4a3210, 0x2468ace013579bdf, 0xfdb97531eca86420, 0x123456789abcdef0]

/-- What distinguishes position `i` of a list of parts; past the table it is the first marker
plus the position. -/
def marker (i : Nat) : UInt64 := (markers[i]?).getD (firstMarker + i.toUInt64)

def mixFrom (i : Nat) (seed : UInt64) : List TypeId → UInt64
  | [] => seed
  | part :: parts => mixFrom (i + 1) (seed * separator + (marker i ^^^ part.bits)) parts

def mix (seed : UInt64) (parts : List TypeId) : UInt64 := mixFrom 0 seed parts

def ofName (name : String) : TypeId := ⟨typeMark ^^^ XXHash.ofText name⟩

def ofInstance (template : TypeId) (args : List TypeId) : TypeId := ⟨mix template.bits args⟩

def ofParam (owner name : String) : TypeId :=
  ⟨paramMark ^^^ XXHash.ofText (owner ++ "::" ++ name)⟩

def ofStatic (target : TypeId) : TypeId := ⟨staticMark ^^^ (target.bits * separator)⟩

def ofMethod (owner : TypeId) (name : String) (params : List TypeId) : TypeId :=
  ⟨mix (methodMark ^^^ owner.bits ^^^ XXHash.ofText name) params⟩

def ofConstructor (owner : TypeId) (params : List TypeId) : TypeId :=
  ⟨mix (constructorMark ^^^ owner.bits) params⟩

def builtin (slot : UInt64) : TypeId := ⟨builtinMark ^^^ (slot * separator)⟩

def object : TypeId := builtin 1
def void : TypeId := builtin 2
def bool : TypeId := builtin 3
def int : TypeId := builtin 4
def float : TypeId := builtin 5
def string : TypeId := builtin 6
def array : TypeId := builtin 7
def arrayElement : TypeId := builtin 8
/-- The type of a lambda that is not yet bound to a delegate. -/
def lambda : TypeId := builtin 9

def isEmpty (t : TypeId) : Bool := t.bits == 0

def render (t : TypeId) : String := Text.hexWord t.bits

def renderTagged (t : TypeId) : String := "TypeHash(" ++ t.render ++ ")"

@[simp] theorem ofInstance_nil (t : TypeId) : ofInstance t [] = t := rfl

end TypeId

end CallResolution
