import CallResolution.TypeId
import CallResolution.CallKind

namespace CallResolution

structure SymbolKey where
  kind : CallKind
  receiver : Option TypeId
  name : String
deriving DecidableEq

namespace SymbolKey

def global (kind : CallKind) (name : String) : SymbolKey := ⟨kind, none, name⟩

/-- The key without the modifiers, which no comparison sees. -/
def canonical (k : SymbolKey) : SymbolKey := { k with kind := k.kind.target }

def agrees (k l : SymbolKey) : Bool := k.canonical = l.canonical

def missingName : String := "\x01missing"

/-- The key of the definition to fall back on. -/
def missing : SymbolKey := global .unknown missingName

def isMissing (k : SymbolKey) : Bool :=
  k.name == missingName && k.receiver.isNone && k.kind.isUnknown

def digest (k : SymbolKey) : UInt64 :=
  XXHash.ofText k.name ^^^
    ((k.receiver.map fun t ↦ XXHash.rotateLeft t.bits 17).getD 0) ^^^
    (k.kind.target.toBits.toUInt64 <<< 56)

def render (k : SymbolKey) : String :=
  if k.isMissing then "<missing>"
  else
    match k.receiver with
    | some t => k.kind.render ++ " " ++ t.render ++ "." ++ k.name
    | none => k.kind.render ++ " " ++ k.name

theorem agrees_iff {k l : SymbolKey} : k.agrees l = true ↔ k.canonical = l.canonical := by
  simp [agrees]

theorem agrees_refl (k : SymbolKey) : k.agrees k = true := agrees_iff.2 rfl

theorem agrees_comm (k l : SymbolKey) : k.agrees l = l.agrees k := by
  simp only [agrees, eq_comm]

theorem digest_canonical (k : SymbolKey) : k.canonical.digest = k.digest := rfl

end SymbolKey

end CallResolution
