import CallResolution.Scope.Basic

namespace CallResolution

variable {α : Type}

/-- A scope within those that enclose it, the nearest first. -/
structure ScopeChain (α : Type) where
  inner : Scope α
  outer : List (Scope α) := []

namespace ScopeChain

def toList (c : ScopeChain α) : List (Scope α) := c.inner :: c.outer

def depth (c : ScopeChain α) : Nat := c.outer.length

def find? (c : ScopeChain α) (k : SymbolKey) : Option α := c.toList.findSome? (·.find? k)

def contains (c : ScopeChain α) (k : SymbolKey) : Bool := c.toList.any (·.contains k)

def resolve (c : ScopeChain α) (k : SymbolKey) : Except SymbolError α :=
  match c.find? k with
  | some a => .ok a
  | none => .error (.keyNotFound k)

def digest (c : ScopeChain α) : UInt64 :=
  c.toList.foldr (fun s acc ↦ s.digest ^^^ XXHash.rotateLeft acc 5) 0

def enter (c : ScopeChain α) (s : Scope α) : ScopeChain α := ⟨s, c.inner :: c.outer⟩

def leave? (c : ScopeChain α) : Option (ScopeChain α) :=
  match c.outer with
  | [] => none
  | s :: outer => some ⟨s, outer⟩

/-- A scope with those of the entries that do not repeat what the chain says already. -/
def childScope [BEq α] (c : ScopeChain α) (entries : List (SymbolKey × α)) :
    Except SymbolError (Scope α) :=
  ({} : Scope α).addAll (entries.filter fun e ↦ !(c.find? e.1 == some e.2))

@[simp] theorem leave?_enter (c : ScopeChain α) (s : Scope α) : (c.enter s).leave? = some c := rfl

@[simp] theorem depth_enter (c : ScopeChain α) (s : Scope α) :
    (c.enter s).depth = c.depth + 1 := rfl

end ScopeChain

end CallResolution
