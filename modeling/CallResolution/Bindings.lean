import CallResolution.Definition
import CallResolution.Scope.Basic

namespace CallResolution

structure Bindings where
  entries : List (SymbolKey × Definition) := []

namespace Bindings

def keys (b : Bindings) : List SymbolKey := b.entries.map Prod.fst

def size (b : Bindings) : Nat := b.entries.length

def add (b : Bindings) (k : SymbolKey) (d : Definition) : Bindings := ⟨b.entries ++ [(k, d)]⟩

def addLiveMembers (b : Bindings) : Bindings := b.add .missing { rule := .liveMembers }

def addType (b : Bindings) (name : String) (target : TypeId) : Bindings :=
  (b.add (.global .ofMember name) { rule := .typeReference target }).add
    (.global .ofConstructor name) { rule := .constructors target }

def addFunction (b : Bindings) (name : String) (overloads : List Method) : Bindings :=
  b.add (.global .ofMethod name) { rule := .methods overloads }

/-- The frozen root scope. A symbol may be bound only once. -/
def install (b : Bindings) : Except SymbolError (Scope Definition) := do
  return (← ({} : Scope Definition).addAll b.entries).freeze

end Bindings

end CallResolution
