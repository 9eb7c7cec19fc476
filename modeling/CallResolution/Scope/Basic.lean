import CallResolution.Error

namespace CallResolution

variable {α : Type}

/-- Symbols and what they are bound to, in the order in which they came. -/
structure Scope (α : Type) where
  entries : List (SymbolKey × α) := []
  isFrozen : Bool := false

namespace Scope

def keys (s : Scope α) : List SymbolKey := s.entries.map Prod.fst

def size (s : Scope α) : Nat := s.entries.length

def find? (s : Scope α) (k : SymbolKey) : Option α :=
  (s.entries.find? fun e ↦ e.1.agrees k).map Prod.snd

def contains (s : Scope α) (k : SymbolKey) : Bool := s.entries.any fun e ↦ e.1.agrees k

def add (s : Scope α) (k : SymbolKey) (a : α) : Except SymbolError (Scope α) :=
  if s.isFrozen then .error .readOnly
  else if s.contains k then .error (.duplicateKey k)
  else .ok { s with entries := s.entries ++ [(k, a)] }

def addAll (s : Scope α) : List (SymbolKey × α) → Except SymbolError (Scope α)
  | [] => .ok s
  | (k, a) :: es => do addAll (← s.add k a) es

def remove (s : Scope α) (k : SymbolKey) : Except SymbolError (Bool × Scope α) :=
  if s.isFrozen then .error .readOnly
  else if s.contains k then
    .ok (true, { s with entries := s.entries.filter (!·.1.agrees k) })
  else .ok (false, s)

def clear (s : Scope α) : Except SymbolError (Scope α) :=
  if s.isFrozen then .error .readOnly else .ok { s with entries := [] }

def freeze (s : Scope α) : Scope α := { s with isFrozen := true }

def digestKeys (ks : List SymbolKey) : UInt64 := ks.foldl (fun acc k ↦ acc ^^^ k.digest) 0

def digest (s : Scope α) : UInt64 := digestKeys s.keys

theorem contains_eq_isSome_find? (s : Scope α) (k : SymbolKey) :
    s.contains k = (s.find? k).isSome := by
  simp only [contains, find?, Option.isSome_map]
  induction s.entries with
  | nil => rfl
  | cons e es ih =>
    cases h : e.1.agrees k <;> simp [h, ih]

end Scope

end CallResolution
