import CallResolution.Attempt
import CallResolution.Scope.Match

namespace CallResolution

variable {α : Type}

structure Slot (α : Type) where
  key : SymbolKey
  number : Nat
  value : α

/-- A scope whose slots are kept in no order in particular. -/
structure SymbolTable (α : Type) where
  slots : List (Slot α) := []
  /-- The number of the next slot. Later slots have greater numbers, which do not run out: a counter of 64
  bits gives the same ones for the first `2 ^ 64` additions. -/
  next : Nat := 0
  isFrozen : Bool := false
  /-- The digest of the keys, if it was asked for since they last changed. -/
  remembered : Option UInt64 := none

namespace SymbolTable

abbrev Action (α β : Type) := Attempt (SymbolTable α) SymbolError β

def size (t : SymbolTable α) : Nat := t.slots.length

def find? (t : SymbolTable α) (k : SymbolKey) : Option α :=
  (t.slots.find? (·.key.agrees k)).map Slot.value

def contains (t : SymbolTable α) (k : SymbolKey) : Bool := t.slots.any (·.key.agrees k)

def inOrder (t : SymbolTable α) : List (Slot α) := t.slots.mergeSort fun s u ↦ s.number ≤ u.number

def keys (t : SymbolTable α) : List SymbolKey := t.inOrder.map Slot.key

def requireWritable : Action α Unit := do
  if (← .get).isFrozen then .fail .readOnly else return ()

def add (k : SymbolKey) (a : α) : Action α Unit := do
  requireWritable
  if (← .get).contains k then .fail (.duplicateKey k)
  else .modify fun t ↦
    { t with slots := ⟨k, t.next, a⟩ :: t.slots, next := t.next + 1, remembered := none }

def remove (k : SymbolKey) : Action α Bool := do
  requireWritable
  if (← .get).contains k then do
    .modify fun t ↦ { t with slots := t.slots.filter (!·.key.agrees k), remembered := none }
    return true
  else return false

def clear : Action α Unit := do
  requireWritable
  .modify fun t ↦ { t with slots := [], remembered := none }

def freeze : Action α Unit := .modify fun t ↦ { t with isFrozen := true }

def digest : Action α UInt64 := do
  let t ← .get
  match t.remembered with
  | some value => return value
  | none => do
    let value := t.slots.foldl (fun acc s ↦ acc ^^^ s.key.digest) 0
    .modify fun t ↦ { t with remembered := some value }
    return value

def fill [BEq α] (known : SymbolKey → Option α) : List (SymbolKey × α) → Action α Unit
  | [] => return ()
  | (k, a) :: entries =>
    if known k == some a then fill known entries
    else do
      add k a
      fill known entries

/-- The best slot so far, with one more taken into account: it is better if it fits more closely, or
as closely and came earlier. -/
def prefer (best : Option (Fit × Slot α)) : Option Fit × Slot α → Option (Fit × Slot α)
  | (none, _) => best
  | (some fit, s) =>
    match best with
    | none => some (fit, s)
    | some (g, u) =>
      if fit.lt g || (fit = g && s.number < u.number) then some (fit, s) else some (g, u)

def closestMatch (r : Registry) (fuel : Nat) (query : SymbolKey) (t : SymbolTable α) :
    Option (Option (SymbolKey × α)) := do
  let types ← match query.receiver with
    | none => some []
    | some t => r.convertible fuel t
  let slots := t.slots.filter fun s ↦ s.key.name == query.name && s.key.kind.covers query.kind
  let fits ← slots.mapM fun s ↦ do
    return (← r.receiverFit fuel types s.key.receiver query.receiver, s)
  return (fits.foldl prefer none).map fun best ↦ (best.2.key, best.2.value)

end SymbolTable

end CallResolution
