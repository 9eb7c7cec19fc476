import CallResolution.Scope.Forest
import CallResolution.Scope.Table

namespace CallResolution

variable {α β : Type}

/-- A table with the number of the one around it and the number of those around that. -/
structure TableNode (α : Type) where
  table : SymbolTable α := {}
  parent : Option Nat := none
  depth : Nat := 0

structure TableForest (α : Type) where
  nodes : List (TableNode α)
  parent_lt : ∀ (n : Nat) (node : TableNode α), nodes[n]? = some node →
    ∀ p, node.parent = some p → p < n

namespace TableForest

abbrev Action (α β : Type) := Attempt (TableForest α) SymbolError β

def empty : TableForest α where
  nodes := []
  parent_lt := by simp

def node? (f : TableForest α) (n : Nat) : Option (TableNode α) := f.nodes[n]?

def table? (f : TableForest α) (n : Nat) : Option (SymbolTable α) := (f.node? n).map TableNode.table

def put (f : TableForest α) (n : Nat) (t : SymbolTable α) : TableForest α where
  nodes := f.nodes.modify n ({ · with table := t })
  parent_lt := by
    intro m node hnode p hp
    rw [List.getElem?_modify] at hnode
    obtain ⟨old, hold, rfl⟩ := Option.map_eq_some_iff.1 hnode
    refine f.parent_lt m old hold p ?_
    split at hp <;> exact hp

def push (f : TableForest α) (node : TableNode α)
    (h : ∀ p, node.parent = some p → p < f.nodes.length) : TableForest α where
  nodes := f.nodes ++ [node]
  parent_lt := by
    intro m other hother p hp
    rcases Nat.lt_or_ge m f.nodes.length with hm | hm
    · rw [List.getElem?_append_left hm] at hother
      exact f.parent_lt m other hother p hp
    · rw [List.getElem?_append_right hm, List.getElem?_singleton] at hother
      split at hother
      · cases hother
        exact Nat.lt_of_lt_of_le (h p hp) hm
      · cases hother

def path (f : TableForest α) (n : Nat) : List Nat :=
  match h : f.nodes[n]? with
  | none => []
  | some node =>
    match hp : node.parent with
    | none => [n]
    | some p =>
      have : p < n := f.parent_lt n node h p hp
      n :: f.path p

def chain (f : TableForest α) (n : Nat) : List (SymbolTable α) := (f.path n).filterMap f.table?

def find? (f : TableForest α) (n : Nat) (k : SymbolKey) : Option α := (f.chain n).findSome? (·.find? k)

def contains (f : TableForest α) (n : Nat) (k : SymbolKey) : Bool := (f.chain n).any (·.contains k)

def resolve (f : TableForest α) (n : Nat) (k : SymbolKey) : Except SymbolError α :=
  match f.find? n k with
  | some a => .ok a
  | none => .error (.keyNotFound k)

def firstMatch (r : Registry) (fuel : Nat) (query : SymbolKey) :
    List (SymbolTable α) → Option (Option (SymbolKey × α))
  | [] => some none
  | t :: ts => do
    match ← t.closestMatch r fuel query with
    | some e => return some e
    | none => firstMatch r fuel query ts

def closestMatch (r : Registry) (fuel : Nat) (query : SymbolKey) (f : TableForest α) (n : Nat) :
    Option (Option (SymbolKey × α)) :=
  firstMatch r fuel query (f.chain n)

def addRoot : Action α Reply := fun f ↦ .done (.created f.nodes.length) (f.push {} (by simp))

def addChild (n : Nat) (t : SymbolTable α) : Action α Reply := fun f ↦
  if h : n < f.nodes.length then
    .done (.created f.nodes.length) (f.push ⟨t, some n, f.nodes[n].depth + 1⟩ (by simpa using h))
  else .exhausted

def onTable (n : Nat) (x : SymbolTable.Action α β) : Action α β := do
  let t ← .ask (·.table? n)
  .within (fun _ ↦ t) (fun t f ↦ f.put n t) x

/-- The digest of a chain; the tables in it remember their part. -/
def digestAlong : List Nat → Action α UInt64
  | [] => return 0
  | n :: outer => do
    let own ← onTable n SymbolTable.digest
    let rest ← digestAlong outer
    return own ^^^ XXHash.rotateLeft rest 5

variable [BEq α]

def perform : Request α → Action α Reply
  | .root => addRoot
  | .child n => addChild n {}
  | .childWith n entries => do
    let known ← .ask fun f ↦ (f.node? n).map fun _ ↦ f.find? n
    let t ← .within (fun _ ↦ {}) (fun _ f ↦ f) (do SymbolTable.fill known entries; .get)
    addChild n t
  | .add n k a => onTable n do
    SymbolTable.add k a
    return .changed
  | .remove n k => onTable n do return .removed (← SymbolTable.remove k)
  | .clear n => onTable n do
    SymbolTable.clear
    return .changed
  | .freeze n => onTable n do
    SymbolTable.freeze
    return .changed
  | .digest n => do
    let path ← .ask fun f ↦ (f.node? n).map fun _ ↦ f.path n
    let value ← digestAlong path
    return .digest value

end TableForest

end CallResolution
