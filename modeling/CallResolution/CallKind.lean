namespace CallResolution

/-- What a symbol may be used as. `generic` marks explicit type arguments and is no use of its own. -/
structure CallKind where
  member : Bool := false
  method : Bool := false
  constructor : Bool := false
  literal : Bool := false
  generic : Bool := false
deriving DecidableEq

namespace CallKind

def unknown : CallKind := {}
def ofMember : CallKind := { member := true }
def ofMethod : CallKind := { method := true }
def ofConstructor : CallKind := { constructor := true }

def target (k : CallKind) : CallKind := { k with generic := false }

def isUnknown (k : CallKind) : Bool := !(k.member || k.method || k.constructor || k.literal)

/-- Every use asked for is given, or `k` is the wildcard. -/
def covers (k query : CallKind) : Bool :=
  k.isUnknown ||
    ((!query.member || k.member) && (!query.method || k.method) &&
      (!query.constructor || k.constructor) && (!query.literal || k.literal))

def toBits (k : CallKind) : Nat :=
  k.member.toNat + 2 * k.method.toNat + 4 * k.constructor.toNat + 8 * k.literal.toNat +
    16 * k.generic.toNat

def ofBits (n : Nat) : CallKind where
  member := n.testBit 0
  method := n.testBit 1
  constructor := n.testBit 2
  literal := n.testBit 3
  generic := n.testBit 4

def render (k : CallKind) : String :=
  if k.isUnknown then "unknown"
  else
    let names := [(k.member, "member"), (k.method, "method"), (k.constructor, "constructor"),
      (k.literal, "literal")]
    "|".intercalate ((names.filter (·.1)).map (·.2))

theorem ofBits_toBits (k : CallKind) : ofBits k.toBits = k := by
  obtain ⟨a, b, c, d, e⟩ := k
  cases a <;> cases b <;> cases c <;> cases d <;> cases e <;> decide

@[simp] theorem target_target (k : CallKind) : k.target.target = k.target := rfl

@[simp] theorem isUnknown_target (k : CallKind) : k.target.isUnknown = k.isUnknown := rfl

end CallKind

end CallResolution
