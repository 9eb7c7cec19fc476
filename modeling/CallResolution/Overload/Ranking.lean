import CallResolution.Overload.Candidate

namespace CallResolution

inductive Ambiguity where
  | firstWins
  | reject
deriving DecidableEq

/-- How good a candidate is: fixed before variadic, members before extensions, then the more type
parameters are bound the better. -/
structure Rank where
  isVariadic : Bool
  isExtension : Bool
  bound : Nat
deriving DecidableEq

def Rank.le (a b : Rank) : Bool :=
  if a.isVariadic ≠ b.isVariadic then b.isVariadic
  else if a.isExtension ≠ b.isExtension then b.isExtension
  else b.bound ≤ a.bound

namespace Candidate

def rank (c : Candidate) : Rank := ⟨c.method.isVariadic, c.isExtension, c.substitution.size⟩

def insertRanked (c : Candidate) : List Candidate → List Candidate
  | [] => [c]
  | d :: ds => if c.rank.le d.rank then c :: d :: ds else d :: insertRanked c ds

def ranked (cs : List Candidate) : List Candidate := cs.foldr insertRanked []

def describe (r : Registry) (c : Candidate) : String :=
  c.method.name ++ "(" ++ r.describeAll c.method.paramTypes ++ ")"

def best (r : Registry) (ambiguity : Ambiguity) (span : Span) (cs : List Candidate) :
    Except CompileError (Option Candidate) :=
  match ranked cs with
  | [] => .ok none
  | c :: rest =>
    let tied := rest.takeWhile (·.rank = c.rank)
    if ambiguity = .reject ∧ tied ≠ [] then
      .error (.ambiguousOverload c.method.name
        (", ".intercalate ((c :: tied).map (describe r))) span)
    else .ok (some c)

end Candidate

end CallResolution
