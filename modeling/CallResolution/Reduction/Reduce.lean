import CallResolution.Node
import CallResolution.Reduction.LiveMembers
import CallResolution.Scope.Match

namespace CallResolution.Reduction

/-- How to go into a scope, and the lambdas around a form, if the symbols that they declare are taken for
their parameters without a look at the scopes. -/
structure Reading where
  inScope : Span → Reduction Expr → Reduction Expr := Reduction.inScope
  around : Option (List (List Param)) := none

namespace Reading

def param? (how : Reading) (name : String) : Option Param := how.around.bind (bound? · name)

def within (how : Reading) (params : List Param) : Reading :=
  { how with around := how.around.map (params :: ·) }

end Reading

def applyRuleBy (how : Reading) (fuel : Nat) (site : CallSite) : Rule → Reduction Expr
  | .constant e => return e
  | .typeReference target => do
    let type ← onTypes (Attempt.mapError .registration (Registry.staticWrapper target))
    return .typeRef target type
  | .methods overloads =>
    callOverload fuel site (Access.ofReceiver site.receiver).receiver overloads
  | .constructors target => do
    let overloads := (← .get).types.constructors target
    callOverload fuel site none overloads
  | .liveMembers => accessLive fuel site
  | .receiver =>
    match site.receiver with
    | some e => return e
    | none => .fail (.internal "no receiver")
  | .letIn name =>
    match site.args with
    | [value, body] => how.inScope site.span do
      define (.global .ofMember name) (.constant (← value))
      body
    | _ => .fail (.internal "let needs 2 arguments")
  | .failing text => .fail (.internal text)

/-- Finds what a symbol means here, or else the definition to fall back on, and applies it. -/
def resolveBy (how : Reading) (fuel : Nat) (site : CallSite) : Reduction Expr := do
  let key : SymbolKey := ⟨site.kind, site.receiver.map Expr.type, site.name⟩
  let found ← .ask fun s ↦ s.scopes.closestMatch s.types fuel key
  match (found.map Prod.snd).or ((← .get).scopes.find? .missing) with
  | some d => applyRuleBy how fuel site d.rule
  | none => .fail (.undefinedSymbol site.name site.span)

mutual

def reduceBy (how : Reading) (fuel : Nat) : Node → Reduction Expr
  | .literal value _ => return .literal value
  | .symbol name span =>
    match how.param? name with
    | some p => return .parameter p.name p.type
    | none => resolveBy how fuel { kind := .ofMember, name := name, span := span }
  | .call kind name typeArgs receiver args span => do
    let receiver ← receiverBy how fuel receiver
    resolveBy how fuel { kind, name, typeArgs, span, receiver, args := delayBy how fuel args }
  | .lambda params body span => how.inScope span do
    params.forM fun p ↦ define (.global .ofMember p.name) (.parameter p.name p.type)
    return .unboundLambda params (← reduceBy (how.within params) fuel body)

def receiverBy (how : Reading) (fuel : Nat) : Option Node → Reduction (Option Expr)
  | none => return none
  | some node => do return some (← reduceBy how fuel node)

def delayBy (how : Reading) (fuel : Nat) : List Node → List (Reduction Expr)
  | [] => []
  | node :: nodes => reduceBy how fuel node :: delayBy how fuel nodes

end

def applyRule (fuel : Nat) (site : CallSite) (rule : Rule) : Reduction Expr := applyRuleBy {} fuel site rule

def resolve (fuel : Nat) (site : CallSite) : Reduction Expr := resolveBy {} fuel site

def reduce (fuel : Nat) (node : Node) : Reduction Expr := reduceBy {} fuel node

def reduceReceiver (fuel : Nat) (receiver : Option Node) : Reduction (Option Expr) :=
  receiverBy {} fuel receiver

def delay (fuel : Nat) (nodes : List Node) : List (Reduction Expr) := delayBy {} fuel nodes

def reduceAll (fuel : Nat) (nodes : List Node) : Reduction (List Expr) := nodes.mapM (reduce fuel)

end CallResolution.Reduction
