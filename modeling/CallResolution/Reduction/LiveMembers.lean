import CallResolution.Overload.MemberAccess
import CallResolution.Reduction.CallSite

namespace CallResolution.Reduction

structure Access where
  receiver : Option Expr := none
  owner : Option TypeId := none
  isStatic : Bool := false

def Access.ofReceiver : Option Expr → Access
  | some (.typeRef target _) => { owner := some target, isStatic := true }
  | some e => { receiver := some e, owner := some e.type }
  | none => {}

/-- The types whose members are searched. Templates have members over their own type parameters
and are left out, unless the access is to the template itself. -/
def Access.search (r : Registry) (fuel : Nat) (a : Access) : Option (List TypeId) :=
  match a.owner with
  | none => some []
  | some owner => do
    return (← r.convertible fuel owner).filter fun t ↦ t = owner || (r.typeParams t).isEmpty

def tryDispatch (fuel : Nat) (site : CallSite) (receiver : Option Expr) (members : List Method)
    (args : List Expr) : Reduction (Option Expr) :=
  if members.isEmpty then return none else dispatchAt fuel site receiver members args

def methodsOf (r : Registry) (site : CallSite) (a : Access) (search : List TypeId) :
    Option String → List Method
  | none => []
  | some name =>
    if site.wants (·.method) then
      search.flatMap (r.methods · name) ++ if a.isStatic then [] else r.extensionsNamed name
    else []

def constructorsOf (r : Registry) (site : CallSite) (a : Access) : List Method :=
  match a.owner with
  | none => []
  | some target => if a.isStatic && site.wants (·.constructor) then r.constructors target else []

def membersOf (r : Registry) (site : CallSite) (a : Access) (search : List TypeId) :
    Option String → List Member
  | none => []
  | some name =>
    if site.wants (·.member) && site.typeArgs.isEmpty then
      (search.flatMap (r.members · name)).filter (·.isStatic == a.isStatic)
    else []

/-- Looks for methods, then constructors, then fields and properties. An access without a name is
to the default member. -/
def accessLive (fuel : Nat) (site : CallSite) : Reduction Expr := do
  let args ← site.reduceArgs
  let access := Access.ofReceiver site.receiver
  let search ← .ask fun s ↦ access.search s.types fuel
  let types := (← .get).types
  let name := if site.name.isEmpty then search.findSome? types.defaultMember? else some site.name
  let described ← describeArgs args
  let methods := methodsOf types site access search name
  match ← tryDispatch fuel site access.receiver methods args with
  | some e => return e
  | none => do
    let constructors := constructorsOf (← .get).types site access
    match ← tryDispatch fuel site none constructors args with
    | some e => return e
    | none => do
      let types := (← .get).types
      let members := membersOf types site access search name
      match accessMember types access.receiver members args with
      | some e => return e
      | none =>
        let shown := name.getD site.name
        if methods.isEmpty && constructors.isEmpty && members.isEmpty then
          .fail (.undefinedSymbol shown site.span)
        else .fail (.noMatchingOverload shown described site.span)

end CallResolution.Reduction
