import CallResolution.Expr
import CallResolution.Registry.Basic

namespace CallResolution

/-- The member takes the arguments of an access: none, or any if it is the default indexer. -/
def Member.takes (r : Registry) (d : Member) (args : List Expr) : Bool :=
  args.isEmpty || (d.isIndexer && r.defaultMember? d.owner == some d.name)

def accessMember (r : Registry) (receiver : Option Expr) (members : List Member)
    (args : List Expr) : Option Expr := do
  let d ← members.find? (·.takes r args)
  return .member (if d.isStatic then none else receiver) d args d.type

end CallResolution
