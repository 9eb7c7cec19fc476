import CallResolution.Registry.Basic

namespace CallResolution.Registry

def objectDecl : TypeDecl := { name := "object", id := .object, kind := .classType }

def plainDecl (name : String) (id : TypeId) (kind : TypeKind) : TypeDecl :=
  { name := name, id := id, kind := kind, base := some .object }

def elementDecl : TypeDecl :=
  { name := "T", id := .arrayElement, kind := .parameter { owner := "array", index := 0 } }

def arrayDecl : TypeDecl where
  name := "array"
  id := .array
  kind := .classType
  base := some .object
  typeParams := [.arrayElement]
  properties :=
    [{ name := "Length", owner := .array, type := .int },
     { name := "Item", owner := .array, type := .arrayElement, index := [⟨"index", .int⟩] }]
  defaultMember := some "Item"
  methods := [.onInstance .array "push" [⟨"item", .arrayElement⟩] .void]

def builtin : Registry :=
  let plain := [plainDecl "void" .void .valueType, plainDecl "bool" .bool .valueType,
    plainDecl "int" .int .valueType, plainDecl "float" .float .valueType,
    plainDecl "string" .string .valueType, plainDecl "lambda" .lambda .classType]
  ((plain.foldl insert (({} : Registry).insert objectDecl)).insertParam elementDecl).insert arrayDecl

end CallResolution.Registry
