import CallResolution.Conversion
import CallResolution.Proofs.Registry.Instantiation

namespace CallResolution

/-! The handles that a declaration or an expression gives cause to look up. The owner of a method and
the type parameters of a type are not among them, which are only compared with others. -/

def TypeKind.handles : TypeKind → List TypeId
  | delegate s => s.mentioned
  | parameter info => info.bounds
  | static target => [target]
  | classType | valueType | interfaceType => []

def Method.handles (d : Method) : List TypeId := d.mentioned ++ d.typeParams

def Field.handles (d : Field) : List TypeId := [d.type, d.owner]

def Property.handles (d : Property) : List TypeId := d.owner :: d.mentioned

def Member.handles : Member → List TypeId
  | field d => d.handles
  | property d => d.handles

def TypeDecl.handles (d : TypeDecl) : List TypeId :=
  d.base.toList ++ d.interfaces ++ d.kind.handles ++ d.template.toList ++ d.typeArgs ++
    d.methods.flatMap Method.handles ++ d.constructors.flatMap Method.handles ++
    d.fields.flatMap Field.handles ++ d.properties.flatMap Property.handles

def Expr.handles : Expr → List TypeId
  | lambda params body t => t :: body.type :: params.map Param.type
  | typeRef target t => [t, target]
  | e => [e.type]

/-- Where a declaration gives cause to look a handle up. -/
inductive TypeDecl.Handle (d : TypeDecl) (t : TypeId) : Prop
  | base (h : d.base = some t)
  | interface (h : t ∈ d.interfaces)
  | kind (h : t ∈ d.kind.handles)
  | template (h : d.template = some t)
  | typeArg (h : t ∈ d.typeArgs)
  | method {m : Method} (hm : m ∈ d.methods) (h : t ∈ m.handles)
  | constructor {m : Method} (hm : m ∈ d.constructors) (h : t ∈ m.handles)
  | field {f : Field} (hf : f ∈ d.fields) (h : t ∈ f.handles)
  | property {p : Property} (hp : p ∈ d.properties) (h : t ∈ p.handles)

theorem TypeDecl.mem_handles_iff {d : TypeDecl} {t : TypeId} : t ∈ d.handles ↔ d.Handle t := by
  simp only [handles, List.mem_append, List.mem_flatMap, Option.mem_toList, or_assoc]
  constructor
  · rintro (h | h | h | h | h | ⟨m, hm, h⟩ | ⟨m, hm, h⟩ | ⟨f, hf, h⟩ | ⟨p, hp, h⟩)
    · exact .base h
    · exact .interface h
    · exact .kind h
    · exact .template h
    · exact .typeArg h
    · exact .method hm h
    · exact .constructor hm h
    · exact .field hf h
    · exact .property hp h
  · intro h
    cases h <;> grind

theorem Method.mem_handles_iff {d : Method} {t : TypeId} :
    t ∈ d.handles ↔ t ∈ d.paramTypes ∨ t = d.result ∨ t ∈ d.typeParams := by
  simp only [handles, mentioned, paramTypes, List.mem_append, List.mem_singleton, or_assoc]

theorem Method.mem_handles_of_mem_paramTypes {d : Method} {t : TypeId} (h : t ∈ d.paramTypes) :
    t ∈ d.handles := mem_handles_iff.2 (.inl h)

theorem Method.result_mem_handles (d : Method) : d.result ∈ d.handles :=
  mem_handles_iff.2 (.inr (.inl rfl))

theorem Method.mem_handles_of_mem_typeParams {d : Method} {t : TypeId} (h : t ∈ d.typeParams) :
    t ∈ d.handles := mem_handles_iff.2 (.inr (.inr h))

theorem TypeDecl.mem_handles_of_mem_mentioned {d : TypeDecl} {t : TypeId} (h : t ∈ d.mentioned) :
    t ∈ d.handles := by
  rw [mem_handles_iff]
  simp only [mentioned, List.mem_append, List.mem_flatMap, Option.mem_toList, List.mem_map] at h
  rcases h with h | h | h | ⟨m, hm, h⟩ | ⟨m, hm, p, hp, rfl⟩ | ⟨f, hf, rfl⟩ | ⟨p, hp, h⟩
  · exact .base h
  · exact .interface h
  · refine .kind ?_
    cases hk : d.kind <;> rw [hk] at h
    case delegate => exact h
    all_goals cases h
  · exact .method hm (List.mem_append_left _ h)
  · have hmem : p.type ∈ m.paramTypes := List.mem_map_of_mem hp
    exact .constructor hm (Method.mem_handles_of_mem_paramTypes hmem)
  · exact .field hf List.mem_cons_self
  · exact .property hp (List.mem_cons_of_mem _ h)

theorem Expr.type_mem_handles (e : Expr) : e.type ∈ e.handles := by
  cases e <;> simp [handles, type]

namespace Registry

variable {void : TypeId → Prop} {r r' s : Registry} {t u : TypeId} {d : TypeDecl}

/-- The handle is known, or it is void: nothing is going to be known under it. -/
def Accounted (void : TypeId → Prop) (r : Registry) (t : TypeId) : Prop := r.contains t = true ∨ void t

theorem Accounted.mono (h : Accounted void r t)
    (hknown : ∀ t, r.contains t = true → r'.contains t = true) : Accounted void r' t :=
  h.imp_left (hknown t)

/-- The handles that come up without being mentioned. -/
def basics : List TypeId := [.object, .bool, .int, .float, .string, .lambda]

/-- Whatever the registry gives cause to look up is accounted for. -/
structure Closed (void : TypeId → Prop) (r : Registry) : Prop where
  basic : ∀ t ∈ basics, Accounted void r t
  decl : ∀ t d, r.find? t = some d → ∀ u ∈ d.handles, Accounted void r u
  extensions : ∀ m ∈ r.extensions, ∀ u ∈ m.handles, Accounted void r u

namespace Closed

variable (h : Closed void r)

include h

theorem object : Accounted void r .object := h.basic _ (by simp [basics])

theorem base? (hu : r.base? t = some u) : Accounted void r u := by
  obtain ⟨d, hd, hu⟩ := Option.bind_eq_some_iff.1 hu
  split at hu
  · cases hu
    exact h.object
  · exact h.decl t d hd u (TypeDecl.mem_handles_iff.2 (.base hu))

theorem kind (hd : r.find? t = some d) (hu : u ∈ d.kind.handles) : Accounted void r u :=
  h.decl t d hd u (TypeDecl.mem_handles_iff.2 (.kind hu))

theorem paramInfo? {info : TypeParam} (hi : r.paramInfo? t = some info) (hu : u ∈ info.bounds) :
    Accounted void r u := by
  obtain ⟨d, hd, hi⟩ := Option.bind_eq_some_iff.1 hi
  refine h.kind hd ?_
  unfold TypeDecl.paramInfo at hi
  split at hi
  · rename_i hk
    cases hi
    rw [hk]
    exact hu
  · cases hi

theorem interfaces (hu : u ∈ r.interfaces t) : Accounted void r u := by
  unfold Registry.interfaces at hu
  cases hd : r.find? t with
  | none =>
    rw [hd] at hu
    cases hu
  | some d =>
    simp only [hd] at hu
    cases hi : d.paramInfo with
    | none =>
      rw [hi] at hu
      exact h.decl t d hd u (TypeDecl.mem_handles_iff.2 (.interface hu))
    | some info =>
      rw [hi] at hu
      exact h.paramInfo? (Option.bind_eq_some_iff.2 ⟨d, hd, hi⟩) hu

theorem template? (hu : r.template? t = some u) : Accounted void r u := by
  obtain ⟨d, hd, hu⟩ := Option.bind_eq_some_iff.1 hu
  exact h.decl t d hd u (TypeDecl.mem_handles_iff.2 (.template hu))

theorem typeArgs (hu : u ∈ r.typeArgs t) : Accounted void r u := by
  unfold Registry.typeArgs at hu
  cases hd : r.find? t with
  | none =>
    rw [hd] at hu
    cases hu
  | some d =>
    rw [hd] at hu
    exact h.decl t d hd u (TypeDecl.mem_handles_iff.2 (.typeArg hu))

theorem elementType? (hu : r.elementType? t = some u) : Accounted void r u := by
  unfold Registry.elementType? at hu
  split at hu
  · exact h.typeArgs (List.mem_of_head? hu)
  · cases hu

theorem signature? {sig : Signature} (hs : r.signature? t = some sig) (hu : u ∈ sig.mentioned) :
    Accounted void r u := by
  obtain ⟨d, hd, hs⟩ := Option.bind_eq_some_iff.1 hs
  refine h.kind hd ?_
  unfold TypeDecl.signature at hs
  split at hs
  · rename_i hk
    cases hs
    rw [hk]
    exact hu
  · cases hs

theorem staticTarget? (hu : r.staticTarget? t = some u) : Accounted void r u := by
  obtain ⟨d, hd, hu⟩ := Option.bind_eq_some_iff.1 hu
  refine h.kind hd ?_
  unfold TypeDecl.staticTarget at hu
  split at hu
  · rename_i hk
    cases hu
    rw [hk]
    exact List.mem_cons_self
  · cases hu

theorem methods {name : String} {m : Method} (hm : m ∈ r.methods t name) (hu : u ∈ m.handles) :
    Accounted void r u := by
  unfold Registry.methods at hm
  cases hd : r.find? t with
  | none =>
    rw [hd] at hm
    cases hm
  | some d =>
    rw [hd] at hm
    have hmem := (List.mem_filter.1 hm).1
    exact h.decl t d hd u (TypeDecl.mem_handles_iff.2 (.method hmem hu))

theorem constructors {m : Method} (hm : m ∈ r.constructors t) (hu : u ∈ m.handles) :
    Accounted void r u := by
  unfold Registry.constructors at hm
  cases hd : r.find? t with
  | none =>
    rw [hd] at hm
    cases hm
  | some d =>
    rw [hd] at hm
    exact h.decl t d hd u (TypeDecl.mem_handles_iff.2 (.constructor hm hu))

theorem members {name : String} {m : Member} (hm : m ∈ r.members t name) (hu : u ∈ m.handles) :
    Accounted void r u := by
  unfold Registry.members at hm
  cases hd : r.find? t with
  | none =>
    rw [hd] at hm
    cases hm
  | some d =>
    simp only [hd, Option.map_some, Option.getD_some, TypeDecl.membersNamed, List.mem_append,
      List.mem_map, List.mem_filter] at hm
    refine h.decl t d hd u (TypeDecl.mem_handles_iff.2 ?_)
    rcases hm with ⟨f, ⟨hf, -⟩, rfl⟩ | ⟨p, ⟨hp, -⟩, rfl⟩
    · exact .field hf hu
    · exact .property hp hu

end Closed

/-- What is accounted for in `r` is looked up in `s` as it is there, and nothing leads out of that. -/
structure Agrees (void : TypeId → Prop) (r s : Registry) : Prop where
  find? : ∀ t, Accounted void r t → s.find? t = r.find? t
  extensions : s.extensions = r.extensions
  closed : Closed void r

theorem Agrees.describeAll (h : Agrees void r s) {ts : List TypeId}
    (hts : ∀ t ∈ ts, Accounted void r t) : s.describeAll ts = r.describeAll ts := by
  have hnames : ts.map s.describe = ts.map r.describe := by
    refine List.map_congr_left fun t ht ↦ ?_
    rw [describe, describe, name?, name?, h.find? t (hts t ht)]
  rw [Registry.describeAll, Registry.describeAll, hnames]

end Registry

end CallResolution
