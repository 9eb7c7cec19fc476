import CallResolution.Proofs.Answer
import CallResolution.Proofs.Registry.Confluence

namespace CallResolution

open Attempt

variable {becomes : TypeId → TypeId → Prop}

structure Param.Image (becomes : TypeId → TypeId → Prop) (p q : Param) : Prop where
  name : q.name = p.name
  type : becomes p.type q.type

/-- The method is found on `owner` from now on and is identified there by its new parameters. -/
structure Method.Image (becomes : TypeId → TypeId → Prop) (owner : TypeId) (m n : Method) : Prop where
  params : List.Forall₂ (Param.Image becomes) m.params n.params
  result : becomes m.result n.result
  rest : n = { m with
    owner := owner, id := .ofMethod owner m.name n.paramTypes, params := n.params, result := n.result }

/-- A constructor of an instance makes that instance and goes by its name. -/
structure Method.ConstructorImage (becomes : TypeId → TypeId → Prop) (header : TypeDecl) (m n : Method) :
    Prop where
  params : List.Forall₂ (Param.Image becomes) m.params n.params
  rest : n = { Method.construct header.id header.name n.params with isVariadic := m.isVariadic }

structure Field.Image (becomes : TypeId → TypeId → Prop) (owner : TypeId) (f g : Field) : Prop where
  type : becomes f.type g.type
  rest : g = { f with owner := owner, type := g.type }

structure Property.Image (becomes : TypeId → TypeId → Prop) (owner : TypeId) (p q : Property) : Prop where
  type : becomes p.type q.type
  index : List.Forall₂ (Param.Image becomes) p.index q.index
  rest : q = { p with owner := owner, type := q.type, index := q.index }

/-- Only the signature of a delegate mentions types that are replaced. -/
inductive TypeKind.Image (becomes : TypeId → TypeId → Prop) : TypeKind → TypeKind → Prop
  | delegate {s s' : Signature} (params : List.Forall₂ becomes s.params s'.params)
      (result : becomes s.result s'.result) : Image becomes (.delegate s) (.delegate s')
  | other {kind : TypeKind} (h : ∀ s, kind ≠ .delegate s) : Image becomes kind kind

/-- `e` has what the header says and the parts of `d`, one for one and in the same order. -/
structure TypeDecl.Image (becomes : TypeId → TypeId → Prop) (d header e : TypeDecl) : Prop
    extends Registry.Completes header e where
  base : Option.Rel becomes d.base e.base
  interfaces : List.Forall₂ becomes d.interfaces e.interfaces
  kind : d.kind.Image becomes e.kind
  methods : List.Forall₂ (Method.Image becomes header.id) d.methods e.methods
  constructors : List.Forall₂ (Method.ConstructorImage becomes header) d.constructors e.constructors
  fields : List.Forall₂ (Field.Image becomes header.id) d.fields e.fields
  properties : List.Forall₂ (Property.Image becomes header.id) d.properties e.properties

namespace Registry

variable {look : TypeId → Option TypeId} {header d e : TypeDecl}

theorem mapM_eq_some_iff_forall₂ {α β : Type} {f : α → Option β} {xs : List α} {ys : List β} :
    xs.mapM f = some ys ↔ List.Forall₂ (fun x y ↦ f x = some y) xs ys := by
  rw [mapM_eq_some_iff, ← List.forall₂_eq_eq_eq, List.forall₂_map_left_iff, List.forall₂_map_right_iff]

theorem forall₂_of_mapM {α β : Type} {f : α → Option β} {R : α → β → Prop}
    (hf : ∀ a b, f a = some b → R a b) {xs : List α} {ys : List β} (h : xs.mapM f = some ys) :
    List.Forall₂ R xs ys := (mapM_eq_some_iff_forall₂.1 h).imp hf

variable (hlook : ∀ t v, look t = some v → becomes t v)

include hlook

theorem image_params {ps qs : List Param} (h : ps.mapM (Param.mapTypes look) = some qs) :
    List.Forall₂ (Param.Image becomes) ps qs := by
  refine forall₂_of_mapM (fun p q hpq ↦ ?_) h
  obtain ⟨v, hv, hpq⟩ := Option.bind_eq_some_iff.1 hpq
  cases hpq
  exact ⟨rfl, hlook _ _ hv⟩

theorem image_base {t v : Option TypeId} (h : t.mapM look = some v) : Option.Rel becomes t v := by
  cases t with
  | none =>
    cases h
    exact .none
  | some t =>
    obtain ⟨u, hu, rfl⟩ := Option.map_eq_some_iff.1 h
    exact .some (hlook t u hu)

theorem image_kind {kind kind' : TypeKind} (h : instanceKind look kind = some kind') :
    kind.Image becomes kind' := by
  cases kind with
  | delegate s =>
    obtain ⟨s', hs', h⟩ := Option.bind_eq_some_iff.1 h
    cases h
    obtain ⟨params, hparams, hs'⟩ := Option.bind_eq_some_iff.1 hs'
    obtain ⟨result, hresult, hs'⟩ := Option.bind_eq_some_iff.1 hs'
    cases hs'
    exact .delegate (forall₂_of_mapM hlook hparams) (hlook _ _ hresult)
  | classType | valueType | interfaceType | parameter _ | static _ =>
    cases h
    exact .other fun _ h ↦ by cases h

theorem image_method {owner : TypeId} {m n : Method} (h : instanceMethod look owner m = some n) :
    m.Image becomes owner n := by
  obtain ⟨m', hm', h⟩ := Option.bind_eq_some_iff.1 h
  obtain ⟨params, hparams, hm'⟩ := Option.bind_eq_some_iff.1 hm'
  obtain ⟨result, hresult, hm'⟩ := Option.bind_eq_some_iff.1 hm'
  cases hm'
  cases h
  exact ⟨image_params hlook hparams, hlook _ _ hresult, rfl⟩

theorem image_constructor {m n : Method} (h : instanceConstructor look header m = some n) :
    m.ConstructorImage becomes header n := by
  obtain ⟨params, hparams, h⟩ := Option.bind_eq_some_iff.1 h
  cases h
  exact ⟨image_params hlook hparams, rfl⟩

theorem image_field (owner : TypeId) {f g : Field} (h : f.mapTypes look = some g) :
    f.Image becomes owner { g with owner := owner } := by
  obtain ⟨v, hv, h⟩ := Option.bind_eq_some_iff.1 h
  cases h
  exact ⟨hlook _ _ hv, rfl⟩

theorem image_property (owner : TypeId) {p q : Property} (h : p.mapTypes look = some q) :
    p.Image becomes owner { q with owner := owner } := by
  obtain ⟨v, hv, h⟩ := Option.bind_eq_some_iff.1 h
  obtain ⟨index, hindex, h⟩ := Option.bind_eq_some_iff.1 h
  cases h
  exact ⟨hlook _ _ hv, image_params hlook hindex, rfl⟩

theorem image_instanceDecl (h : instanceDecl look header d = some e) : d.Image becomes header e := by
  unfold instanceDecl at h
  obtain ⟨base, hbase, h⟩ := Option.bind_eq_some_iff.1 h
  obtain ⟨interfaces, hinterfaces, h⟩ := Option.bind_eq_some_iff.1 h
  obtain ⟨kind, hkind, h⟩ := Option.bind_eq_some_iff.1 h
  obtain ⟨methods, hmethods, h⟩ := Option.bind_eq_some_iff.1 h
  obtain ⟨constructors, hconstructors, h⟩ := Option.bind_eq_some_iff.1 h
  obtain ⟨fields, hfields, h⟩ := Option.bind_eq_some_iff.1 h
  obtain ⟨properties, hproperties, h⟩ := Option.bind_eq_some_iff.1 h
  cases h
  exact {
    name := rfl
    id := rfl
    typeParams := rfl
    template := rfl
    typeArgs := rfl
    defaultMember := rfl
    base := image_base hlook hbase
    interfaces := forall₂_of_mapM hlook hinterfaces
    kind := image_kind hlook hkind
    methods := forall₂_of_mapM (fun _ _ ↦ image_method hlook) hmethods
    constructors := forall₂_of_mapM (fun _ _ ↦ image_constructor hlook) hconstructors
    fields := List.forall₂_map_right_iff.2 (forall₂_of_mapM (fun _ _ ↦ image_field hlook header.id) hfields)
    properties := List.forall₂_map_right_iff.2
      (forall₂_of_mapM (fun _ _ ↦ image_property hlook header.id) hproperties) }

omit hlook

variable {r r' : Registry} {fuel : Nat} {map : Substitution} {t v template : TypeId} {ts args : List TypeId}

open Classical in
/-- What becomes of `t` if nothing has to be made for it. -/
noncomputable def image? (r : Registry) (map : Substitution) (t : TypeId) : Option TypeId :=
  if h : ∃ v, r.Becomes map t v then some h.choose else none

theorem image?_eq_some_iff : r.image? map t = some v ↔ r.Becomes map t v := by
  unfold image?
  constructor
  · intro h
    split at h
    · rename_i hex
      cases h
      exact hex.choose_spec
    · cases h
  · intro h
    have hex : ∃ v, r.Becomes map t v := ⟨v, h⟩
    rw [dif_pos hex, hex.choose_spec.unique h]

theorem image_filled (header : TypeDecl) (h : List.Forall₂ (r.Becomes map) d.mentioned ts) :
    d.Image (r.Becomes map) header (filled header d ts) := by
  have hlook : d.mentioned.mapM (r.image? map) = some ts :=
    mapM_eq_some_iff_forall₂.2 (h.imp fun _ _ ↦ image?_eq_some_iff.2)
  refine image_instanceDecl (fun t v (ht : r.image? map t = some v) ↦ image?_eq_some_iff.1 ht) ?_
  rw [instanceDecl_eq, hlook]
  rfl

/-- A new instance is the image of its template: provided that all is known that the template consists of,
its parts are those of the template, and whatever type stands there has become what the substitution makes
of it in the registry that has come out. -/
theorem instantiate_image (hnew : r.contains (.ofInstance template args) = false)
    (hd : r.find? template = some d) (hmentioned : ∀ t ∈ d.mentioned, r.Whole t)
    (h : instantiate fuel template args r = .done t r') :
    t = .ofInstance template args ∧ ∃ e, r'.find? t = some e ∧
      d.Image (r'.Becomes (.ofList (d.typeParams.zip args))) (r.instanceHeader d template args) e := by
  cases fuel with
  | zero => cases h
  | succ fuel =>
    rw [instantiate_eq_done_iff] at h
    cases h with
    | known hknown => simp [hnew] at hknown
    | new hnew' hwalk =>
      rename_i d' ts r₁
      cases hd.symm.trans hnew'.found
      have hheader : Grows r (r.insertInstance (r.instanceHeader d template args)) := .insertInstance hnew
      have hgrows : Grows (r.insertInstance (r.instanceHeader d template args)) r₁ :=
        (Along.mapM _ (grows_substitute fuel _)).of_done hwalk
      have hid := (completes_filled (r.instanceHeader d template args) hwalk).id
      refine ⟨rfl, filled (r.instanceHeader d template args) d ts, ?_, image_filled _ ?_⟩
      · exact (find?_complete hnew hgrows hid _).trans (if_pos rfl)
      -- the header looks as the finished instance does to all that was made while it stood there
      · exact forall₂_becomes hmentioned (.complete hnew hgrows hid) hheader hwalk
          (leads_complete hnew hgrows hid (sameShape_filled rfl hwalk))

def chain : TypeId := .ofName "Chain"
def link : TypeId := .ofParam "Chain" "T"

/-- A chain goes on with a chain of the same kind. -/
def chainDecl : TypeDecl where
  name := "Chain"
  id := chain
  kind := .classType
  base := some .object
  typeParams := [link]
  methods := [.onInstance chain "push" [⟨"item", link⟩] (.ofInstance chain [link])]
  constructors := [.construct chain "Chain" [⟨"first", link⟩, ⟨"next", .ofInstance chain [link]⟩]]
  fields := [{ name := "next", owner := chain, type := .ofInstance chain [link] }]

def makeChain : Attempt Registry RegistrationError TypeId := do
  let item ← registerParam "T" { owner := "Chain", index := 0 }
  let _ ← register chainDecl
  instantiate 3 chain [item]

def chainTypes : Registry := (makeChain builtin).state?.getD {}

theorem instantiate_image_chain :
    (∀ t ∈ chainDecl.mentioned, chainTypes.Whole t) ∧
      ∃ e, (chainTypes.instantiated 5 chain [.int]).find? (.ofInstance chain [.int]) = some e ∧
        e.fields.map Field.type = [.ofInstance chain [.int]] ∧
        chainDecl.Image ((chainTypes.instantiated 5 chain [.int]).Becomes (.ofList [(link, .int)]))
          (chainTypes.instanceHeader chainDecl chain [.int]) e := by
  have hwhole : ∀ t ∈ chainDecl.mentioned, chainTypes.Whole t := by
    intro t ht
    refine whole_of_parts [.object, link, .ofInstance chain [link]] ?_ (by decide +kernel) (by decide +kernel)
    revert t
    decide +kernel
  have hrun : instantiate 5 chain [.int] chainTypes =
      .done (.ofInstance chain [.int]) (chainTypes.instantiated 5 chain [.int]) :=
    instantiate_eq_done (by decide +kernel)
  obtain ⟨-, e, he, himage⟩ := instantiate_image (d := chainDecl) (by decide +kernel) (by decide +kernel) hwhole
    hrun
  refine ⟨hwhole, e, he, ?_, himage⟩
  have hfields : ((chainTypes.instantiated 5 chain [.int]).find? (.ofInstance chain [.int])).map
      (fun e ↦ e.fields.map Field.type) = some [.ofInstance chain [.int]] := by decide +kernel
  rw [he] at hfields
  exact Option.some.inj hfields

end Registry

end CallResolution
