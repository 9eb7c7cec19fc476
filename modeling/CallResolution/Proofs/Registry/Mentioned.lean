import CallResolution.Registry.Instance
import Mathlib.Data.List.Basic
import Mathlib.Tactic.Choose

namespace CallResolution

variable {α β : Type}

def Signature.mentioned (s : Signature) : List TypeId := s.params ++ [s.result]

def Method.mentioned (d : Method) : List TypeId := d.params.map Param.type ++ [d.result]

def Property.mentioned (d : Property) : List TypeId := d.type :: d.index.map Param.type

def TypeKind.mentioned : TypeKind → List TypeId
  | delegate s => s.mentioned
  | _ => []

/-- The types that a declaration mentions, in the order in which an instance of it asks for them. -/
def TypeDecl.mentioned (d : TypeDecl) : List TypeId :=
  d.base.toList ++ (d.interfaces ++ (d.kind.mentioned ++ (d.methods.flatMap Method.mentioned ++
    (d.constructors.flatMap (·.params.map Param.type) ++ (d.fields.map Field.type ++
      d.properties.flatMap Property.mentioned)))))

theorem mapM_bind_congr {m : Type → Type} [Monad m] [LawfulMonad m] {f : α → m β} {xs : List α}
    {γ : Type} {k k' : List β → m γ} (h : ∀ ys, ys.length = xs.length → k ys = k' ys) :
    (xs.mapM f >>= k) = xs.mapM f >>= k' := by
  induction xs generalizing k k' with
  | nil =>
    rw [List.mapM_nil, pure_bind, pure_bind]
    exact h [] rfl
  | cons x xs ih =>
    rw [List.mapM_cons, bind_assoc, bind_assoc]
    congr 1
    funext y
    simp only [bind_assoc, pure_bind]
    apply ih
    intro ys hys
    exact h (y :: ys) (by rw [List.length_cons, List.length_cons, hys])

/-- Whatever is done to a type, `walk` does it to the types `ts` from left to right, and builds its
result from what comes out. -/
def Walks (ts : List TypeId)
    (walk : (m : Type → Type) → [Monad m] → (TypeId → m TypeId) → m α) : Prop :=
  ∃ build : List TypeId → α, ∀ (m : Type → Type) [Monad m] [LawfulMonad m] (f : TypeId → m TypeId),
    walk m f = build <$> ts.mapM f

namespace Walks

variable {ts us : List TypeId}

theorem pure (a : α) : Walks [] fun _ _ _ ↦ Pure.pure a :=
  ⟨fun _ ↦ a, fun m _ _ f ↦ by rw [List.mapM_nil, map_pure]⟩

theorem one (t : TypeId) : Walks [t] fun _ _ f ↦ f t := by
  refine ⟨fun ts ↦ ts.headD t, fun m _ _ f ↦ ?_⟩
  simp only [List.mapM_cons, List.mapM_nil, pure_bind, map_bind, map_pure, List.headD_cons, bind_pure]

theorem bind {walk : (m : Type → Type) → [Monad m] → (TypeId → m TypeId) → m α}
    {next : (m : Type → Type) → [Monad m] → (TypeId → m TypeId) → α → m β} (hx : Walks ts walk)
    (hy : ∀ a, Walks us fun m _ f ↦ next m f a) :
    Walks (ts ++ us) fun m _ f ↦ walk m f >>= next m f := by
  obtain ⟨build, hbuild⟩ := hx
  choose rebuild hrebuild using hy
  dsimp only at hrebuild
  refine ⟨fun vs ↦ rebuild (build (vs.take ts.length)) (vs.drop ts.length), fun m _ _ f ↦ ?_⟩
  have hsplit : ∀ vs : List TypeId, vs.length = ts.length →
      next m f (build vs) = us.mapM f >>= fun ws ↦ Pure.pure (rebuild (build ((vs ++ ws).take ts.length))
        ((vs ++ ws).drop ts.length)) := by
    intro vs hvs
    rw [hrebuild, ← bind_pure_comp]
    simp only [← hvs, List.take_left, List.drop_left]
  dsimp only
  rw [hbuild, List.mapM_append, ← bind_pure_comp, ← bind_pure_comp]
  simp only [bind_assoc, pure_bind]
  exact mapM_bind_congr hsplit

theorem map {walk : (m : Type → Type) → [Monad m] → (TypeId → m TypeId) → m α} (g : α → β)
    (hx : Walks ts walk) : Walks ts fun m _ f ↦ walk m f >>= fun a ↦ Pure.pure (g a) := by
  have h := hx.bind fun a ↦ pure (g a)
  rwa [List.append_nil] at h

theorem mapM {γ : Type} {walk : (m : Type → Type) → [Monad m] → (TypeId → m TypeId) → γ → m α}
    {mentioned : γ → List TypeId} (hx : ∀ c, Walks (mentioned c) fun m _ f ↦ walk m f c)
    (cs : List γ) : Walks (cs.flatMap mentioned) fun m _ f ↦ cs.mapM (walk m f) := by
  induction cs with
  | nil =>
    refine ⟨fun _ ↦ [], fun m _ _ f ↦ ?_⟩
    dsimp only
    rw [List.flatMap_nil, List.mapM_nil, List.mapM_nil, map_pure]
  | cons c cs ih =>
    obtain ⟨build, hbuild⟩ := (hx c).bind fun a ↦ ih.map (a :: ·)
    refine ⟨build, fun m _ _ f ↦ ?_⟩
    dsimp only
    rw [List.mapM_cons, List.flatMap_cons]
    exact hbuild m f

theorem types (ts : List TypeId) : Walks ts fun _ _ f ↦ ts.mapM f :=
  ⟨id, fun m _ _ f ↦ by rw [id_map]⟩

end Walks

namespace Registry

theorem walks_params (ps : List Param) :
    Walks (ps.map Param.type) fun _ _ f ↦ ps.mapM (Param.mapTypes f) := by
  have h := Walks.mapM (fun p : Param ↦ (Walks.one p.type).map fun t ↦ { p with type := t }) ps
  rwa [← List.map_eq_flatMap] at h

theorem walks_signature (s : Signature) : Walks s.mentioned fun _ _ f ↦ s.mapTypes f :=
  (Walks.types s.params).bind fun _ ↦ (Walks.one s.result).map _

theorem walks_method (d : Method) : Walks d.mentioned fun _ _ f ↦ d.mapTypes f :=
  (walks_params d.params).bind fun _ ↦ (Walks.one d.result).map _

theorem walks_property (d : Property) : Walks d.mentioned fun _ _ f ↦ d.mapTypes f :=
  (Walks.one d.type).bind fun _ ↦ (walks_params d.index).map _

theorem walks_base (t : Option TypeId) : Walks t.toList fun _ _ f ↦ t.mapM f := by
  cases t with
  | none => exact .pure none
  | some t =>
    obtain ⟨build, hbuild⟩ := (Walks.one t).map some
    refine ⟨build, fun m _ _ f ↦ ?_⟩
    have h := hbuild m f
    dsimp only at h
    rwa [bind_pure_comp] at h

theorem walks_kind (k : TypeKind) : Walks k.mentioned fun _ _ f ↦ instanceKind f k := by
  cases k with
  | delegate s => exact (walks_signature s).map TypeKind.delegate
  | classType | valueType | interfaceType | parameter _ | static _ => exact .pure _

theorem walks_fields (fs : List Field) :
    Walks (fs.map Field.type) fun _ _ f ↦ fs.mapM (Field.mapTypes f) := by
  have h := Walks.mapM (fun d : Field ↦ (Walks.one d.type).map fun t ↦ { d with type := t }) fs
  rwa [← List.map_eq_flatMap] at h

/-- An instance asks for the types that its template mentions, one after another. -/
theorem walks_instanceDecl (header d : TypeDecl) :
    Walks d.mentioned fun _ _ f ↦ instanceDecl f header d := by
  refine (walks_base d.base).bind fun _ ↦ (Walks.types d.interfaces).bind fun _ ↦
    (walks_kind d.kind).bind fun _ ↦ ?_
  refine (Walks.mapM (fun d ↦ (walks_method d).map _) d.methods).bind fun _ ↦ ?_
  refine (Walks.mapM (fun d ↦ (walks_params d.params).map _) d.constructors).bind fun _ ↦ ?_
  exact (walks_fields d.fields).bind fun _ ↦ (Walks.mapM walks_property d.properties).map _

end Registry

end CallResolution
