import CallResolution.Proofs.Registry.Growth
import CallResolution.Registry.Builtin

namespace CallResolution

open Attempt

theorem Dictionary.mem_of_get {κ α : Type} [DecidableEq κ] {k : κ} {a : α} {es : List (κ × α)}
    (h : get k es = some a) : (k, a) ∈ es := by
  induction es with
  | nil => cases h
  | cons e es ih =>
    obtain ⟨l, b⟩ := e
    rw [get] at h
    split at h
    · rename_i hl
      cases h
      exact hl ▸ List.mem_cons_self
    · exact List.mem_cons_of_mem _ (ih h)

/-- Every member names the declaration as its owner. -/
structure TypeDecl.OwnsMembers (d : TypeDecl) : Prop where
  methods : ∀ m ∈ d.methods, m.owner = d.id
  fields : ∀ f ∈ d.fields, f.owner = d.id
  properties : ∀ p ∈ d.properties, p.owner = d.id

/-- What makes the type an instance is left to instantiation. -/
structure TypeDecl.IsDeclaration (d : TypeDecl) : Prop where
  template : d.template = none
  typeArgs : d.typeArgs = []

namespace Registry

variable {r r' : Registry} {admitted admitted' : TypeDecl → Prop}

/-- One operation on a registry, whether it succeeds or fails. The declarations that are registered
are `admitted`. -/
inductive Step (admitted : TypeDecl → Prop) : Registry → Registry → Prop
  | register {r r' : Registry} {d : TypeDecl} (hd : admitted d)
      (h : (register d r).state? = some r') : Step admitted r r'
  | registerParam {r r' : Registry} {name : String} {info : TypeParam}
      (h : (registerParam name info r).state? = some r') : Step admitted r r'
  | addExtension (r : Registry) (m : Method) : Step admitted r (r.addExtension m)
  | staticWrapper {r r' : Registry} {target : TypeId}
      (h : (staticWrapper target r).state? = some r') : Step admitted r r'
  | instantiate {r r' : Registry} {fuel : Nat} {template : TypeId} {args : List TypeId}
      (h : (instantiate fuel template args r).state? = some r') : Step admitted r r'

inductive Reachable (admitted : TypeDecl → Prop) : Registry → Prop
  | empty : Reachable admitted {}
  | builtin : Reachable admitted builtin
  | step {r r' : Registry} (h : Reachable admitted r) (hstep : Step admitted r r') :
      Reachable admitted r'

theorem Reachable.mono (h : Reachable admitted r) (hle : ∀ d, admitted d → admitted' d) :
    Reachable admitted' r := by
  induction h with
  | empty => exact .empty
  | builtin => exact .builtin
  | step _ hstep ih =>
    refine .step ih ?_
    cases hstep with
    | register hd hrun => exact .register (hle _ hd) hrun
    | registerParam hrun => exact .registerParam hrun
    | addExtension m => exact .addExtension _ m
    | staticWrapper hrun => exact .staticWrapper hrun
    | instantiate hrun => exact .instantiate hrun

/-- The relation of a computation that does not break `I`. -/
def Keeps (I : Registry → Prop) (r r' : Registry) : Prop := I r → I r'

instance (I : Registry → Prop) : Std.Refl (Keeps I) := ⟨fun _ h ↦ h⟩

instance (I : Registry → Prop) : IsTrans Registry (Keeps I) := ⟨fun _ _ _ h h' hr ↦ h' (h hr)⟩

/-- What has to be shown of a property of registries for substitution and instantiation to keep it. -/
structure Inductive (I : Registry → Prop) : Prop where
  wrapper : ∀ r target name, I r → r.contains (.ofStatic target) = false →
    r.name? target = some name → I (r.insertInstance (wrapperDecl name target))
  header : ∀ r template d args, I r → NewInstance r template d args →
    I (r.insertInstance (r.instanceHeader d template args))
  complete : ∀ r template d args fuel entry r', I r → NewInstance r template d args → I r' →
    instanceDecl (substitute fuel (.ofList (d.typeParams.zip args)))
      (r.instanceHeader d template args) d
      (r.insertInstance (r.instanceHeader d template args)) = .done entry r' →
    I (r'.insertInstance entry)

theorem Inductive.changes {I : Registry → Prop} (hI : Inductive I) : Changes (Keeps I) where
  wrapper r target name hu hn hr := hI.wrapper r target name hr hu hn
  header r template d args hnew hr := hI.header r template d args hr hnew
  complete r template d args fuel entry r' hnew hkeep hrun hr :=
    hI.complete r template d args fuel entry r' hr hnew (hkeep (hI.header r template d args hr hnew))
      hrun

theorem along_register {R : Registry → Registry → Prop} [Std.Refl R] {d : TypeDecl}
    (h : ∀ r, r.contains d.id = false →
      (∀ t ∈ d.base.toList ++ d.interfaces, r.contains t = true) → R r (r.insert (withImplicitBase d))) :
    Along R (register d) := by
  intro r t hrun
  simp only [register, get_bind] at hrun
  cases hc : r.contains d.id with
  | true =>
    simp only [hc, if_true] at hrun
    exact Along.fail _ r t hrun
  | false =>
    simp only [hc, Bool.false_eq_true, if_false] at hrun
    cases hf : (d.base.toList ++ d.interfaces).find? (!r.contains ·) with
    | some u =>
      simp only [hf] at hrun
      exact Along.fail _ r t hrun
    | none =>
      simp only [hf, modify_bind] at hrun
      cases hrun
      exact h r hc fun u hu ↦ by simpa using List.find?_eq_none.1 hf u hu

theorem along_registerParam {R : Registry → Registry → Prop} [Std.Refl R] {name : String}
    {info : TypeParam} (h : ∀ r, r.contains (.ofParam info.owner name) = false →
      R r (r.insertParam
        { name := name, id := .ofParam info.owner name, kind := .parameter info })) :
    Along R (registerParam name info) := by
  intro r t hrun
  simp only [registerParam, get_bind] at hrun
  cases hc : r.contains (.ofParam info.owner name) with
  | true =>
    simp only [hc, if_true] at hrun
    exact Along.fail _ r t hrun
  | false =>
    simp only [hc, Bool.false_eq_true, if_false, modify_bind] at hrun
    cases hrun
    exact h r hc

/-- What holds at the start and is not broken by any operation holds in every reachable registry. -/
theorem Reachable.invariant {I : Registry → Prop} (hI : Inductive I) (empty : I {})
    (builtin : I Registry.builtin)
    (register : ∀ r d, I r → admitted d → r.contains d.id = false →
      (∀ t ∈ d.base.toList ++ d.interfaces, r.contains t = true) → I (r.insert (withImplicitBase d)))
    (param : ∀ r name info, I r → r.contains (.ofParam info.owner name) = false →
      I (r.insertParam { name := name, id := .ofParam info.owner name, kind := .parameter info }))
    (extension : ∀ r m, I r → I (r.addExtension m)) (h : Reachable admitted r) : I r := by
  induction h with
  | empty => exact empty
  | builtin => exact builtin
  | step _ hstep ih =>
    cases hstep with
    | register hd hrun =>
      exact along_register (R := Keeps I) (fun r hc hk hr ↦ register r _ hr hd hc hk) _ _ hrun ih
    | registerParam hrun =>
      exact along_registerParam (R := Keeps I) (fun r hc hr ↦ param r _ _ hr hc) _ _ hrun ih
    | addExtension m => exact extension _ m ih
    | staticWrapper hrun =>
      exact along_staticWrapper hI.changes _ _ _ hrun ih
    | instantiate hrun => exact (along_instantiate hI.changes _).2 _ _ _ _ hrun ih

/-- A registry that is set up by operations on the built-in one is reachable. -/
theorem reachable_getD {α : Type} {make : Attempt Registry RegistrationError α}
    (h : Along (Keeps (Reachable admitted)) make) :
    Reachable admitted ((make Registry.builtin).state?.getD {}) := by
  cases hrun : (make Registry.builtin).state? with
  | none => exact .empty
  | some r => exact h _ r hrun .builtin

theorem keeps_register {d : TypeDecl} (hd : admitted d) :
    Along (Keeps (Reachable admitted)) (register d) := fun _ _ h hr ↦ .step hr (.register hd h)

theorem keeps_registerParam (name : String) (info : TypeParam) :
    Along (Keeps (Reachable admitted)) (registerParam name info) :=
  fun _ _ h hr ↦ .step hr (.registerParam h)

theorem keeps_staticWrapper (target : TypeId) :
    Along (Keeps (Reachable admitted)) (staticWrapper target) := fun _ _ h hr ↦ .step hr (.staticWrapper h)

theorem keeps_instantiate (fuel : Nat) (template : TypeId) (args : List TypeId) :
    Along (Keeps (Reachable admitted)) (instantiate fuel template args) :=
  fun _ _ h hr ↦ .step hr (.instantiate h)

theorem find?_insert (r : Registry) (d : TypeDecl) (t : TypeId) :
    (r.insert d).find? t = if t = d.id then some d else r.find? t := by
  unfold find? insert
  rw [Dictionary.find?_insert]
  split <;> simp

theorem find?_insertParam (r : Registry) (d : TypeDecl) (t : TypeId) :
    (r.insertParam d).find? t = if t = d.id then some d else r.find? t := by
  unfold find? insertParam
  rw [Dictionary.find?_insert]
  split <;> simp

theorem mem_entries_of_find? {t : TypeId} {d : TypeDecl} (h : r.find? t = some d) :
    (t, d) ∈ r.types.entries ++ r.instances.entries := by
  rcases Option.or_eq_some_iff.1 h with h | ⟨-, h⟩
  · exact List.mem_append_left _ (Dictionary.mem_of_get h)
  · exact List.mem_append_right _ (Dictionary.mem_of_get h)

theorem find?_insertInstance_cases {d d' : TypeDecl} {t : TypeId}
    (h : (r.insertInstance d).find? t = some d') : (t = d.id ∧ d' = d) ∨ r.find? t = some d' := by
  unfold find? insertInstance at h
  unfold find?
  rw [Dictionary.find?_insert] at h
  cases ht : r.types.find? t with
  | some e =>
    rw [show ({ r with instances := r.instances.insert d.id d } : Registry).types.find? t = some e
      from ht] at h
    exact .inr h
  | none =>
    rw [ht, Option.none_or] at h
    split at h
    · exact .inl ⟨‹_›, (Option.some.inj h).symm⟩
    · exact .inr h

/-- Every declaration is found under its own identity and owns its members, and the extension
methods are marked as such. -/
structure WellOwned (r : Registry) : Prop where
  decl : ∀ t d, r.find? t = some d → d.id = t ∧ d.OwnsMembers
  extensions : ∀ m ∈ r.extensions, m.isExtension = true

theorem WellOwned.insertInstance {d : TypeDecl} (hr : r.WellOwned) (hd : d.OwnsMembers) :
    (r.insertInstance d).WellOwned := by
  refine ⟨fun t d' h ↦ ?_, hr.extensions⟩
  rcases find?_insertInstance_cases h with ⟨rfl, rfl⟩ | h
  · exact ⟨rfl, hd⟩
  · exact hr.decl t d' h

theorem WellOwned.owner_of_mem_methods (hr : r.WellOwned) {t : TypeId} {name : String} {m : Method}
    (h : m ∈ r.methods t name) : m.owner = t := by
  unfold methods at h
  cases hd : r.find? t with
  | none => simp [hd] at h
  | some d =>
    obtain ⟨hid, hown⟩ := hr.decl t d hd
    simp only [hd, Option.map_some, Option.getD_some, TypeDecl.methodsNamed] at h
    exact (hown.methods m (List.mem_filter.1 h).1).trans hid

theorem WellOwned.owner_of_mem_members (hr : r.WellOwned) {t : TypeId} {name : String} {m : Member}
    (h : m ∈ r.members t name) : m.owner = t := by
  unfold members at h
  cases hd : r.find? t with
  | none => simp [hd] at h
  | some d =>
    obtain ⟨hid, hown⟩ := hr.decl t d hd
    simp only [hd, Option.map_some, Option.getD_some, TypeDecl.membersNamed, List.mem_append,
      List.mem_map, List.mem_filter] at h
    rcases h with ⟨f, ⟨hf, -⟩, rfl⟩ | ⟨p, ⟨hp, -⟩, rfl⟩
    · exact (hown.fields f hf).trans hid
    · exact (hown.properties p hp).trans hid

theorem ownsMembers_of_instanceDecl {ε : Type} {f : TypeId → Attempt Registry ε TypeId}
    {header d entry : TypeDecl} (h : instanceDecl f header d r = .done entry r') :
    entry.OwnsMembers := by
  unfold instanceDecl at h
  obtain ⟨base, r₁, -, h⟩ := bind_eq_done_iff.1 h
  obtain ⟨interfaces, r₂, -, h⟩ := bind_eq_done_iff.1 h
  obtain ⟨kind, r₃, -, h⟩ := bind_eq_done_iff.1 h
  obtain ⟨methods, r₄, hm, h⟩ := bind_eq_done_iff.1 h
  obtain ⟨constructors, r₅, -, h⟩ := bind_eq_done_iff.1 h
  obtain ⟨fields, r₆, -, h⟩ := bind_eq_done_iff.1 h
  obtain ⟨properties, r₇, -, h⟩ := bind_eq_done_iff.1 h
  obtain ⟨rfl, -⟩ := pure_eq_done_iff.1 h
  refine ⟨fun m hmem ↦ ?_, by simp, by simp⟩
  obtain ⟨-, x, -, -, s₀, s₁, -, -, -, hx, -⟩ := exists_split_of_mem_mapM hm hmem
  obtain ⟨d', s', -, hx⟩ := bind_eq_done_iff.1 hx
  obtain ⟨rfl, -⟩ := pure_eq_done_iff.1 hx
  rfl

theorem inductive_wellOwned : Inductive WellOwned where
  wrapper r target name hr hu hn := hr.insertInstance ⟨by simp [wrapperDecl], by simp [wrapperDecl],
    by simp [wrapperDecl]⟩
  header r template d args hr hnew := hr.insertInstance ⟨by simp [instanceHeader],
    by simp [instanceHeader], by simp [instanceHeader]⟩
  complete r template d args fuel entry r' hr hnew hr' hrun :=
    hr'.insertInstance (ownsMembers_of_instanceDecl hrun)

theorem wellOwned_builtin : builtin.WellOwned := by
  refine ⟨fun t d h ↦ ?_, by decide⟩
  have hinst : builtin.instances.find? t = none := rfl
  unfold find? at h
  rw [hinst, Option.or_none] at h
  have hall : ∀ e ∈ builtin.types.entries, e.2.id = e.1 ∧ (∀ m ∈ e.2.methods, m.owner = e.2.id) ∧
      (∀ f ∈ e.2.fields, f.owner = e.2.id) ∧ ∀ p ∈ e.2.properties, p.owner = e.2.id := by
    decide +kernel
  obtain ⟨hid, hm, hf, hp⟩ := hall (t, d) (Dictionary.mem_of_get h)
  exact ⟨hid, hm, hf, hp⟩

theorem withImplicitBase_eq (d : TypeDecl) : ∃ base, withImplicitBase d = { d with base := base } := by
  unfold withImplicitBase
  exact if h : _ then ⟨some .object, if_pos h⟩ else ⟨d.base, if_neg h⟩

theorem Reachable.wellOwned (h : Reachable TypeDecl.OwnsMembers r) : r.WellOwned := by
  refine h.invariant inductive_wellOwned ⟨by rintro t d ⟨⟩, by rintro m ⟨⟩⟩ wellOwned_builtin ?_ ?_ ?_
  · intro r d hr hd _ _
    refine ⟨fun t d' h ↦ ?_, hr.extensions⟩
    rw [find?_insert] at h
    split at h
    · rename_i ht
      cases h
      obtain ⟨base, hbase⟩ := withImplicitBase_eq d
      rw [hbase] at ht ⊢
      exact ⟨ht.symm, hd.methods, hd.fields, hd.properties⟩
    · exact hr.decl t d' h
  · intro r name info hr _
    refine ⟨fun t d' h ↦ ?_, hr.extensions⟩
    rw [find?_insertParam] at h
    split at h
    · rename_i ht
      cases h
      exact ⟨ht.symm, by simp, by simp, by simp⟩
    · exact hr.decl t d' h
  · intro r m hr
    refine ⟨hr.decl, fun m' hm' ↦ ?_⟩
    rcases List.mem_append.1 hm' with hm' | hm'
    · exact hr.extensions m' hm'
    · rw [List.mem_singleton.1 hm']
      split
      · assumption
      · rfl

end Registry

end CallResolution
