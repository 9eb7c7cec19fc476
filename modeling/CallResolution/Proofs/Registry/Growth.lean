import CallResolution.Proofs.Attempt
import CallResolution.Generic.Specialization

namespace CallResolution

open Attempt

namespace Registry

/-! The parts of an instance are filled in by a walk over its template that replaces one type after
another; whatever the replacement keeps, the walk keeps. -/

section Walk

variable {ε : Type} {R : Registry → Registry → Prop} [Std.Refl R] [IsTrans Registry R]
  {f : TypeId → Attempt Registry ε TypeId}

theorem along_mapTypes_param (hf : ∀ t, Along R (f t)) (p : Param) : Along R (p.mapTypes f) := by
  refine (hf p.type).bind fun _ ↦ ?_
  exact .pure _

theorem along_mapTypes_signature (hf : ∀ t, Along R (f t)) (s : Signature) :
    Along R (s.mapTypes f) := by
  refine (Along.mapM s.params hf).bind fun _ ↦ (hf s.result).bind fun _ ↦ ?_
  exact .pure _

theorem along_mapTypes_method (hf : ∀ t, Along R (f t)) (d : Method) : Along R (d.mapTypes f) := by
  refine (Along.mapM d.params (along_mapTypes_param hf)).bind fun _ ↦ (hf d.result).bind fun _ ↦ ?_
  exact .pure _

theorem along_mapTypes_field (hf : ∀ t, Along R (f t)) (d : Field) : Along R (d.mapTypes f) := by
  refine (hf d.type).bind fun _ ↦ ?_
  exact .pure _

theorem along_mapTypes_property (hf : ∀ t, Along R (f t)) (d : Property) :
    Along R (d.mapTypes f) := by
  refine (hf d.type).bind fun _ ↦ (Along.mapM d.index (along_mapTypes_param hf)).bind fun _ ↦ ?_
  exact .pure _

theorem along_mapM_option (hf : ∀ t, Along R (f t)) (t : Option TypeId) : Along R (t.mapM f) := by
  cases t with
  | none => exact .pure none
  | some t => exact (hf t).map some

theorem along_instanceKind (hf : ∀ t, Along R (f t)) (k : TypeKind) : Along R (instanceKind f k) := by
  cases k with
  | delegate s => exact (along_mapTypes_signature hf s).bind fun _ ↦ .pure _
  | classType | valueType | interfaceType | parameter _ | static _ => exact .pure _

theorem along_instanceMethod (hf : ∀ t, Along R (f t)) (owner : TypeId) (d : Method) :
    Along R (instanceMethod f owner d) :=
  (along_mapTypes_method hf d).bind fun _ ↦ .pure _

theorem along_instanceConstructor (hf : ∀ t, Along R (f t)) (header : TypeDecl) (d : Method) :
    Along R (instanceConstructor f header d) :=
  (Along.mapM d.params (along_mapTypes_param hf)).bind fun _ ↦ .pure _

theorem along_instanceDecl (hf : ∀ t, Along R (f t)) (header d : TypeDecl) :
    Along R (instanceDecl f header d) := by
  refine (along_mapM_option hf d.base).bind fun _ ↦ ?_
  refine (Along.mapM d.interfaces hf).bind fun _ ↦ ?_
  refine (along_instanceKind hf d.kind).bind fun _ ↦ ?_
  refine (Along.mapM d.methods (along_instanceMethod hf header.id)).bind fun _ ↦ ?_
  refine (Along.mapM d.constructors (along_instanceConstructor hf header)).bind fun _ ↦ ?_
  refine (Along.mapM d.fields (along_mapTypes_field hf)).bind fun _ ↦ ?_
  exact (Along.mapM d.properties (along_mapTypes_property hf)).bind fun _ ↦ .pure _

end Walk

/-- What a completed instance keeps of its header. -/
structure Completes (header entry : TypeDecl) : Prop where
  name : entry.name = header.name
  id : entry.id = header.id
  typeParams : entry.typeParams = header.typeParams
  template : entry.template = header.template
  typeArgs : entry.typeArgs = header.typeArgs
  defaultMember : entry.defaultMember = header.defaultMember

theorem completes_of_instanceDecl {ε : Type} {f : TypeId → Attempt Registry ε TypeId}
    {header d entry : TypeDecl} {r r' : Registry}
    (h : instanceDecl f header d r = .done entry r') : Completes header entry := by
  unfold instanceDecl at h
  obtain ⟨base, r₁, -, h⟩ := bind_eq_done_iff.1 h
  obtain ⟨interfaces, r₂, -, h⟩ := bind_eq_done_iff.1 h
  obtain ⟨kind, r₃, -, h⟩ := bind_eq_done_iff.1 h
  obtain ⟨methods, r₄, -, h⟩ := bind_eq_done_iff.1 h
  obtain ⟨constructors, r₅, -, h⟩ := bind_eq_done_iff.1 h
  obtain ⟨fields, r₆, -, h⟩ := bind_eq_done_iff.1 h
  obtain ⟨properties, r₇, -, h⟩ := bind_eq_done_iff.1 h
  obtain ⟨rfl, -⟩ := pure_eq_done_iff.1 h
  exact ⟨rfl, rfl, rfl, rfl, rfl, rfl⟩

/-- The template `template` has the declaration `d` and can be instantiated at `args`, which has
not been done before. -/
structure NewInstance (r : Registry) (template : TypeId) (d : TypeDecl) (args : List TypeId) :
    Prop where
  unknown : r.contains (.ofInstance template args) = false
  found : r.find? template = some d
  isTemplate : d.isTemplate = true
  arity : d.typeParams.length = args.length

def wrapperDecl (name : String) (target : TypeId) : TypeDecl :=
  { name := "static " ++ name, id := .ofStatic target, kind := .static target, base := some .object }

/-- `R` holds across the three ways in which a registry changes: a static view is entered, the header
of an instance is entered, or a header is replaced by the completed instance, after all that its
parts asked for has been made. -/
structure Changes (R : Registry → Registry → Prop) : Prop where
  wrapper : ∀ r target name, r.contains (.ofStatic target) = false → r.name? target = some name →
    R r (r.insertInstance (wrapperDecl name target))
  header : ∀ r template d args, NewInstance r template d args →
    R r (r.insertInstance (r.instanceHeader d template args))
  complete : ∀ r template d args fuel entry r', NewInstance r template d args →
    R (r.insertInstance (r.instanceHeader d template args)) r' →
    instanceDecl (substitute fuel (.ofList (d.typeParams.zip args)))
      (r.instanceHeader d template args) d
      (r.insertInstance (r.instanceHeader d template args)) = .done entry r' →
    R r (r'.insertInstance entry)

section Changes

variable {R : Registry → Registry → Prop} [Std.Refl R] {fuel : Nat}

theorem along_staticWrapper (hR : Changes R) (target : TypeId) : Along R (staticWrapper target) := by
  intro r t h
  simp only [staticWrapper, get_bind] at h
  cases hc : r.contains (.ofStatic target) with
  | true =>
    simp only [hc, if_true] at h
    exact Along.pure _ r t h
  | false =>
    simp only [hc, Bool.false_eq_true, if_false] at h
    cases hn : r.name? target with
    | none =>
      simp only [hn] at h
      exact Along.fail _ r t h
    | some name =>
      simp only [hn, modify_bind] at h
      cases h
      exact hR.wrapper r target name hc hn

variable [IsTrans Registry R]

theorem along_substitute_succ (hR : Changes R) (hs : ∀ map t, Along R (substitute fuel map t))
    (hi : ∀ template args, Along R (instantiate fuel template args)) (map : Substitution)
    (t : TypeId) : Along R (substitute (fuel + 1) map t) := by
  rw [substitute]
  split
  · exact .pure _
  · refine Along.get.bind fun r ↦ ?_
    split
    · refine (hs map _).bind fun replaced ↦ ?_
      split
      · exact .pure _
      · exact along_staticWrapper hR _
    · refine (Along.mapM _ (hs map)).bind fun replaced ↦ ?_
      split
      · exact .pure _
      · exact hi _ _
    · exact .pure _

/-- The parts of an instance are filled in while its header stands for it. -/
theorem Changes.fill (hR : Changes R) (hs : ∀ map t, Along R (substitute fuel map t))
    {r t : Registry} {template : TypeId} {d : TypeDecl} {args : List TypeId}
    (hnew : NewInstance r template d args)
    (h : ((do
      let entry ← instanceDecl (substitute fuel (.ofList (d.typeParams.zip args)))
        (r.instanceHeader d template args) d
      .modify (·.insertInstance entry)
      return .ofInstance template args : Attempt Registry RegistrationError TypeId)
        (r.insertInstance (r.instanceHeader d template args))).state? = some t) : R r t := by
  have hwalk := along_instanceDecl (hs (.ofList (d.typeParams.zip args)))
    (r.instanceHeader d template args) d (r.insertInstance (r.instanceHeader d template args))
  rw [state?_bind] at h
  cases hrun : instanceDecl (substitute fuel (.ofList (d.typeParams.zip args)))
      (r.instanceHeader d template args) d
      (r.insertInstance (r.instanceHeader d template args)) with
  | done entry r' =>
    simp only [hrun, modify_bind] at h
    cases h
    exact hR.complete r template d args fuel entry r' hnew (hwalk r' (by rw [hrun]; rfl)) hrun
  | failed e r' =>
    simp only [hrun] at h
    cases h
    exact IsTrans.trans _ _ _ (hR.header r template d args hnew) (hwalk t (by rw [hrun]; rfl))
  | exhausted =>
    simp only [hrun] at h
    cases h

theorem along_instantiate_succ (hR : Changes R) (hs : ∀ map t, Along R (substitute fuel map t))
    (template : TypeId) (args : List TypeId) : Along R (instantiate (fuel + 1) template args) := by
  intro r t h
  simp only [instantiate, get_bind] at h
  cases hc : r.contains (.ofInstance template args) with
  | true =>
    simp only [hc, if_true] at h
    exact Along.pure _ r t h
  | false =>
    simp only [hc, Bool.false_eq_true, if_false] at h
    cases hd : r.find? template with
    | none =>
      simp only [hd] at h
      exact Along.fail _ r t h
    | some d =>
      simp only [hd] at h
      split at h
      · exact Along.fail _ r t h
      · split at h
        · exact Along.fail _ r t h
        · rename_i hg ha
          exact hR.fill hs ⟨hc, hd, by simpa using hg, by simpa using ha⟩ h

theorem along_instantiate (hR : Changes R) (fuel : Nat) :
    (∀ map t, Along R (substitute fuel map t)) ∧
      ∀ template args, Along R (instantiate fuel template args) := by
  induction fuel with
  | zero => exact ⟨fun _ _ ↦ .exhausted, fun _ _ ↦ .exhausted⟩
  | succ fuel ih => exact ⟨along_substitute_succ hR ih.1 ih.2, along_instantiate_succ hR ih.1⟩

end Changes

theorem contains_eq_isSome_find? (r : Registry) (t : TypeId) : r.contains t = (r.find? t).isSome := by
  unfold contains find? Dictionary.contains
  cases r.types.find? t <;> simp

theorem find?_eq_none_of_contains {r : Registry} {t : TypeId} (h : r.contains t = false) :
    r.find? t = none := by
  rw [contains_eq_isSome_find?] at h
  simpa using h

theorem find?_instances_eq_none {r : Registry} {t : TypeId} (h : r.contains t = false) :
    r.instances.find? t = none := by
  have h' := find?_eq_none_of_contains h
  unfold find? at h'
  exact (Option.or_eq_none_iff.1 h').2

/-- `r'` has come from `r` by making instances and static views: what was known is as it was. -/
structure Grows (r r' : Registry) : Prop where
  types : r'.types = r.types
  names : r'.names = r.names
  extensions : r'.extensions = r.extensions
  instances : ∀ t d, r.instances.find? t = some d → r'.instances.find? t = some d

namespace Grows

instance : Std.Refl Grows := ⟨fun _ ↦ ⟨rfl, rfl, rfl, fun _ _ h ↦ h⟩⟩

instance : IsTrans Registry Grows where
  trans _ _ _ h h' := ⟨h'.types.trans h.types, h'.names.trans h.names,
    h'.extensions.trans h.extensions, fun t d hd ↦ h'.instances t d (h.instances t d hd)⟩

variable {r r' : Registry}

theorem find? (h : Grows r r') {t : TypeId} {d : TypeDecl} (hd : r.find? t = some d) :
    r'.find? t = some d := by
  unfold Registry.find? at hd ⊢
  rw [h.types]
  cases ht : r.types.find? t with
  | some d' => rwa [ht] at hd
  | none =>
    rw [ht, Option.none_or] at hd
    rw [Option.none_or]
    exact h.instances t d hd

theorem insertInstance {d : TypeDecl} (h : r.contains d.id = false) :
    Grows r (r.insertInstance d) := by
  refine ⟨rfl, rfl, rfl, fun t d' hd ↦ ?_⟩
  have hne : t ≠ d.id := by
    rintro rfl
    rw [find?_instances_eq_none h] at hd
    cases hd
  exact (Dictionary.find?_insert_of_ne _ _ hne).trans hd

/-- An entry that replaces its own header changes nothing that was known before the header. -/
theorem complete {header entry : TypeDecl} (hu : r.contains header.id = false)
    (h : Grows (r.insertInstance header) r') (hid : entry.id = header.id) :
    Grows r (r'.insertInstance entry) := by
  have hr := IsTrans.trans _ _ _ (insertInstance hu) h
  refine ⟨hr.types, hr.names, hr.extensions, fun t d hd ↦ ?_⟩
  have hne : t ≠ entry.id := by
    rintro rfl
    rw [hid, find?_instances_eq_none hu] at hd
    cases hd
  exact (Dictionary.find?_insert_of_ne _ _ hne).trans (hr.instances t d hd)

end Grows

theorem changes_grows : Changes Grows where
  wrapper _ _ _ hu _ := Grows.insertInstance hu
  header _ _ _ _ hnew := Grows.insertInstance hnew.unknown
  complete _ _ _ _ _ _ _ hnew hgrows hrun :=
    Grows.complete hnew.unknown hgrows (completes_of_instanceDecl hrun).id

theorem grows_staticWrapper (target : TypeId) : Along Grows (staticWrapper target) :=
  along_staticWrapper changes_grows target

theorem grows_substitute (fuel : Nat) (map : Substitution) (t : TypeId) :
    Along Grows (substitute fuel map t) := (along_instantiate changes_grows fuel).1 map t

theorem grows_instantiate (fuel : Nat) (template : TypeId) (args : List TypeId) :
    Along Grows (instantiate fuel template args) := (along_instantiate changes_grows fuel).2 template args

end Registry

theorem Method.along_specialize {R : Registry → Registry → Prop} [Std.Refl R] [IsTrans Registry R]
    (hR : ∀ fuel map t, Along R (Registry.substitute fuel map t)) (fuel : Nat) (d : Method)
    (map : Substitution) : Along R (d.specialize fuel map) := by
  unfold specialize
  split
  · exact .fail _
  · refine (Registry.along_mapTypes_method (hR fuel map) d).mapError.bind fun _ ↦ ?_
    exact .pure _

end CallResolution
