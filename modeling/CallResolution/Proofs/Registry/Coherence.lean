import CallResolution.Proofs.Registry.Instantiation
import CallResolution.Proofs.Registry.Reachable

namespace CallResolution

open Attempt

namespace Registry

variable {r r' : Registry} {admitted : TypeDecl → Prop} {d e entry : TypeDecl} {t : TypeId}

/-- What `d` was made from: a registered template at as many arguments as it has parameters, or a
known type whose static view it is. Its identity says which. What was made from a class is a class. -/
inductive Origin (r : Registry) (d : TypeDecl) : Prop
  | ofTemplate {template : TypeId} {decl : TypeDecl} (htemplate : d.template = some template)
      (hdecl : r.types.find? template = some decl) (isTemplate : decl.isTemplate = true)
      (arity : decl.typeParams.length = d.typeArgs.length)
      (hid : d.id = .ofInstance template d.typeArgs) (hclass : decl.kind = .classType → d.kind = .classType)
  | ofTarget {target : TypeId} (hkind : d.kind = .static target) (htemplate : d.template = none)
      (htarget : r.contains target = true) (hid : d.id = .ofStatic target)

/-- What is registered and what was made are kept apart, everything under its own identity. A name
stands for a registered type of that name, and what was made is no template and has an origin. -/
structure Coherent (r : Registry) : Prop where
  apart : ∀ t, r.types.contains t = true → r.instances.contains t = false
  id : ∀ t d, r.types.find? t = some d ∨ r.instances.find? t = some d → d.id = t
  lookup : ∀ name t, r.lookup name = some t → ∃ d, r.types.find? t = some d ∧ d.name = name
  origin : ∀ t d, r.instances.find? t = some d → d.isTemplate = false ∧ Origin r d

def KeepsTypes (r r' : Registry) : Prop := ∀ t d, r.types.find? t = some d → r'.types.find? t = some d

instance : Std.Refl KeepsTypes := ⟨fun _ _ _ h ↦ h⟩

theorem Grows.keepsTypes (h : Grows r r') : KeepsTypes r r' := by
  intro t d hd
  rwa [h.types]

theorem keepsTypes_insert (hnew : r.contains d.id = false)
    (h : r'.types = r.types.insert d.id d) : KeepsTypes r r' := by
  intro t d' hd'
  rw [h, Dictionary.find?_insert_of_ne, hd']
  intro ht
  rw [ht, find?_types_eq_none hnew] at hd'
  cases hd'

theorem contains_insertInstance (hid : r.types.find? d.id = none) (h : r.contains t = true) :
    (r.insertInstance d).contains t = true := by
  obtain ⟨d, hd⟩ := exists_find?_of_contains h
  rw [contains_eq_isSome_find?, find?_insertInstance hid]
  split
  · rfl
  · rw [hd]
    rfl

theorem kind_of_instanceDecl {ε : Type} {f : TypeId → Attempt Registry ε TypeId} {header : TypeDecl}
    (hd : d.kind = .classType) (h : instanceDecl f header d r = .done entry r') :
    entry.kind = .classType := by
  unfold instanceDecl at h
  obtain ⟨base, r₁, -, h⟩ := bind_eq_done_iff.1 h
  obtain ⟨interfaces, r₂, -, h⟩ := bind_eq_done_iff.1 h
  obtain ⟨kind, r₃, hkind, h⟩ := bind_eq_done_iff.1 h
  obtain ⟨methods, r₄, -, h⟩ := bind_eq_done_iff.1 h
  obtain ⟨constructors, r₅, -, h⟩ := bind_eq_done_iff.1 h
  obtain ⟨fields, r₆, -, h⟩ := bind_eq_done_iff.1 h
  obtain ⟨properties, r₇, -, h⟩ := bind_eq_done_iff.1 h
  obtain ⟨rfl, -⟩ := pure_eq_done_iff.1 h
  rw [hd] at hkind
  exact (pure_eq_done_iff.1 hkind).1.symm

theorem Origin.mono (h : Origin r d) (htypes : KeepsTypes r r')
    (hknown : ∀ t, r.contains t = true → r'.contains t = true) : Origin r' d := by
  cases h with
  | ofTemplate htemplate hdecl isTemplate arity hid hclass =>
    exact .ofTemplate htemplate (htypes _ _ hdecl) isTemplate arity hid hclass
  | ofTarget hkind htemplate htarget hid => exact .ofTarget hkind htemplate (hknown _ htarget) hid

theorem types_contains_eq_false (h : r.types.find? t = none) : r.types.contains t = false := by
  rw [Dictionary.contains, h]
  rfl

namespace Coherent

/-- Only what is registered can be instantiated. -/
theorem find?_types (hr : r.Coherent) (h : r.find? t = some d) (hd : d.isTemplate = true) :
    r.types.find? t = some d := by
  unfold find? at h
  cases ht : r.types.find? t with
  | some d' => rwa [ht] at h
  | none =>
    rw [ht, Option.none_or] at h
    rw [(hr.origin t d h).1] at hd
    cases hd

theorem insertInstance (hr : r.Coherent) (hid : r.types.find? d.id = none)
    (hd : d.isTemplate = false) (ho : Origin r d) : (r.insertInstance d).Coherent := by
  have hmono : ∀ {e}, Origin r e → Origin (r.insertInstance d) e := fun h ↦
    h.mono (fun _ _ h ↦ h) fun t ht ↦ contains_insertInstance hid ht
  have hcases : ∀ t e, (r.insertInstance d).instances.find? t = some e →
      (t = d.id ∧ e = d) ∨ r.instances.find? t = some e := by
    intro t e he
    change (r.instances.insert d.id d).find? t = some e at he
    rw [Dictionary.find?_insert] at he
    split at he
    · rename_i ht
      exact .inl ⟨ht, (Option.some.inj he).symm⟩
    · exact .inr he
  refine ⟨fun t ht ↦ ?_, fun t e he ↦ ?_, hr.lookup, fun t e he ↦ ?_⟩
  · change (r.instances.insert d.id d).contains t = false
    have hne : t ≠ d.id := by
      rintro rfl
      rw [show (r.insertInstance d).types.contains d.id = r.types.contains d.id from rfl,
        types_contains_eq_false hid] at ht
      cases ht
    rw [Dictionary.contains, Dictionary.find?_insert_of_ne _ _ hne]
    exact hr.apart t ht
  · rcases he with he | he
    · exact hr.id t e (.inl he)
    · rcases hcases t e he with ⟨rfl, rfl⟩ | he
      · rfl
      · exact hr.id t e (.inr he)
  · rcases hcases t e he with ⟨rfl, rfl⟩ | he
    · exact ⟨hd, hmono ho⟩
    · exact ⟨(hr.origin t e he).1, hmono (hr.origin t e he).2⟩

/-- A registered type is new under its identity; it may take a name over. -/
theorem insertType (hr : r.Coherent) (hu : r.contains d.id = false)
    {names : Dictionary String TypeId}
    (hnames : ∀ name t, names.find? name = some t →
      (t = d.id ∧ name = d.name) ∨ r.lookup name = some t) :
    ({ r with types := r.types.insert d.id d, names := names } : Registry).Coherent := by
  have hkeep : KeepsTypes r { r with types := r.types.insert d.id d, names := names } :=
    keepsTypes_insert hu rfl
  have hknown : ∀ t, r.contains t = true →
      ({ r with types := r.types.insert d.id d, names := names } : Registry).contains t = true := by
    intro t ht
    unfold contains Dictionary.contains at ht ⊢
    rw [Dictionary.find?_insert]
    split
    · rfl
    · exact ht
  refine ⟨fun t ht ↦ ?_, fun t e he ↦ ?_, fun name t ht ↦ ?_, fun t e he ↦ ?_⟩
  · rw [Dictionary.contains, Dictionary.find?_insert] at ht
    split at ht
    · rename_i heq
      rw [Dictionary.contains, heq, find?_instances_eq_none hu]
      rfl
    · exact hr.apart t ht
  · rcases he with he | he
    · rw [Dictionary.find?_insert] at he
      split at he
      · rename_i heq
        cases he
        exact heq.symm
      · exact hr.id t e (.inl he)
    · exact hr.id t e (.inr he)
  · rcases hnames name t ht with ⟨rfl, rfl⟩ | ht
    · exact ⟨d, Dictionary.find?_insert_self _ _ _, rfl⟩
    · obtain ⟨e, he, hname⟩ := hr.lookup name t ht
      exact ⟨e, hkeep t e he, hname⟩
  · exact ⟨(hr.origin t e he).1, (hr.origin t e he).2.mono hkeep hknown⟩

theorem insert (hr : r.Coherent) (hu : r.contains d.id = false) : (r.insert d).Coherent := by
  refine hr.insertType hu fun name t ht ↦ ?_
  rw [Dictionary.find?_insert] at ht
  split at ht
  · rename_i hname
    exact .inl ⟨(Option.some.inj ht).symm, hname⟩
  · exact .inr ht

end Coherent

theorem inductive_coherent : Inductive Coherent where
  wrapper r target name hr hu hn := by
    have htarget : r.contains target = true := by
      obtain ⟨d, hd, -⟩ := Option.map_eq_some_iff.1 hn
      exact contains_of_find? hd
    exact hr.insertInstance (find?_types_eq_none hu) rfl (.ofTarget rfl rfl htarget rfl)
  header r template d args hr hnew :=
    hr.insertInstance (find?_types_eq_none hnew.unknown) rfl
      (.ofTemplate rfl (hr.find?_types hnew.found hnew.isTemplate) hnew.isTemplate hnew.arity rfl
        fun h ↦ h)
  complete r template d args fuel entry r' hr hnew hr' hrun := by
    have hgrows : Grows (r.insertInstance (r.instanceHeader d template args)) r' :=
      (along_instanceDecl (grows_substitute fuel _) _ d).of_done hrun
    have htypes : r'.types = r.types := hgrows.types
    have hcompletes := completes_of_instanceDecl hrun
    refine hr'.insertInstance ?_ ?_ (.ofTemplate hcompletes.template ?_ hnew.isTemplate ?_ ?_ ?_)
    · rw [htypes, hcompletes.id]
      exact find?_types_eq_none hnew.unknown
    · rw [TypeDecl.isTemplate, hcompletes.typeParams]
      rfl
    · rw [htypes]
      exact hr.find?_types hnew.found hnew.isTemplate
    · rw [hcompletes.typeArgs]
      exact hnew.arity
    · rw [hcompletes.id, hcompletes.typeArgs]
      rfl
    · exact fun hclass ↦ kind_of_instanceDecl hclass hrun

theorem coherent_empty : ({} : Registry).Coherent where
  apart _ _ := rfl
  id _ _ h := by rcases h with h | h <;> cases h
  lookup _ _ h := by cases h
  origin _ _ h := by cases h

theorem coherent_builtin : builtin.Coherent := by
  have hid : ∀ p ∈ builtin.types.entries, p.2.id = p.1 := by decide +kernel
  have hnames : ∀ p ∈ builtin.names.entries,
      (builtin.types.find? p.2).map TypeDecl.name = some p.1 := by decide +kernel
  refine ⟨fun _ _ ↦ rfl, fun t d h ↦ ?_, fun name t h ↦ ?_, fun _ _ h ↦ by cases h⟩
  · rcases h with h | h
    · exact hid (t, d) (Dictionary.mem_of_get h)
    · cases h
  · exact Option.map_eq_some_iff.1 (hnames (name, t) (Dictionary.mem_of_get h))

theorem Reachable.coherent (h : Reachable admitted r) : r.Coherent := by
  refine h.invariant inductive_coherent coherent_empty coherent_builtin ?_ ?_ ?_
  · intro r d hr _ hu _
    obtain ⟨base, hbase⟩ := withImplicitBase_eq d
    rw [hbase]
    exact hr.insert hu
  · intro r name info hr hu
    exact hr.insertType hu fun _ _ h ↦ .inr h
  · intro r m hr
    exact ⟨hr.apart, hr.id, hr.lookup, fun t d hd ↦
      ⟨(hr.origin t d hd).1, (hr.origin t d hd).2.mono (fun _ _ h ↦ h) fun _ h ↦ h⟩⟩

/-- Whatever is registered and however an operation ends, every reachable registry is coherent. An
array is an instance like any other. -/
theorem coherent_of_reachable (h : Reachable (fun _ ↦ True) r) : r.Coherent := h.coherent

def box : TypeId := .ofName "Box"

/-- Makes a template `Box` with a field for the static view of its type parameter. -/
def makeBox : Attempt Registry RegistrationError TypeId := do
  let item ← registerParam "T" { owner := "Box", index := 0 }
  let view ← staticWrapper item
  register
    { name := "Box", id := box, kind := .classType, typeParams := [item],
      fields := [{ name := "type", owner := box, type := view }] }

def boxTypes : Registry := (makeBox builtin).state?.getD {}

theorem reachable_boxTypes : Reachable TypeDecl.IsDeclaration boxTypes := by
  refine reachable_getD ((keeps_registerParam _ _).bind fun item ↦ ?_)
  exact (keeps_staticWrapper item).bind fun view ↦ keeps_register ⟨rfl, rfl⟩

/-- A `Box` of an unknown type cannot be completed. Its header is left with the static view of its
parameter, and the registry is coherent. -/
theorem coherent_after_failed_box : ∃ r', (instantiate 4 box [.ofName "Missing"] boxTypes).value? = none ∧
    (instantiate 4 box [.ofName "Missing"] boxTypes).state? = some r' ∧
    r'.instances.contains (.ofInstance box [.ofName "Missing"]) = true ∧
    Reachable (fun _ ↦ True) r' ∧ r'.Coherent := by
  have hvalue : (instantiate 4 box [.ofName "Missing"] boxTypes).value? = none := by decide +kernel
  have hstate : (instantiate 4 box [.ofName "Missing"] boxTypes).state?.any
      (·.instances.contains (.ofInstance box [.ofName "Missing"])) = true := by decide +kernel
  obtain ⟨r', hr', hcontains⟩ := (Option.any_eq_true _ _).1 hstate
  have hreach : Reachable (fun _ ↦ True) r' :=
    .step (reachable_boxTypes.mono fun _ _ ↦ trivial) (.instantiate hr')
  exact ⟨r', hvalue, hr', hcontains, hreach, coherent_of_reachable hreach⟩

end Registry

end CallResolution
