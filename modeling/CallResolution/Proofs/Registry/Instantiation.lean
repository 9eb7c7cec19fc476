import CallResolution.Proofs.Registry.Growth
import CallResolution.Proofs.Registry.Mentioned
import Mathlib.Data.Set.BooleanAlgebra
import Mathlib.Order.CompletePartialOrder

namespace CallResolution

open Attempt

theorem Dictionary.mem_of_find?_ofList {κ α : Type} [DecidableEq κ] {ps : List (κ × α)} {k : κ} {a : α}
    (h : (ofList ps).find? k = some a) : (k, a) ∈ ps := by
  have hfold : ∀ (ps : List (κ × α)) (d : Dictionary κ α),
      (ps.foldl (fun d p ↦ d.insert p.1 p.2) d).find? k = some a → (k, a) ∈ ps ∨ d.find? k = some a := by
    intro ps
    induction ps with
    | nil => exact fun d h ↦ .inr h
    | cons p ps ih =>
      intro d h
      rcases ih _ h with h | h
      · exact .inl (List.mem_cons_of_mem p h)
      · rw [find?_insert] at h
        split at h
        · rename_i hk
          cases h
          exact .inl (hk ▸ List.mem_cons_self)
        · exact .inr h
  rcases hfold ps ∅ h with h | h
  · exact h
  · cases h

namespace Registry

variable {r r' : Registry} {fuel : Nat} {map : Substitution} {t template target : TypeId}
  {args : List TypeId} {d entry : TypeDecl} {e : RegistrationError}

theorem find?_types_eq_none (h : r.contains t = false) : r.types.find? t = none := by
  have h' := find?_eq_none_of_contains h
  exact (Option.or_eq_none_iff.1 h').1

theorem find?_insertInstance (h : r.types.find? d.id = none) (t : TypeId) :
    (r.insertInstance d).find? t = if t = d.id then some d else r.find? t := by
  change (r.types.find? t).or ((r.instances.insert d.id d).find? t) = _
  rw [Dictionary.find?_insert]
  by_cases ht : t = d.id
  · rw [if_pos ht, if_pos ht, ht, h, Option.none_or]
  · rw [if_neg ht, if_neg ht]
    rfl

theorem find?_insertInstance_self (h : r.contains d.id = false) :
    (r.insertInstance d).find? d.id = some d := by
  rw [find?_insertInstance (find?_types_eq_none h), if_pos rfl]

theorem contains_of_find? (h : r.find? t = some d) : r.contains t = true := by
  rw [contains_eq_isSome_find?, h]
  rfl

theorem exists_find?_of_contains (h : r.contains t = true) : ∃ d, r.find? t = some d := by
  rw [contains_eq_isSome_find?] at h
  exact Option.isSome_iff_exists.1 h

theorem contains_insertInstance_of_ne (hu : r.contains d.id = false) (ht : t ≠ d.id) :
    (r.insertInstance d).contains t = r.contains t := by
  rw [contains_eq_isSome_find?, find?_insertInstance (find?_types_eq_none hu), if_neg ht,
    contains_eq_isSome_find?]

theorem Grows.contains (h : Grows r r') (ht : r.contains t = true) : r'.contains t = true := by
  obtain ⟨d, hd⟩ := exists_find?_of_contains ht
  exact contains_of_find? (h.find? hd)

theorem find?_header {header : TypeDecl} (hu : r.contains header.id = false)
    (h : Grows (r.insertInstance header) r') :
    r'.find? header.id = some header ∧ r'.types.find? header.id = none := by
  refine ⟨h.find? (find?_insertInstance_self hu), ?_⟩
  rw [h.types]
  exact find?_types_eq_none (r := r) hu

/-- A completed instance takes the place of its header. -/
theorem find?_complete {header entry : TypeDecl} (hu : r.contains header.id = false)
    (h : Grows (r.insertInstance header) r') (hid : entry.id = header.id) (t : TypeId) :
    (r'.insertInstance entry).find? t = if t = header.id then some entry else r'.find? t := by
  have hnone : r'.types.find? entry.id = none := by
    rw [hid]
    exact (find?_header hu h).2
  rw [find?_insertInstance hnone, hid]

theorem contains_complete {header entry : TypeDecl} (hu : r.contains header.id = false)
    (h : Grows (r.insertInstance header) r') (hid : entry.id = header.id) :
    (r'.insertInstance entry).contains header.id = true := by
  apply contains_of_find? (d := entry)
  rw [find?_complete hu h hid, if_pos rfl]

/-- The instance is not known and cannot be made, for the reason that the error gives. -/
inductive Refused (r : Registry) (template : TypeId) (args : List TypeId) : RegistrationError → Prop
  | unknown (hnew : r.contains (.ofInstance template args) = false) (h : r.find? template = none) :
      Refused r template args (.typeNotFound template.render)
  | notATemplate {d : TypeDecl} (hnew : r.contains (.ofInstance template args) = false)
      (hd : r.find? template = some d) (h : d.isTemplate = false) :
      Refused r template args (.notATemplate d.name)
  | arity {d : TypeDecl} (hnew : r.contains (.ofInstance template args) = false)
      (hd : r.find? template = some d) (ht : d.isTemplate = true)
      (h : d.typeParams.length ≠ args.length) :
      Refused r template args (.typeArgCount d.name d.typeParams.length args.length)

theorem known_or_refused_or_new (r : Registry) (template : TypeId) (args : List TypeId) :
    r.contains (.ofInstance template args) = true ∨ (∃ e, Refused r template args e) ∨
      ∃ d, NewInstance r template d args := by
  cases hc : r.contains (.ofInstance template args) with
  | true => exact .inl rfl
  | false =>
    refine .inr ?_
    cases hd : r.find? template with
    | none => exact .inl ⟨_, .unknown hc hd⟩
    | some d =>
      cases ht : d.isTemplate with
      | false => exact .inl ⟨_, .notATemplate hc hd ht⟩
      | true =>
        by_cases ha : d.typeParams.length = args.length
        · exact .inr ⟨d, hc, hd, ht, ha⟩
        · exact .inl ⟨_, .arity hc hd ht ha⟩

theorem instantiate_of_known (h : r.contains (.ofInstance template args) = true) :
    instantiate (fuel + 1) template args r = .done (.ofInstance template args) r := by
  simp only [instantiate, get_bind, h, if_true]
  rfl

theorem instantiate_of_refused (h : Refused r template args e) :
    instantiate (fuel + 1) template args r = .failed e r := by
  cases h with
  | unknown hnew h =>
    simp only [instantiate, get_bind, hnew, Bool.false_eq_true, if_false, h]
    rfl
  | notATemplate hnew hd h =>
    simp only [instantiate, get_bind, hnew, Bool.false_eq_true, if_false, hd, h, Bool.not_false, if_true]
    rfl
  | arity hnew hd ht h =>
    simp only [instantiate, get_bind, hnew, Bool.false_eq_true, if_false, hd, ht, Bool.not_true, ne_eq,
      h, not_false_eq_true, if_true]
    rfl

/-- The parts of an instance, from what its template mentions. -/
noncomputable def filled (header d : TypeDecl) : List TypeId → TypeDecl :=
  (walks_instanceDecl header d).choose

theorem instanceDecl_eq {m : Type → Type} [Monad m] [LawfulMonad m] (f : TypeId → m TypeId)
    (header d : TypeDecl) : instanceDecl f header d = filled header d <$> d.mentioned.mapM f :=
  (walks_instanceDecl header d).choose_spec m f

/-- What `d` declares, in the place of the type parameters of `d` the types `args`. -/
abbrev mentionedAt (fuel : Nat) (d : TypeDecl) (args : List TypeId) :
    Attempt Registry RegistrationError (List TypeId) :=
  d.mentioned.mapM (substitute fuel (.ofList (d.typeParams.zip args)))

theorem instantiate_of_new (h : NewInstance r template d args) :
    instantiate (fuel + 1) template args r =
      match mentionedAt fuel d args (r.insertInstance (r.instanceHeader d template args)) with
      | .done ts r' => .done (.ofInstance template args)
          (r'.insertInstance (filled (r.instanceHeader d template args) d ts))
      | .failed e r' => .failed e r'
      | .exhausted => .exhausted := by
  simp only [instantiate, get_bind, h.unknown, Bool.false_eq_true, if_false, h.found, h.isTemplate,
    Bool.not_true, h.arity, ne_eq, not_true_eq_false, modify_bind, instanceDecl_eq]
  rw [bind_apply, map_apply]
  unfold mentionedAt
  cases d.mentioned.mapM (substitute fuel (.ofList (d.typeParams.zip args)))
    (r.insertInstance (r.instanceHeader d template args)) <;> rfl

theorem instanceDecl_of_mentionedAt {ts : List TypeId} (header : TypeDecl)
    (h : mentionedAt fuel d args r = .done ts r') :
    instanceDecl (substitute fuel (.ofList (d.typeParams.zip args))) header d r =
      .done (filled header d ts) r' := by
  rw [instanceDecl_eq]
  exact map_eq_done_iff.2 ⟨ts, h, rfl⟩

theorem completes_filled {ts : List TypeId} (header : TypeDecl)
    (h : mentionedAt fuel d args r = .done ts r') : Completes header (filled header d ts) :=
  completes_of_instanceDecl (instanceDecl_of_mentionedAt header h)

theorem staticTarget_of_instanceDecl {ε : Type} {f : TypeId → Attempt Registry ε TypeId}
    {header : TypeDecl} (h : instanceDecl f header d r = .done entry r') :
    entry.staticTarget = d.staticTarget := by
  unfold instanceDecl at h
  obtain ⟨base, r₁, -, h⟩ := bind_eq_done_iff.1 h
  obtain ⟨interfaces, r₂, -, h⟩ := bind_eq_done_iff.1 h
  obtain ⟨kind, r₃, hkind, h⟩ := bind_eq_done_iff.1 h
  obtain ⟨methods, r₄, -, h⟩ := bind_eq_done_iff.1 h
  obtain ⟨constructors, r₅, -, h⟩ := bind_eq_done_iff.1 h
  obtain ⟨fields, r₆, -, h⟩ := bind_eq_done_iff.1 h
  obtain ⟨properties, r₇, -, h⟩ := bind_eq_done_iff.1 h
  obtain ⟨rfl, -⟩ := pure_eq_done_iff.1 h
  unfold TypeDecl.staticTarget
  dsimp only
  cases hd : d.kind with
  | delegate s =>
    rw [hd] at hkind
    obtain ⟨s', r₈, -, hkind⟩ := bind_eq_done_iff.1 hkind
    obtain ⟨rfl, -⟩ := pure_eq_done_iff.1 hkind
    rfl
  | classType | valueType | interfaceType | parameter _ | static _ =>
    rw [hd] at hkind
    obtain ⟨rfl, -⟩ := pure_eq_done_iff.1 hkind
    rfl

theorem staticWrapper_of_known (h : r.contains (.ofStatic target) = true) :
    staticWrapper target r = .done (.ofStatic target) r := by
  simp only [staticWrapper, get_bind, h, if_true]
  rfl

theorem staticWrapper_of_unknown (h : r.contains (.ofStatic target) = false)
    (hn : r.name? target = none) :
    staticWrapper target r = .failed (.typeNotFound target.render) r := by
  simp only [staticWrapper, get_bind, h, Bool.false_eq_true, if_false, hn]
  rfl

theorem staticWrapper_of_new {name : String} (h : r.contains (.ofStatic target) = false)
    (hn : r.name? target = some name) :
    staticWrapper target r =
      .done (.ofStatic target) (r.insertInstance (wrapperDecl name target)) := by
  simp only [staticWrapper, get_bind, h, Bool.false_eq_true, if_false, hn]
  rfl

theorem substitute_of_bound {bound : TypeId} (h : map.find? t = some bound) :
    substitute (fuel + 1) map t r = .done bound r := by
  simp only [substitute, h]
  rfl

theorem substitute_of_static (hmap : map.find? t = none) (hs : r.staticTarget? t = some target) :
    substitute (fuel + 1) map t r = (do
      let replaced ← substitute fuel map target
      if replaced = target then return t else staticWrapper replaced :
        Attempt Registry RegistrationError TypeId) r := by
  simp only [substitute, hmap, get_bind, hs]

theorem substitute_of_instance (hmap : map.find? t = none) (hs : r.staticTarget? t = none)
    (ht : r.template? t = some template) :
    substitute (fuel + 1) map t r = (do
      let replaced ← (r.typeArgs t).mapM (substitute fuel map)
      if replaced = r.typeArgs t then return t else instantiate fuel template replaced :
        Attempt Registry RegistrationError TypeId) r := by
  simp only [substitute, hmap, get_bind, hs, ht]

theorem substitute_of_plain (hmap : map.find? t = none) (hs : r.staticTarget? t = none)
    (ht : r.template? t = none) : substitute (fuel + 1) map t r = .done t r := by
  simp only [substitute, hmap, get_bind, hs, ht]
  rfl

/-- The ways in which a static view is found or made. -/
inductive Wrapped (target : TypeId) (r : Registry) : TypeId → Registry → Prop
  | known (h : r.contains (.ofStatic target) = true) : Wrapped target r (.ofStatic target) r
  | new {name : String} (h : r.contains (.ofStatic target) = false) (hn : r.name? target = some name) :
      Wrapped target r (.ofStatic target) (r.insertInstance (wrapperDecl name target))

theorem staticWrapper_eq_done_iff :
    staticWrapper target r = .done t r' ↔ Wrapped target r t r' := by
  constructor
  · intro h
    cases hc : r.contains (.ofStatic target) with
    | true =>
      rw [staticWrapper_of_known hc] at h
      cases h
      exact .known hc
    | false =>
      cases hn : r.name? target with
      | none =>
        rw [staticWrapper_of_unknown hc hn] at h
        cases h
      | some name =>
        rw [staticWrapper_of_new hc hn] at h
        cases h
        exact .new hc hn
  · intro h
    cases h with
    | known h => exact staticWrapper_of_known h
    | new h hn => exact staticWrapper_of_new h hn

/-- The ways in which an instance is found or made. -/
inductive Instantiated (fuel : Nat) (template : TypeId) (args : List TypeId) (r : Registry) :
    TypeId → Registry → Prop
  | known (h : r.contains (.ofInstance template args) = true) :
      Instantiated fuel template args r (.ofInstance template args) r
  | new {d : TypeDecl} {ts : List TypeId} {r' : Registry} (hnew : NewInstance r template d args)
      (h : mentionedAt fuel d args (r.insertInstance (r.instanceHeader d template args)) = .done ts r') :
      Instantiated fuel template args r (.ofInstance template args)
        (r'.insertInstance (filled (r.instanceHeader d template args) d ts))

theorem instantiate_eq_done_iff :
    instantiate (fuel + 1) template args r = .done t r' ↔ Instantiated fuel template args r t r' := by
  constructor
  · intro h
    rcases known_or_refused_or_new r template args with hk | ⟨e, hrefused⟩ | ⟨d, hnew⟩
    · rw [instantiate_of_known hk] at h
      cases h
      exact .known hk
    · rw [instantiate_of_refused hrefused] at h
      cases h
    · rw [instantiate_of_new hnew] at h
      cases hrun : mentionedAt fuel d args (r.insertInstance (r.instanceHeader d template args)) with
      | done ts r₁ =>
        rw [hrun] at h
        cases h
        exact .new hnew hrun
      | failed e r₁ =>
        rw [hrun] at h
        cases h
      | exhausted =>
        rw [hrun] at h
        cases h
  · intro h
    cases h with
    | known h => exact instantiate_of_known h
    | new hnew h => rw [instantiate_of_new hnew, h]

/-- The ways in which a type is replaced. -/
inductive Substituted (fuel : Nat) (map : Substitution) (t : TypeId) (r : Registry) :
    TypeId → Registry → Prop
  | bound {v : TypeId} (hmap : map.find? t = some v) : Substituted fuel map t r v r
  | plain (hmap : map.find? t = none) (hs : r.staticTarget? t = none) (ht : r.template? t = none) :
      Substituted fuel map t r t r
  | sameTarget {target : TypeId} {r' : Registry} (hmap : map.find? t = none)
      (hs : r.staticTarget? t = some target) (h : substitute fuel map target r = .done target r') :
      Substituted fuel map t r t r'
  | newTarget {target w v : TypeId} {r₁ r' : Registry} (hmap : map.find? t = none)
      (hs : r.staticTarget? t = some target) (h : substitute fuel map target r = .done w r₁)
      (hne : w ≠ target) (hw : staticWrapper w r₁ = .done v r') : Substituted fuel map t r v r'
  | sameArgs {template : TypeId} {r' : Registry} (hmap : map.find? t = none)
      (hs : r.staticTarget? t = none) (ht : r.template? t = some template)
      (h : (r.typeArgs t).mapM (substitute fuel map) r = .done (r.typeArgs t) r') :
      Substituted fuel map t r t r'
  | newArgs {template v : TypeId} {vs : List TypeId} {r₁ r' : Registry} (hmap : map.find? t = none)
      (hs : r.staticTarget? t = none) (ht : r.template? t = some template)
      (h : (r.typeArgs t).mapM (substitute fuel map) r = .done vs r₁) (hne : vs ≠ r.typeArgs t)
      (hi : instantiate fuel template vs r₁ = .done v r') : Substituted fuel map t r v r'

theorem substitute_eq_done_iff {v : TypeId} :
    substitute (fuel + 1) map t r = .done v r' ↔ Substituted fuel map t r v r' := by
  constructor
  · intro h
    cases hmap : map.find? t with
    | some b =>
      rw [substitute_of_bound hmap] at h
      cases h
      exact .bound hmap
    | none =>
      cases hs : r.staticTarget? t with
      | some target =>
        rw [substitute_of_static hmap hs] at h
        obtain ⟨w, r₁, hw, h⟩ := bind_eq_done_iff.1 h
        split at h
        · rename_i hsame
          cases h
          exact .sameTarget hmap hs (hsame ▸ hw)
        · rename_i hne
          exact .newTarget hmap hs hw hne h
      | none =>
        cases ht : r.template? t with
        | none =>
          rw [substitute_of_plain hmap hs ht] at h
          cases h
          exact .plain hmap hs ht
        | some template =>
          rw [substitute_of_instance hmap hs ht] at h
          obtain ⟨vs, r₁, hvs, h⟩ := bind_eq_done_iff.1 h
          split at h
          · rename_i hsame
            cases h
            exact .sameArgs hmap hs ht (hsame ▸ hvs)
          · rename_i hne
            exact .newArgs hmap hs ht hvs hne h
  · intro h
    cases h with
    | bound hmap => exact substitute_of_bound hmap
    | plain hmap hs ht => exact substitute_of_plain hmap hs ht
    | sameTarget hmap hs h =>
      rw [substitute_of_static hmap hs, bind_eq_done_iff]
      exact ⟨_, _, h, by rw [if_pos rfl]; rfl⟩
    | newTarget hmap hs h hne hw =>
      rw [substitute_of_static hmap hs, bind_eq_done_iff]
      exact ⟨_, _, h, by rwa [if_neg hne]⟩
    | sameArgs hmap hs ht h =>
      rw [substitute_of_instance hmap hs ht, bind_eq_done_iff]
      exact ⟨_, _, h, by rw [if_pos rfl]; rfl⟩
    | newArgs hmap hs ht h hne hi =>
      rw [substitute_of_instance hmap hs ht, bind_eq_done_iff]
      exact ⟨_, _, h, by rwa [if_neg hne]⟩

theorem deepens_substitute_succ
    (hs : ∀ map t, Deepens (substitute fuel map t) (substitute (fuel + 1) map t))
    (hi : ∀ template args, Deepens (instantiate fuel template args) (instantiate (fuel + 1) template args))
    (map : Substitution) (t : TypeId) :
    Deepens (substitute (fuel + 1) map t) (substitute (fuel + 2) map t) := by
  rw [substitute, substitute]
  split
  · exact .refl _
  · refine (Deepens.refl _).bind fun r ↦ ?_
    split
    · refine (hs map _).bind fun replaced ↦ ?_
      split <;> exact .refl _
    · refine (Deepens.mapM (hs map) _).bind fun replaced ↦ ?_
      split
      · exact .refl _
      · exact hi _ _
    · exact .refl _

theorem deepens_instantiate_succ
    (hs : ∀ map t, Deepens (substitute fuel map t) (substitute (fuel + 1) map t)) (template : TypeId)
    (args : List TypeId) :
    Deepens (instantiate (fuel + 1) template args) (instantiate (fuel + 2) template args) := by
  rw [instantiate, instantiate]
  refine (Deepens.refl _).bind fun r ↦ ?_
  dsimp only
  split
  · exact .refl _
  · split
    · exact .refl _
    · split
      · exact .refl _
      · split
        · exact .refl _
        · refine (Deepens.refl _).bind fun _ ↦ ?_
          rw [instanceDecl_eq, instanceDecl_eq]
          exact ((Deepens.mapM (hs _) _).map _).bind fun _ ↦ .refl _

theorem deepens_succ (fuel : Nat) :
    (∀ map t, Deepens (substitute fuel map t) (substitute (fuel + 1) map t)) ∧
      ∀ template args, Deepens (instantiate fuel template args) (instantiate (fuel + 1) template args) := by
  induction fuel with
  | zero => exact ⟨fun _ _ ↦ .exhausted _, fun _ _ ↦ .exhausted _⟩
  | succ fuel ih => exact ⟨deepens_substitute_succ ih.1 ih.2, deepens_instantiate_succ ih.1⟩

theorem deepens_of_le {m n : Nat} (h : m ≤ n) :
    (∀ map t, Deepens (substitute m map t) (substitute n map t)) ∧
      ∀ template args, Deepens (instantiate m template args) (instantiate n template args) := by
  induction h with
  | refl => exact ⟨fun _ _ ↦ .refl _, fun _ _ ↦ .refl _⟩
  | step _ ih =>
    exact ⟨fun map t ↦ (ih.1 map t).trans ((deepens_succ _).1 map t),
      fun template args ↦ (ih.2 template args).trans ((deepens_succ _).2 template args)⟩

theorem deepens_substitute (map : Substitution) (m n : Nat) (h : m ≤ n) (t : TypeId) :
    Deepens (substitute m map t) (substitute n map t) := (deepens_of_le h).1 map t

def known (r : Registry) : Set TypeId := {t | r.contains t = true}

/-- Whatever changes the registry makes a type known. -/
def Gains (r r' : Registry) : Prop := r' = r ∨ r.known ⊂ r'.known

instance : Std.Refl Gains := ⟨fun _ ↦ .inl rfl⟩

instance : IsTrans Registry Gains where
  trans r₁ r₂ r₃ h h' := by
    rcases h with rfl | h
    · exact h'
    · rcases h' with rfl | h'
      · exact .inr h
      · exact .inr (h.trans h')

theorem Grows.known_subset (h : Grows r r') : r.known ⊆ r'.known := fun _ ht ↦ h.contains ht

theorem known_ssubset (h : Grows r r') (hu : r.contains t = false) (hk : r'.contains t = true) :
    r.known ⊂ r'.known := by
  refine ⟨h.known_subset, fun hsub ↦ ?_⟩
  have hr : r.contains t = true := hsub hk
  rw [hu] at hr
  cases hr

theorem known_ssubset_insertInstance (hu : r.contains d.id = false) :
    r.known ⊂ (r.insertInstance d).known :=
  known_ssubset (.insertInstance hu) hu (contains_of_find? (find?_insertInstance_self hu))

theorem changes_gains : Changes Gains where
  wrapper _ _ name hu _ := .inr (known_ssubset_insertInstance (d := wrapperDecl name _) hu)
  header _ _ _ _ hnew := .inr (known_ssubset_insertInstance hnew.unknown)
  complete r template d args fuel entry r' hnew _ hrun := by
    have hgrows := (along_instanceDecl (grows_substitute fuel _) _ _).of_done hrun
    have hid := (completes_of_instanceDecl hrun).id
    exact .inr (known_ssubset (.complete hnew.unknown hgrows hid) hnew.unknown
      (contains_complete hnew.unknown hgrows hid))

theorem gains_mapM (fuel : Nat) (map : Substitution) (ts : List TypeId) :
    Along Gains (ts.mapM (substitute fuel map)) :=
  Along.mapM ts ((along_instantiate changes_gains fuel).1 map)

theorem Gains.known_subset (h : Gains r r') : r.known ⊆ r'.known := by
  rcases h with rfl | h
  · exact subset_rfl
  · exact h.subset

theorem Gains.eq_of_subset (h : Gains r r') (hsub : r'.known ⊆ r.known) : r' = r := by
  rcases h with rfl | h
  · rfl
  · exact absurd hsub h.not_subset

/-- `u` is what `t` is the static view of, or one of the type arguments of `t`. -/
def HasPart (r : Registry) (t u : TypeId) : Prop := r.staticTarget? t = some u ∨ u ∈ r.typeArgs t

end Registry

end CallResolution
