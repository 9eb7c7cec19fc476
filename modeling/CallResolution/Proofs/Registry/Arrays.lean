import CallResolution.Proofs.Registry.Lockstep
import CallResolution.Proofs.Registry.Refusal
import CallResolution.Proofs.Registry.Steady

namespace CallResolution

/-- The error says that a type is not known. -/
def RegistrationError.IsUnknown (e : RegistrationError) : Prop := ∃ t : TypeId, e = .typeNotFound t.render

namespace Registry

open Attempt

variable {r r' E : Registry} {fuel : Nat} {map : Substitution} {t v template : TypeId}
  {args : List TypeId} {d entry : TypeDecl} {e : RegistrationError}

theorem instancesFit_mapM {ts vs : List TypeId} (hr : r.InstancesFit)
    (h : ts.mapM (substitute fuel map) r = .done vs r') : r'.InstancesFit := hr.stage ((Stage.refl r).mapM h)

theorem mapM_failed {ts : List TypeId}
    (hs : ∀ t r r' e, r.InstancesFit → substitute fuel map t r = .failed e r' → e.IsUnknown)
    (hr : r.InstancesFit) (h : ts.mapM (substitute fuel map) r = .failed e r') : e.IsUnknown := by
  obtain ⟨before, t, after, vs, u, -, hbefore, ht⟩ := exists_split_of_mapM_failed h
  exact hs t u r' e (instancesFit_mapM hr hbefore) ht

theorem substitute_failed_succ
    (hs : ∀ map t r r' e, r.InstancesFit → substitute fuel map t r = .failed e r' → e.IsUnknown)
    (hi : ∀ template args r r' e, r.InstancesFit → (∀ e, ¬Refused r template args e) →
      instantiate fuel template args r = .failed e r' → e.IsUnknown)
    (hr : r.InstancesFit) (h : substitute (fuel + 1) map t r = .failed e r') : e.IsUnknown := by
  cases hmap : map.find? t with
  | some b =>
    rw [substitute_of_bound hmap] at h
    cases h
  | none =>
    cases hstatic : r.staticTarget? t with
    | some target =>
      rw [substitute_of_static hmap hstatic] at h
      rcases bind_eq_failed_iff.1 h with h | ⟨w, r₁, -, h⟩
      · exact hs map target r r' e hr h
      · split at h
        · cases h
        · exact ⟨w, (staticWrapper_failed h).2⟩
    | none =>
      cases ht : r.template? t with
      | none =>
        rw [substitute_of_plain hmap hstatic ht] at h
        cases h
      | some template =>
        rw [substitute_of_instance hmap hstatic ht] at h
        rcases bind_eq_failed_iff.1 h with h | ⟨vs, r₁, hvs, h⟩
        · exact mapM_failed (hs map) hr h
        · split at h
          · cases h
          · have hgrows := (Along.mapM _ (grows_substitute fuel map)).of_done hvs
            have hlength : vs.length = (r.typeArgs t).length := Method.length_eq_of_mapM hvs
            exact hi template vs r₁ r' e (instancesFit_mapM hr hvs)
              (Aging.not_refused_of_fit hr ht hlength hgrows) h

theorem instantiate_failed_succ
    (hs : ∀ map t r r' e, r.InstancesFit → substitute fuel map t r = .failed e r' → e.IsUnknown)
    (hr : r.InstancesFit) (hrefused : ∀ e, ¬Refused r template args e)
    (h : instantiate (fuel + 1) template args r = .failed e r') : e.IsUnknown := by
  rcases known_or_refused_or_new r template args with hknown | ⟨e', hno⟩ | ⟨d, hnew⟩
  · rw [instantiate_of_known hknown] at h
    cases h
  · exact absurd hno (hrefused e')
  · rw [instantiate_of_new hnew] at h
    cases hrun : mentionedAt fuel d args (r.insertInstance (r.instanceHeader d template args)) with
    | done ts r₁ =>
      rw [hrun] at h
      cases h
    | exhausted =>
      rw [hrun] at h
      cases h
    | failed e' r₁ =>
      rw [hrun] at h
      cases h
      exact mapM_failed (hs _) (hr.stage ((Stage.refl r).enter hnew)) hrun

theorem substitute_failed (hr : r.InstancesFit) (h : substitute fuel map t r = .failed e r') :
    e.IsUnknown := by
  suffices hboth : ∀ fuel,
      (∀ map t r r' e, r.InstancesFit → substitute fuel map t r = .failed e r' → e.IsUnknown) ∧
      ∀ template args r r' e, r.InstancesFit → (∀ e, ¬Refused r template args e) →
        instantiate fuel template args r = .failed e r' → e.IsUnknown from
    (hboth fuel).1 map t r r' e hr h
  intro fuel
  induction fuel with
  | zero =>
    constructor
    · intro map t r r' e _ h
      cases h
    · intro template args r r' e _ _ h
      cases h
  | succ fuel ih =>
    exact ⟨fun _ _ _ _ _ hr h ↦ substitute_failed_succ ih.1 ih.2 hr h,
      fun _ _ _ _ _ hr hrefused h ↦ instantiate_failed_succ ih.1 hr hrefused h⟩

/-- Every array is a class with one type argument. -/
def ArraysFit (r : Registry) : Prop :=
  ∀ t d, r.find? t = some d → d.template = some .array → d.kind = .classType ∧ ∃ el, d.typeArgs = [el]

theorem Coherent.arraysFit (hr : r.Coherent) (hplain : r.RegisteredPlain)
    (harray : r.types.find? .array = some arrayDecl) : r.ArraysFit := by
  intro t d hd ht
  obtain ⟨decl, hdecl, -, hlength, hclass⟩ := hr.origin_of_template hplain hd ht
  cases harray.symm.trans hdecl
  exact ⟨hclass rfl, List.length_eq_one_iff.1 hlength.symm⟩

theorem ArraysFit.of_grows (h : E.ArraysFit) (hgrows : Grows r E) : r.ArraysFit :=
  fun t d hd ↦ h t d (hgrows.find? hd)

theorem find?_of_elementType? {el : TypeId} (h : r.elementType? t = some el) :
    ∃ d, r.find? t = some d ∧ d.template = some .array ∧ d.typeArgs.head? = some el := by
  unfold elementType? at h
  split at h
  · rename_i htemplate
    obtain ⟨d, hd, ht⟩ := Option.bind_eq_some_iff.1 htemplate
    refine ⟨d, hd, ht, ?_⟩
    rwa [typeArgs, hd] at h
  · cases h

theorem ArraysFit.of_elementType? {el : TypeId} (hr : r.ArraysFit) (h : r.elementType? t = some el) :
    r.isParam t = false ∧ r.staticTarget? t = none ∧ r.template? t = some .array ∧ r.typeArgs t = [el] := by
  obtain ⟨d, hd, ht, hel⟩ := find?_of_elementType? h
  obtain ⟨hkind, el', hargs⟩ := hr t d hd ht
  rw [hargs] at hel
  cases hel
  simp [isParam, paramInfo?, staticTarget?, template?, Registry.typeArgs, hd, TypeDecl.paramInfo,
    TypeDecl.staticTarget, hkind, ht, hargs]

/-- Whatever the registry knows or has as a type argument, and what the list adds to it. -/
def occurring (r : Registry) (given : List TypeId) : List TypeId :=
  (r.types.entries ++ r.instances.entries).flatMap (fun e ↦ e.1 :: e.2.typeArgs) ++ given

theorem mem_occurring_of_contains {given : List TypeId} (h : r.contains t = true) : t ∈ r.occurring given := by
  obtain ⟨d, hd⟩ := exists_find?_of_contains h
  refine List.mem_append_left _ (List.mem_flatMap.2 ⟨(t, d), mem_entries_of_find? hd, ?_⟩)
  exact List.mem_cons_self

theorem mem_occurring_of_typeArgs {given : List TypeId} (h : v ∈ r.typeArgs t) : v ∈ r.occurring given := by
  unfold Registry.typeArgs at h
  cases hd : r.find? t with
  | none =>
    rw [hd] at h
    cases h
  | some d =>
    rw [hd] at h
    refine List.mem_append_left _ (List.mem_flatMap.2 ⟨(t, d), mem_entries_of_find? hd, ?_⟩)
    exact List.mem_cons_of_mem _ h

theorem mem_occurring_of_substitute {given : List TypeId} (h : substitute fuel map t r = .done v r')
    (hE : Grows r' E) (hmap : ∀ k b, map.find? k = some b → b ∈ E.occurring given)
    (ht : t ∈ E.occurring given) : v ∈ E.occurring given := by
  cases fuel with
  | zero => cases h
  | succ fuel =>
    cases substitute_eq_done_iff.1 h with
    | bound hb => exact hmap t v hb
    | plain _ _ _ => exact ht
    | sameTarget _ _ _ => exact ht
    | sameArgs _ _ _ _ => exact ht
    | newTarget _ _ _ _ hw => exact mem_occurring_of_contains (hE.contains (contains_of_staticWrapper hw).2)
    | newArgs _ _ _ _ _ hi => exact mem_occurring_of_contains (hE.contains (contains_of_instantiate hi).2)

/-- No handle of an array of one of the types that occur is mistaken for another. -/
def ArraysClear (r : Registry) (given : List TypeId) : Prop :=
  ∀ w ∈ r.occurring given, r.contains (.ofInstance .array [w]) = true → r.HasInstance .array [w]

instance (given : List TypeId) : Decidable (r.ArraysClear given) :=
  inferInstanceAs (Decidable (∀ w ∈ r.occurring given, _ → _))

theorem HasInstance.elementType? {w : TypeId} (h : r.HasInstance .array [w]) :
    r.elementType? (.ofInstance .array [w]) = some w := by
  rw [Registry.elementType?, if_pos h.template, h.typeArgs]
  rfl

/-- An array stays an array, be it the same one or one of other elements. -/
theorem elementType?_of_substitute {given : List TypeId} {el : TypeId} (harrays : E.ArraysFit)
    (hclear : E.ArraysClear given) (hkeys : ∀ k b, map.find? k = some b → r.isParam k = true)
    (hmap : ∀ k b, map.find? k = some b → b ∈ E.occurring given) (hel : r.elementType? t = some el)
    (h : substitute fuel map t r = .done v r') (hE : Grows r' E) : ∃ w, r'.elementType? v = some w := by
  have hgrows : Grows r r' := (grows_substitute fuel map t).of_done h
  have hrE : Grows r E := IsTrans.trans _ _ _ hgrows hE
  obtain ⟨hparam, hstatic, htemplate, hargs⟩ := (harrays.of_grows hrE).of_elementType? hel
  have hocc : el ∈ E.occurring given := by
    refine mem_occurring_of_typeArgs (t := t) ?_
    rw [(hrE.looksAlike (contains_of_template? htemplate)).2.2, hargs]
    exact List.mem_singleton_self el
  cases fuel with
  | zero => cases h
  | succ fuel =>
    cases substitute_eq_done_iff.1 h with
    | bound hb =>
      rw [hkeys t v hb] at hparam
      cases hparam
    | plain _ _ ht =>
      rw [htemplate] at ht
      cases ht
    | sameTarget _ hs _ =>
      rw [hstatic] at hs
      cases hs
    | newTarget _ hs _ _ _ =>
      rw [hstatic] at hs
      cases hs
    | sameArgs _ _ _ _ =>
      obtain ⟨-, htemplate', hargs'⟩ := hgrows.looksAlike (contains_of_template? htemplate)
      refine ⟨el, ?_⟩
      rw [elementType?, htemplate', htemplate, if_pos rfl, hargs', hargs]
      rfl
    | newArgs _ _ ht hvs _ hi =>
      rw [htemplate] at ht
      cases ht
      rw [hargs] at hvs
      obtain ⟨w, r₁, ws, hw, hws, rfl⟩ := mapM_cons_eq_done_iff.1 hvs
      rw [List.mapM_nil] at hws
      obtain ⟨rfl, rfl⟩ := pure_eq_done_iff.1 hws
      obtain ⟨rfl, hknown⟩ := contains_of_instantiate hi
      have hgrows₁ := (grows_instantiate _ _ _).of_done hi
      have hwocc := mem_occurring_of_substitute hw (IsTrans.trans _ _ _ hgrows₁ hE) hmap hocc
      have hfind := hE.find?_eq hknown
      have helement := (hclear w hwocc (hE.contains hknown)).elementType?
      refine ⟨w, ?_⟩
      rwa [elementType?, template?, typeArgs, hfind] at helement

end Registry

end CallResolution
