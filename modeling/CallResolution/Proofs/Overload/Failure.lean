import CallResolution.Proofs.Overload.TypeArgs
import CallResolution.Proofs.Registry.Accounted
import CallResolution.Proofs.Registry.Arrays

/-!
How a call among methods fails. It fails over a tie, or over what was declared; and where every variadic
method was declared with an array at its end, over a tie or over a type that is not known.
-/

namespace CallResolution

open Attempt Registry

namespace Candidate

variable {fuel : Nat}

theorem isInternal_of_restElement {r : Registry} {d : Method} {e : CompileError}
    (h : d.restElement r = .error e) : e.isInternal = true := by
  unfold Method.restElement at h
  split at h
  · cases h
    rfl
  · split at h
    · cases h
      rfl
    · cases h

theorem isInternal_of_packRest {r : Registry} {d : Method} {args : List Expr} {e : CompileError}
    (h : d.packRest r args = .error e) : e.isInternal = true := by
  unfold Method.packRest at h
  cases hrest : d.restElement r with
  | error e' =>
    rw [hrest] at h
    cases h
    exact isInternal_of_restElement hrest
  | ok p =>
    rw [hrest] at h
    simp only [bind, Except.bind] at h
    split at h
    · cases h
      rfl
    · cases h

theorem raises_isApplicable (c : Candidate) : Raises (·.isInternal = true) (c.isApplicable fuel) := by
  unfold isApplicable
  split
  · exact .pure _
  · split
    · refine Raises.get.bind fun r ↦ (Raises.ofExcept fun e ↦ isInternal_of_restElement).bind fun p ↦ ?_
      dsimp only
      split
      · exact .pure _
      · exact .ask _
    · split
      · exact .pure _
      · exact .ask _

theorem raises_specialize (c : Candidate) (map : Substitution) :
    Raises (·.isInternal = true) (c.specialize fuel map) := by
  refine Raises.bind ?_ fun _ ↦ .pure _
  unfold Method.specialize
  split
  · exact .fail rfl
  · refine Raises.bind ?_ fun _ ↦ .pure _
    exact .mapError fun _ _ _ _ ↦ rfl

theorem raises_bindExplicit (typeArgs : List TypeId) (c : Candidate) :
    Raises (·.isInternal = true) (c.bindExplicit fuel typeArgs) := by
  unfold bindExplicit
  dsimp only
  split
  · exact .pure _
  · refine (Raises.ask _).bind fun suits ↦ ?_
    split
    · refine (Raises.ofExcept fun e he ↦ ?_).bind fun map ↦ (raises_specialize c map).bind fun _ ↦ .pure _
      unfold Substitution.ofArgs at he
      split at he
      · cases he
        rfl
      · cases he
    · exact .pure _

theorem raises_bindTypeArgs (typeArgs : List TypeId) (cs : List Candidate) :
    Raises (·.isInternal = true) (bindTypeArgs fuel typeArgs cs) := by
  unfold bindTypeArgs
  split
  · exact .pure _
  · exact (Raises.mapM (raises_bindExplicit typeArgs) cs).bind fun _ ↦ .pure _

theorem raises_settle (c : Candidate) : Raises (·.isInternal = true) (c.settle fuel) := by
  unfold settle
  refine (raises_isApplicable c).bind fun applicable ↦ ?_
  split
  · split
    · unfold bindInferred
      refine (Raises.ask _).bind fun found ↦ ?_
      cases found with
      | none => exact .pure _
      | some map =>
        exact (raises_specialize c map).bind fun c' ↦ (raises_isApplicable c').bind fun _ ↦ .pure _
    · exact .pure _
  · exact .pure _

theorem raises_pack (c : Candidate) : Raises (·.isInternal = true) c.pack := by
  unfold pack
  split
  · exact Raises.get.bind fun r ↦ (Raises.ofExcept fun e ↦ isInternal_of_packRest).bind fun _ ↦ .pure _
  · exact .pure _

theorem error_of_best {r : Registry} {ambiguity : Ambiguity} {span : Span} {cs : List Candidate}
    {e : CompileError} (h : best r ambiguity span cs = .error e) :
    ambiguity = .reject ∧ ∃ name candidates, e = .ambiguousOverload name candidates span := by
  unfold best at h
  split at h
  · cases h
  · dsimp only at h
    split at h
    · rename_i htie
      cases h
      exact ⟨htie.1, _, _, rfl⟩
    · cases h

end Candidate

theorem raises_dispatch (fuel : Nat) (ambiguity : Ambiguity) (span : Span) (receiver : Option Expr)
    (members : List Method) (typeArgs : List TypeId) (args : List Expr) :
    Raises (fun e ↦ e.isInternal = true ∨ ∃ name candidates, e = .ambiguousOverload name candidates span)
      (dispatch fuel ambiguity span receiver members typeArgs args) := by
  have hinternal (α : Type) (x : Attempt Registry CompileError α) (h : Raises (·.isInternal = true) x) :
      Raises (fun e ↦ e.isInternal = true ∨
        ∃ name candidates, e = .ambiguousOverload name candidates span) x := h.mono fun _ ↦ .inl
  unfold dispatch
  refine (hinternal _ _ (Candidate.raises_bindTypeArgs typeArgs _)).bind fun bound ↦ ?_
  refine (hinternal _ _ (Raises.mapM Candidate.raises_settle bound)).bind fun settled ↦ ?_
  refine (hinternal _ _ (Raises.mapM Candidate.raises_pack _)).bind fun packed ↦ Raises.get.bind fun r ↦ ?_
  refine (Raises.ofExcept fun e he ↦ .inr (Candidate.error_of_best he).2).bind fun found ↦ ?_
  cases found with
  | none => exact .pure _
  | some c => exact .pure _

theorem Dictionary.isSome_find?_ofList {κ α : Type} [DecidableEq κ] (ps : List (κ × α)) (k : κ) :
    ((ofList ps).find? k).isSome = true ↔ k ∈ ps.map Prod.fst := by
  have hfold (d : Dictionary κ α) : ((ps.foldl (fun d p ↦ d.insert p.1 p.2) d).find? k).isSome = true ↔
      k ∈ ps.map Prod.fst ∨ (d.find? k).isSome = true := by
    induction ps generalizing d with
    | nil => simp
    | cons p ps ih =>
      rw [List.foldl_cons, ih, find?_insert, List.map_cons, List.mem_cons]
      by_cases hk : k = p.1
      · simp [hk]
      · simp [hk]
  exact (hfold ∅).trans (or_iff_left (by rintro ⟨⟩))

namespace Registry

variable {r r' : Registry} {fuel : Nat}

theorem mem_of_pairTypes {param arg : TypeId} {pairs : List (TypeId × TypeId)}
    (h : r.pairTypes fuel param arg = some pairs) :
    ∀ p ∈ pairs, p.2 = arg ∨ ∃ t, p.2 ∈ r.typeArgs t := by
  induction fuel generalizing param arg pairs with
  | zero => cases h
  | succ fuel ih =>
    rw [pairTypes] at h
    split at h
    · cases h
      intro p hp
      cases List.mem_singleton.1 hp
      exact .inl rfl
    · obtain ⟨isOpen, -, h⟩ := Option.bind_eq_some_iff.1 h
      split at h
      · cases htemplate : r.template? param with
        | none =>
          simp only [htemplate] at h
          cases h
          simp
        | some template =>
          simp only [htemplate] at h
          obtain ⟨found, -, h⟩ := Option.bind_eq_some_iff.1 h
          cases found with
          | none =>
            cases h
            simp
          | some found =>
            obtain ⟨lists, hlists, h⟩ := Option.bind_eq_some_iff.1 h
            cases h
            intro p hp
            obtain ⟨list, hlist, hp⟩ := List.mem_flatten.1 hp
            obtain ⟨q, hq, hpair⟩ := exists_of_mem_mapM_eq_some hlists hlist
            rcases ih hpair p hp with heq | hargs
            · exact .inr ⟨found, heq ▸ (List.of_mem_zip hq).2⟩
            · exact .inr hargs
      · cases h
        simp

theorem mem_of_pairExpr {param : TypeId} {arg : Expr} {pairs : List (TypeId × TypeId)}
    (h : r.pairExpr fuel param arg = some pairs) :
    ∀ p ∈ pairs, p.2 ∈ arg.handles ∨ ∃ t, p.2 ∈ r.typeArgs t := by
  have htype : arg.type ∈ arg.handles := by cases arg <;> simp [Expr.handles, Expr.type]
  unfold pairExpr at h
  split at h
  · rename_i params body t signature _
    obtain ⟨lists, hlists, h⟩ := Option.bind_eq_some_iff.1 h
    obtain ⟨last, hlast, h⟩ := Option.bind_eq_some_iff.1 h
    cases h
    intro p hp
    rcases List.mem_append.1 hp with hp | hp
    · obtain ⟨list, hlist, hp⟩ := List.mem_flatten.1 hp
      obtain ⟨q, hq, hpair⟩ := exists_of_mem_mapM_eq_some hlists hlist
      refine (mem_of_pairTypes hpair p hp).imp_left fun heq ↦ ?_
      have hparam := List.mem_map_of_mem (f := Param.type) (List.of_mem_zip hq).2
      exact heq ▸ List.mem_cons_of_mem _ (List.mem_cons_of_mem _ hparam)
    · refine (mem_of_pairTypes hlast p hp).imp_left fun heq ↦ ?_
      exact heq ▸ List.mem_cons_of_mem _ List.mem_cons_self
  · intro p hp
    refine (mem_of_pairTypes h p hp).imp_left fun heq ↦ ?_
    rwa [heq]

theorem Grows.mem_typeArgs {t v : TypeId} (h : Grows r r') (hv : v ∈ r.typeArgs t) : v ∈ r'.typeArgs t := by
  unfold Registry.typeArgs at hv ⊢
  cases hd : r.find? t with
  | none =>
    rw [hd] at hv
    cases hv
  | some d =>
    rw [hd] at hv
    rwa [h.find? hd]

theorem keepsFit_substitute (n : Nat) (map : Substitution) (t : TypeId) :
    Along (Keeps InstancesFit) (substitute n map t) :=
  (along_instantiate inductive_instancesFit.changes n).1 map t

theorem Grows.isParam {t : TypeId} (h : Grows r r') (ht : r.isParam t = true) : r'.isParam t = true := by
  unfold Registry.isParam paramInfo? at ht ⊢
  cases hd : r.find? t with
  | none =>
    rw [hd] at ht
    cases ht
  | some d =>
    rw [hd] at ht
    rwa [h.find? hd]

end Registry

/-- The error says that a type could not be made because one is not known. -/
def CompileError.NamesUnknown (e : CompileError) : Prop :=
  ∃ cause : RegistrationError, cause.IsUnknown ∧ e = .registration cause

/-- Every array is one, and none of a type that occurs has been mistaken for something else. -/
structure Registry.ArraysHold (E : Registry) (given : List TypeId) : Prop where
  arrays : E.ArraysFit
  clear : E.ArraysClear given

namespace Method

variable {fuel : Nat} {r r' s E : Registry} {m d : Method} {map : Substitution} {args : List Expr}
  {given : List TypeId} {e : CompileError}

theorem isSome_find?_of_infer (h : m.infer r fuel args = some (some map)) :
    ∀ p ∈ m.typeParams, (map.find? p).isSome = true := by
  intro p hp
  obtain ⟨-, -, -, -, -, hfits⟩ := infer_eq_some h
  have hfit := allM_eq_some_true_iff.1 hfits p hp
  cases hb : map.find? p with
  | none =>
    rw [hb] at hfit
    cases hfit
  | some b => rfl

/-- The substitution binds type parameters only, to types that occur. -/
structure BindsTo (map : Substitution) (r E : Registry) (given : List TypeId) : Prop where
  key : ∀ k b, map.find? k = some b → r.isParam k = true
  value : ∀ k b, map.find? k = some b → b ∈ E.occurring given

theorem bindsTo_of_infer (h : m.infer r fuel args = some (some map)) (hE : Grows r E)
    (hargs : ∀ a ∈ args, a.handles ⊆ given) : BindsTo map r E given := by
  refine ⟨fun k b hb ↦ isParam_of_satisfies (satisfies_of_infer h hb), fun k b hb ↦ ?_⟩
  obtain ⟨types, pairs, -, hpairs, hbind, -⟩ := infer_eq_some h
  rcases Substitution.mem_of_bindAll hbind hb with hempty | hmem
  · cases hempty
  · obtain ⟨list, hlist, hp⟩ := List.mem_flatten.1 (List.mem_filter.1 hmem).1
    obtain ⟨q, hq, hpair⟩ := exists_of_mem_mapM_eq_some hpairs hlist
    rcases mem_of_pairExpr hpair _ hp with hhandle | ⟨t, ht⟩
    · exact List.mem_append_right _ (hargs q.2 (List.of_mem_zip hq).2 hhandle)
    · exact mem_occurring_of_typeArgs (hE.mem_typeArgs ht)

theorem bindsTo_ofList {typeArgs : List TypeId}
    (h : ∀ p ∈ m.typeParams.zip typeArgs, r.satisfies fuel p.1 p.2 = some true)
    (htypeArgs : typeArgs ⊆ given) : BindsTo (.ofList (m.typeParams.zip typeArgs)) r E given where
  key _ _ hb := isParam_of_satisfies (h _ (Dictionary.mem_of_find?_ofList hb))
  value _ _ hb :=
    List.mem_append_right _ (htypeArgs (List.of_mem_zip (Dictionary.mem_of_find?_ofList hb)).2)

/-- A variadic method ends in an array. -/
def HasRest (r : Registry) (m : Method) : Prop :=
  m.isVariadic = true →
    ∃ rest element, m.params.getLast? = some rest ∧ r.elementType? rest.type = some element

theorem HasRest.grows (h : m.HasRest r) (hgrows : Grows r r') : m.HasRest r' := by
  intro hv
  obtain ⟨rest, element, hlast, he⟩ := h hv
  exact ⟨rest, element, hlast, hgrows.elementType? he⟩

/-- With all type parameters bound, there is nothing but an unknown type for specialization to fail over. -/
theorem specialize_failed (hr : r.InstancesFit) (hbound : ∀ p ∈ m.typeParams, (map.find? p).isSome = true)
    (h : m.specialize fuel map r = .failed e r') : e.NamesUnknown := by
  have htypeArgs : ∃ args, m.typeParams.mapM map.find? = some args := by
    refine ⟨m.typeParams.map fun p ↦ (map.find? p).getD p, mapM_eq_some_iff.2 ?_⟩
    rw [List.map_map]
    refine List.map_congr_left fun p hp ↦ ?_
    obtain ⟨b, hb⟩ := Option.isSome_iff_exists.1 (hbound p hp)
    simp [hb]
  obtain ⟨typeArgs, htypeArgs⟩ := htypeArgs
  obtain ⟨build, hbuild⟩ := walks_method m
  unfold specialize at h
  simp only [htypeArgs] at h
  rcases bind_eq_failed_iff.1 h with h | ⟨_, _, -, h⟩
  · have hwalk := hbuild _ (substitute fuel map)
    dsimp only at hwalk
    unfold mapError at h
    rw [hwalk, map_apply] at h
    cases hrun : m.mentioned.mapM (substitute fuel map) r with
    | done ts s =>
      rw [hrun] at h
      cases h
    | exhausted =>
      rw [hrun] at h
      cases h
    | failed cause s =>
      rw [hrun] at h
      cases h
      exact ⟨cause, mapM_failed (fun t _ _ _ ↦ substitute_failed) hr hrun, rfl⟩
  · cases h

theorem params_of_specialize (h : m.specialize fuel map r = .done d s) :
    ∃ s₁, m.params.mapM (Param.mapTypes (substitute fuel map)) r = .done d.params s₁ ∧ Grows s₁ s := by
  unfold specialize at h
  cases htypeArgs : m.typeParams.mapM map.find? with
  | none =>
    simp only [htypeArgs] at h
    exact absurd h fail_ne_done
  | some typeArgs =>
    simp only [htypeArgs] at h
    obtain ⟨replaced, s', hrun, h⟩ := bind_eq_done_iff.1 h
    obtain ⟨rfl, rfl⟩ := pure_eq_done_iff.1 h
    have hrun := mapError_eq_done_iff.1 hrun
    unfold mapTypes at hrun
    obtain ⟨params, s₁, hparams, hrun⟩ := bind_eq_done_iff.1 hrun
    obtain ⟨result, s₂, hresult, hrun⟩ := bind_eq_done_iff.1 hrun
    obtain ⟨rfl, rfl⟩ := pure_eq_done_iff.1 hrun
    exact ⟨s₁, hparams, (grows_substitute fuel map _).of_done hresult⟩

/-- The rest parameter is specialized last, and stays an array. -/
theorem HasRest.specialize (hm : m.HasRest r) (hend : E.ArraysHold given) (hmap : BindsTo map r E given)
    (h : m.specialize fuel map r = .done d s) (hE : Grows s E) : d.HasRest s := by
  intro hv
  rw [(specialize_eq_done h).1.isVariadic] at hv
  obtain ⟨rest, element, hlast, helement⟩ := hm hv
  obtain ⟨s₁, hparams, hs₁⟩ := params_of_specialize h
  obtain ⟨fixed, hfixed⟩ := List.getLast?_eq_some_iff.1 hlast
  rw [hfixed, List.mapM_append] at hparams
  obtain ⟨ps, r₁, hps, hparams⟩ := bind_eq_done_iff.1 hparams
  obtain ⟨qs, r₂, hqs, hparams⟩ := bind_eq_done_iff.1 hparams
  obtain ⟨hd, rfl⟩ := pure_eq_done_iff.1 hparams
  obtain ⟨rest', r₃, qs', hrest, hnil, rfl⟩ := mapM_cons_eq_done_iff.1 hqs
  rw [List.mapM_nil] at hnil
  obtain ⟨rfl, rfl⟩ := pure_eq_done_iff.1 hnil
  obtain ⟨v, r₄, hv, hrest⟩ := bind_eq_done_iff.1 hrest
  obtain ⟨rfl, rfl⟩ := pure_eq_done_iff.1 hrest
  have hr₁ : Grows r r₁ :=
    (Along.mapM fixed (along_mapTypes_param (grows_substitute fuel map))).of_done hps
  obtain ⟨w, hw⟩ := elementType?_of_substitute hend.arrays hend.clear
    (fun k b hb ↦ hr₁.isParam (hmap.key k b hb)) hmap.value (hr₁.elementType? helement) hv
    (IsTrans.trans _ _ _ hs₁ hE)
  refine ⟨{ rest with type := v }, w, ?_, hs₁.elementType? hw⟩
  rw [← hd, List.getLast?_concat]

end Method

namespace Candidate

variable {fuel : Nat} {r r' s E : Registry} {c c' : Candidate} {typeArgs given : List TypeId}
  {e : CompileError}

/-- The candidate ends in an array if it is variadic, and all types of its arguments are `given`. -/
structure Fit (r : Registry) (given : List TypeId) (c : Candidate) : Prop where
  rest : c.method.HasRest r
  args : ∀ a ∈ c.args, a.handles ⊆ given

theorem Fit.grows (h : c.Fit r given) (hgrows : Grows r r') : c.Fit r' given :=
  ⟨h.rest.grows hgrows, h.args⟩

theorem fit_ofMethod {m : Method} {receiver : Option Expr} {args : List Expr} (hm : m.HasRest r)
    (hgiven : (receiver.toList ++ args).flatMap Expr.handles ⊆ given) :
    (ofMethod receiver args m).Fit r given := by
  refine ⟨by rwa [ofMethod_method], fun a ha t ht ↦ hgiven (List.mem_flatMap.2 ⟨a, ?_, ht⟩)⟩
  rw [ofMethod_args] at ha
  unfold Method.supplied at ha
  split at ha
  · exact ha
  · exact List.mem_append_right _ ha

theorem Binds.fit (h : Binds fuel typeArgs c r (some c') s) (hc : c.Fit r given) (hend : E.ArraysHold given)
    (htypeArgs : typeArgs ⊆ given) (hE : Grows s E) : c'.Fit s given := by
  cases h with
  | absent _ => exact hc
  | bound _ _ hsuits hd =>
    exact ⟨hc.rest.specialize hend (Method.bindsTo_ofList hsuits htypeArgs) hd hE, hc.args⟩

theorem Binds.grows {o : Option Candidate} (h : Binds fuel typeArgs c r o s) : Grows r s := by
  cases h with
  | absent _ | miscounted _ _ | unsuited _ _ _ => exact refl _
  | bound _ _ _ hd => exact (Method.along_specialize grows_substitute fuel c.method _).of_done hd

theorem isApplicable_ne_failed (hc : c.method.HasRest r) : c.isApplicable fuel r ≠ .failed e r' := by
  intro h
  unfold isApplicable at h
  split at h
  · cases h
  · split at h
    · rename_i hv
      obtain ⟨rest, element, hlast, helement⟩ := hc hv
      have hrest := Method.restElement_eq_ok_iff.2 ⟨rest, hlast, rfl, helement⟩
      rw [get_bind, hrest] at h
      rcases bind_eq_failed_iff.1 h with h | ⟨p, s, -, h⟩
      · cases h
      · dsimp only at h
        split at h
        · cases h
        · exact ask_ne_failed h
    · split at h
      · cases h
      · exact ask_ne_failed h

theorem bindExplicit_failed (hr : r.InstancesFit) (h : c.bindExplicit fuel typeArgs r = .failed e r') :
    e.NamesUnknown := by
  unfold bindExplicit at h
  dsimp only at h
  split at h
  · cases h
  · rename_i hlen
    have hlen : c.method.typeParams.length = typeArgs.length := by simpa using hlen
    rcases bind_eq_failed_iff.1 h with h | ⟨suits, r₁, hask, h⟩
    · exact absurd h ask_ne_failed
    · obtain ⟨-, rfl⟩ := ask_eq_done_iff.1 hask
      split at h
      · simp only [Substitution.ofArgs, hlen, ne_eq, not_true, if_false] at h
        rcases bind_eq_failed_iff.1 h with h | ⟨map, r₂, hmap, h⟩
        · cases h
        · obtain ⟨hmap, rfl⟩ := ofExcept_eq_done_iff.1 hmap
          cases hmap
          rcases bind_eq_failed_iff.1 h with h | ⟨_, _, -, h⟩
          · rcases bind_eq_failed_iff.1 h with h | ⟨_, _, -, h⟩
            · refine Method.specialize_failed hr (fun p hp ↦ ?_) h
              rw [Dictionary.isSome_find?_ofList, List.map_fst_zip hlen.le]
              exact hp
            · cases h
          · cases h
      · cases h

theorem bindTypeArgs_failed {cs : List Candidate} (hr : r.InstancesFit)
    (h : bindTypeArgs fuel typeArgs cs r = .failed e r') : e.NamesUnknown := by
  unfold bindTypeArgs at h
  split at h
  · cases h
  · rcases bind_eq_failed_iff.1 h with h | ⟨_, _, -, h⟩
    · obtain ⟨before, c, after, os, s, -, hbefore, hc⟩ := exists_split_of_mapM_failed h
      have hs := (Along.mapM before (along_bindExplicit keepsFit_substitute typeArgs)).of_done hbefore hr
      exact bindExplicit_failed hs hc
    · cases h

theorem settle_failed (hr : r.InstancesFit) (hc : c.Fit r given) (hend : E.ArraysHold given)
    (h : c.settle fuel r = .failed e r') (hE : Grows r' E) : e.NamesUnknown := by
  unfold settle at h
  rcases bind_eq_failed_iff.1 h with h | ⟨applies, r₁, happ, h⟩
  · exact absurd h (isApplicable_ne_failed hc.rest)
  · obtain rfl := (along_isApplicable c).of_done happ
    split at h
    · split at h
      · unfold bindInferred at h
        rcases bind_eq_failed_iff.1 h with h | ⟨found, r₂, hask, h⟩
        · exact absurd h ask_ne_failed
        · obtain ⟨hinfer, rfl⟩ := ask_eq_done_iff.1 hask
          cases found with
          | none => cases h
          | some map =>
            rcases bind_eq_failed_iff.1 h with h | ⟨c', s, hc', h⟩
            · rcases bind_eq_failed_iff.1 h with h | ⟨_, _, -, h⟩
              · exact Method.specialize_failed hr (Method.isSome_find?_of_infer hinfer) h
              · cases h
            · rcases bind_eq_failed_iff.1 h with h | ⟨_, _, -, h⟩
              · obtain ⟨d, hd, rfl⟩ := specialize_eq_done_iff.1 hc'
                obtain rfl : s = r' := along_isApplicable _ s r' (by rw [h]; rfl)
                have hgrows := (Method.along_specialize grows_substitute fuel c.method map).of_done hd
                have hmap := Method.bindsTo_of_infer hinfer (IsTrans.trans _ _ _ hgrows hE) hc.args
                exact absurd h (isApplicable_ne_failed (hc.rest.specialize hend hmap hd hE))
              · cases h
      · cases h
    · cases h

/-- Candidates that are bound one after another fit when it is their turn to be settled. -/
theorem mapM_settle_failed {cs bound : List Candidate} (hcs : ∀ c ∈ cs, c.Fit r given)
    (hbound : Sieve (Binds fuel typeArgs) cs r bound s) (htypeArgs : typeArgs ⊆ given) (hs : s.InstancesFit)
    (hend : r'.ArraysHold given) (h : bound.mapM (settle fuel) s = .failed e r') : e.NamesUnknown := by
  obtain ⟨before, c, after, os, u, rfl, hbefore, hc⟩ := exists_split_of_mapM_failed h
  obtain ⟨c₀, hc₀, s₀, s₁, hrs₀, hbinds, hs₁s⟩ :=
    hbound.exists_of_mem (fun _ _ _ _ hstep ↦ hstep.grows) (b := c) (by simp)
  have hsu : Grows s u := (Along.mapM before (along_settle grows_substitute)).of_done hbefore
  have hur' : Grows u r' := along_settle grows_substitute c u r' (by rw [hc]; rfl)
  have hs₁u : Grows s₁ u := IsTrans.trans _ _ _ hs₁s hsu
  have hfit := hbinds.fit ((hcs c₀ hc₀).grows hrs₀) hend htypeArgs (IsTrans.trans _ _ _ hs₁u hur')
  have hu : u.InstancesFit := (Along.mapM before (along_settle keepsFit_substitute)).of_done hbefore hs
  exact settle_failed hu (hfit.grows hs₁u) hend hc (refl r')

end Candidate

section

variable {fuel : Nat} {r r' : Registry} {ambiguity : Ambiguity} {span : Span} {receiver : Option Expr}
  {members : List Method} {typeArgs : List TypeId} {args : List Expr} {e : CompileError}

/-- What survives is packed, and the best of it chosen: that fails over a tie only. -/
theorem Survivors.dispatch_failed {cs : List Candidate}
    (h : Survivors fuel receiver members typeArgs args r cs r')
    {s : Registry} (hrun : dispatch fuel ambiguity span receiver members typeArgs args r = .failed e s) :
    ambiguity = .reject ∧ ∃ name candidates, e = .ambiguousOverload name candidates span := by
  choose! packed hpack using h.exists_pack
  rw [h.dispatch_eq (mapM_eq_done_map hpack)] at hrun
  split at hrun
  · cases hrun
  · rename_i hbest
    cases hrun
    exact Candidate.error_of_best hbest

/-- A call among methods of which each variadic one ends in an array fails over a tie, if ties are
rejected, or over a type that is not known. -/
theorem dispatch_failure_is_tie_or_unknown
    (hr : Relation.ReflTransGen (Step TypeDecl.IsDeclaration) builtin r) (hrest : ∀ m ∈ members, m.HasRest r)
    (hclear : r'.ArraysClear (typeArgs ++ (receiver.toList ++ args).flatMap Expr.handles))
    (h : dispatch fuel ambiguity span receiver members typeArgs args r = .failed e r') :
    (ambiguity = .reject ∧ ∃ name candidates, e = .ambiguousOverload name candidates span) ∨
      ∃ t : TypeId, e = .registration (.typeNotFound t.render) := by
  have hreach := reachable_of_steps hr
  have hfit := hreach.instancesFit
  have hkeeps (n : Nat) (map : Substitution) (t : TypeId) : Along (Keeps Coherent) (substitute n map t) :=
    (along_instantiate inductive_coherent.changes n).1 map t
  have hstate : (dispatch fuel ambiguity span receiver members typeArgs args r).state? = some r' := by
    rw [h]
    rfl
  have hgrows : Grows r r' := along_dispatch grows_substitute _ _ _ _ _ _ _ _ hstate
  have hcoherent : r'.Coherent := along_dispatch hkeeps _ _ _ _ _ _ _ _ hstate hreach.coherent
  have hplain : r'.RegisteredPlain := by
    unfold RegisteredPlain
    rw [hgrows.types]
    exact hreach.registeredPlain fun _ hd ↦ hd.template
  have harray : r'.types.find? .array = some arrayDecl := by
    rw [hgrows.types]
    exact keepsTypes_of_steps hr .array arrayDecl (by decide +kernel)
  have hend : r'.ArraysHold (typeArgs ++ (receiver.toList ++ args).flatMap Expr.handles) :=
    ⟨hcoherent.arraysFit hplain harray, hclear⟩
  have hunknown : e.NamesUnknown → ∃ t : TypeId, e = .registration (.typeNotFound t.render) := by
    rintro ⟨_, ⟨t, rfl⟩, rfl⟩
    exact ⟨t, rfl⟩
  have hstages := h
  unfold dispatch at hstages
  rcases bind_eq_failed_iff.1 hstages with hbind | ⟨bound, s, hbound, hstages⟩
  · exact .inr (hunknown (Candidate.bindTypeArgs_failed hfit hbind))
  · rcases bind_eq_failed_iff.1 hstages with hsettle | ⟨settled, s', hsettled, -⟩
    · have hcs : ∀ c ∈ members.map (Candidate.ofMethod receiver args),
          c.Fit r (typeArgs ++ (receiver.toList ++ args).flatMap Expr.handles) := by
        intro c hc
        obtain ⟨m, hm, rfl⟩ := List.mem_map.1 hc
        exact Candidate.fit_ofMethod (hrest m hm) (List.subset_append_right _ _)
      have hs := (Candidate.along_bindTypeArgs keepsFit_substitute typeArgs _).of_done hbound hfit
      exact .inr (hunknown (Candidate.mapM_settle_failed hcs (Candidate.bindTypeArgs_eq_done_iff.1 hbound)
        (List.subset_append_left _ _) hs hend hsettle))
    · exact .inl ((survivors_iff.2 ⟨bound, s, settled, hbound, hsettled, rfl⟩).dispatch_failed h)

end

def rowItem : TypeId := .ofParam "row" "T"

def makeRow : Attempt Registry RegistrationError TypeId := do
  let _ ← registerParam "T" { owner := "row", index := 0 }
  instantiate 4 .array [rowItem]

def rowTypes : Registry := (makeRow builtin).state?.getD {}

theorem steps_rowTypes : Relation.ReflTransGen (Step TypeDecl.IsDeclaration) builtin rowTypes := by
  refine steps_getD ?_ (by decide +kernel)
  exact Along.bind (fun _ _ h ↦ .single (.registerParam h)) fun _ _ _ h ↦ .single (.instantiate h)

/-- Takes any number of items of one type. -/
def row (owner : TypeId) : Method where
  name := "row"
  owner := owner
  id := .ofMethod owner "row" [.ofInstance .array [rowItem]]
  kind := .staticMethod
  params := [⟨"items", .ofInstance .array [rowItem]⟩]
  result := rowItem
  isVariadic := true
  typeParams := [rowItem]

theorem hasRest_row (owner : TypeId) : (row owner).HasRest rowTypes :=
  fun _ ↦ ⟨_, rowItem, rfl, by decide +kernel⟩

/-- Two methods `row` take integers equally well, once the array of integers has been made for them. -/
theorem dispatch_failure_is_tie_or_unknown_row :
    Relation.ReflTransGen (Step TypeDecl.IsDeclaration) builtin rowTypes ∧
      (∀ m ∈ [row .object, row .string], m.HasRest rowTypes) ∧
      ∃ e r', dispatch 6 .reject .unknown none [row .object, row .string] []
          [.literal (.int 1), .literal (.int 2)] rowTypes = .failed e r' ∧
        r'.contains (.ofInstance .array [.int]) = true ∧ r'.ArraysClear [.int, .int] ∧
        ((Ambiguity.reject = .reject ∧ ∃ name candidates, e = .ambiguousOverload name candidates .unknown) ∨
          ∃ t : TypeId, e = .registration (.typeNotFound t.render)) := by
  have hrest : ∀ m ∈ [row .object, row .string], m.HasRest rowTypes := by
    simp only [List.forall_mem_cons, hasRest_row, true_and]
    exact List.forall_mem_nil _
  have hvalue : (dispatch 6 .reject .unknown none [row .object, row .string] []
      [.literal (.int 1), .literal (.int 2)] rowTypes).value?.isNone = true := by decide +kernel
  have hstate : (dispatch 6 .reject .unknown none [row .object, row .string] []
      [.literal (.int 1), .literal (.int 2)] rowTypes).state?.any (fun r' ↦
        r'.contains (.ofInstance .array [.int]) && decide (r'.ArraysClear [.int, .int])) = true := by
    decide +kernel
  obtain ⟨r', hr', hclear⟩ := (Option.any_eq_true _ _).1 hstate
  obtain ⟨hknown, hclear⟩ := Bool.and_eq_true_iff.1 hclear
  have hclear := of_decide_eq_true hclear
  obtain ⟨e, he⟩ := Outcome.exists_failed (Option.isNone_iff_eq_none.1 hvalue) hr'
  exact ⟨steps_rowTypes, hrest, e, r', he, hknown, hclear,
    dispatch_failure_is_tie_or_unknown steps_rowTypes hrest hclear he⟩

end CallResolution
