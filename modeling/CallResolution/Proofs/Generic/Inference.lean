import CallResolution.Generic.Inference
import CallResolution.Proofs.Conversion.Depth

namespace CallResolution

open Registry

variable {fuel : Nat} {r : Registry} {m : Method} {args : List Expr} {map map' : Substitution}
  {types : List TypeId} {pairs : List (TypeId × TypeId)}

/-- All pairs that are entered without a conflict are found in the result, beside what was there. -/
theorem Substitution.find?_of_bindAll (h : bindAll map pairs = some map') :
    (∀ p t, map.find? p = some t → map'.find? p = some t) ∧
      ∀ q ∈ pairs, map'.find? q.1 = some q.2 := by
  induction pairs generalizing map with
  | nil =>
    cases h
    exact ⟨fun _ _ ht ↦ ht, by simp⟩
  | cons q pairs ih =>
    obtain ⟨p, t⟩ := q
    rw [bindAll] at h
    cases hp : map.find? p with
    | none =>
      rw [hp] at h
      obtain ⟨hkeep, hpairs⟩ := ih h
      refine ⟨fun p' t' ht' ↦ hkeep p' t' ?_, List.forall_mem_cons.2 ⟨?_, hpairs⟩⟩
      · have hne : p' ≠ p := by
          rintro rfl
          rw [hp] at ht'
          cases ht'
        rw [Dictionary.find?_insert_of_ne _ _ hne, ht']
      · exact hkeep p t (Dictionary.find?_insert_self _ _ _)
    | some other =>
      rw [hp] at h
      dsimp only at h
      split at h
      · rename_i heq
        obtain ⟨hkeep, hpairs⟩ := ih h
        exact ⟨hkeep, List.forall_mem_cons.2 ⟨hkeep p t (heq ▸ hp), hpairs⟩⟩
      · cases h

/-- Nothing is found in the result but the pairs that were entered and what was there. -/
theorem Substitution.mem_of_bindAll {p t : TypeId} (h : bindAll map pairs = some map')
    (ht : map'.find? p = some t) : map.find? p = some t ∨ (p, t) ∈ pairs := by
  induction pairs generalizing map with
  | nil =>
    cases h
    exact .inl ht
  | cons q pairs ih =>
    obtain ⟨param, bound⟩ := q
    rw [bindAll] at h
    cases hp : map.find? param with
    | none =>
      rw [hp] at h
      rcases ih h with hmap | hmem
      · rw [Dictionary.find?_insert] at hmap
        split at hmap
        · rename_i heq
          cases hmap
          exact .inr (heq ▸ List.mem_cons_self)
        · exact .inl hmap
      · exact .inr (List.mem_cons_of_mem _ hmem)
    | some other =>
      rw [hp] at h
      dsimp only at h
      split at h
      · exact (ih h).imp_right (List.mem_cons_of_mem _)
      · cases h

namespace Registry

theorem isParam_of_satisfies {p t : TypeId} (h : r.satisfies fuel p t = some true) :
    r.isParam p = true := by
  cases fuel with
  | zero => cases h
  | succ fuel =>
    rw [satisfies] at h
    unfold isParam
    cases hp : r.paramInfo? p with
    | none => simp [hp] at h
    | some info => rfl

theorem signature?_of_isParam {p : TypeId} (h : r.isParam p = true) : r.signature? p = none := by
  unfold isParam paramInfo? at h
  unfold signature?
  cases hd : r.find? p with
  | none => rfl
  | some d =>
    rw [hd] at h
    simp only [Option.bind_some, TypeDecl.paramInfo, TypeDecl.signature] at h ⊢
    cases hk : d.kind with
    | parameter info => rfl
    | _ => simp [hk] at h

theorem pairExpr_of_isParam {p : TypeId} (h : r.isParam p = true) (a : Expr) :
    r.pairExpr (fuel + 1) p a = some [(p, a.type)] := by
  have hs := signature?_of_isParam h
  cases a with
  | _ => simp [pairExpr, hs, pairTypes, h]

theorem acceptsExpr_of_isParam {p : TypeId} (h : r.isParam p = true) (a : Expr) :
    r.acceptsExpr (fuel + 1) p a = if p = a.type then some true else r.satisfies fuel p a.type := by
  have hs := signature?_of_isParam h
  cases a with
  | _ => simp [acceptsExpr, hs, accepts, h]

end Registry

namespace Method

theorem infer_eq_some (h : m.infer r fuel args = some (some map)) :
    ∃ types pairs, m.expectedTypes r args.length = some types ∧
      (types.zip args).mapM (fun (param, arg) ↦ r.pairExpr fuel param arg) = some pairs ∧
      Substitution.bindAll ∅ (pairs.flatten.filter (·.1 ∈ m.typeParams)) = some map ∧
      map.fits r fuel m.typeParams = some true := by
  unfold infer at h
  cases ht : m.expectedTypes r args.length with
  | none => simp [ht] at h
  | some types =>
    simp only [ht] at h
    obtain ⟨pairs, hpairs, h⟩ := Option.bind_eq_some_iff.1 h
    cases hb : Substitution.bindAll ∅ (pairs.flatten.filter (·.1 ∈ m.typeParams)) with
    | none =>
      simp only [hb] at h
      cases h
    | some map' =>
      simp only [hb] at h
      obtain ⟨b, hfits, h⟩ := Option.bind_eq_some_iff.1 h
      cases b with
      | false => cases h
      | true =>
        cases h
        exact ⟨types, pairs, rfl, hpairs, hb, hfits⟩

/-- An argument for a parameter that is just a type parameter decides what that stands for, so the
declared type cannot refuse it. -/
theorem acceptsExpr_ne_false_of_infer {p : TypeId} {a : Expr}
    (h : m.infer r fuel args = some (some map))
    (ht : m.expectedTypes r args.length = some types) (hp : p ∈ m.typeParams)
    (ha : (p, a) ∈ types.zip args) : r.acceptsExpr fuel p a ≠ some false := by
  obtain ⟨types', pairs, ht', hpairs, hbind, hfits⟩ := infer_eq_some h
  obtain rfl : types = types' := Option.some.inj (ht.symm.trans ht')
  have hfit := allM_eq_some_true_iff.1 hfits p hp
  cases hf : map.find? p with
  | none => simp [hf] at hfit
  | some bound =>
    simp only [hf] at hfit
    cases fuel with
    | zero => cases hfit
    | succ fuel =>
      have hparam := isParam_of_satisfies hfit
      obtain ⟨pair, hpair, hpa⟩ := exists_mem_of_mapM_eq_some hpairs ha
      obtain rfl : pair = [(p, a.type)] :=
        (Option.some.inj ((pairExpr_of_isParam hparam a).symm.trans hpa)).symm
      have hkey : (p, a.type) ∈ pairs.flatten.filter (·.1 ∈ m.typeParams) :=
        List.mem_filter.2 ⟨List.mem_flatten.2 ⟨_, hpair, by simp⟩, by simpa using hp⟩
      have hbound := (Substitution.find?_of_bindAll hbind).2 _ hkey
      obtain rfl : bound = a.type := Option.some.inj (hf.symm.trans hbound)
      rw [acceptsExpr_of_isParam hparam]
      intro hfalse
      split at hfalse
      · cases hfalse
      · have hsucc := r.satisfies_succ fuel p a.type false hfalse
        rw [hfit] at hsucc
        cases hsucc

end Method

end CallResolution
