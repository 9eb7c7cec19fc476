import CallResolution.Proofs.Overload.Survivors
import CallResolution.Proofs.Registry.Instantiation

namespace CallResolution

open Attempt Registry

variable {fuel : Nat} {r r' s : Registry} {m d : Method} {map map' : Substitution} {args : List Expr}

/-- A dictionary of pairs that belong to one function holds that function on their keys. -/
theorem Dictionary.find?_ofList {κ α : Type} [DecidableEq κ] {f : κ → Option α} {ps : List (κ × α)}
    (h : ∀ p ∈ ps, f p.1 = some p.2) (k : κ) :
    (ofList ps).find? k = if k ∈ ps.map Prod.fst then f k else none := by
  have hfold : ∀ (ps : List (κ × α)) (d : Dictionary κ α), (∀ p ∈ ps, f p.1 = some p.2) →
      (ps.foldl (fun d p ↦ d.insert p.1 p.2) d).find? k =
        if k ∈ ps.map Prod.fst then f k else d.find? k := by
    intro ps
    induction ps with
    | nil => exact fun d _ ↦ rfl
    | cons p ps ih =>
      intro d h
      obtain ⟨hp, hps⟩ := List.forall_mem_cons.1 h
      simp only [List.foldl_cons, ih _ hps, find?_insert, List.map_cons, List.mem_cons]
      by_cases hk : k = p.1
      · simp only [hk, hp, true_or, if_true, ite_self]
      · simp only [hk, if_false, false_or]
  exact hfold ps ∅ h

namespace Registry

/-- A substitution acts by what is found in it. -/
theorem substitute_congr (h : ∀ k, map.find? k = map'.find? k) (fuel : Nat) :
    substitute fuel map = substitute fuel map' := by
  induction fuel with
  | zero => rfl
  | succ fuel ih =>
    funext t
    rw [substitute, substitute, h t, ih]

end Registry

namespace Method

theorem specialize_congr (h : ∀ k, map.find? k = map'.find? k) (m : Method) :
    m.specialize fuel map = m.specialize fuel map' := by
  have hfind : map.find? = map'.find? := funext h
  rw [specialize, specialize, hfind, substitute_congr h]

theorem mem_typeParams_of_infer (h : m.infer r fuel args = some (some map)) {p b : TypeId}
    (hb : map.find? p = some b) : p ∈ m.typeParams := by
  obtain ⟨-, pairs, -, -, hbind, -⟩ := infer_eq_some h
  rcases Substitution.mem_of_bindAll hbind hb with hempty | hmem
  · cases hempty
  · simpa using (List.mem_filter.1 hmem).2

theorem satisfies_of_infer (h : m.infer r fuel args = some (some map)) {p b : TypeId}
    (hb : map.find? p = some b) : r.satisfies fuel p b = some true := by
  have hp := mem_typeParams_of_infer h hb
  obtain ⟨-, -, -, -, -, hfits⟩ := infer_eq_some h
  simpa only [hb] using allM_eq_some_true_iff.1 hfits p hp

/-- The type arguments that were inferred, written out again, say the same as the inferred map. -/
theorem find?_ofList_typeArgs (hinfer : m.infer r fuel args = some (some map))
    (hspec : m.specialize fuel map r = .done d s) (k : TypeId) :
    (Dictionary.ofList (m.typeParams.zip d.typeArgs)).find? k = map.find? k := by
  have hargs := (specialize_eq_done hspec).2
  have hkeys : (m.typeParams.zip d.typeArgs).map Prod.fst = m.typeParams :=
    List.map_fst_zip (length_eq_of_mapM_eq_some hargs).le
  rw [Dictionary.find?_ofList fun p hp ↦ eq_some_of_mem_zip_mapM hargs hp, hkeys]
  split
  · rfl
  · rename_i hk
    cases hb : map.find? k with
    | none => rfl
    | some b => exact absurd (mem_typeParams_of_infer hinfer hb) hk

/-- A method whose type parameters were bound is one that says so. -/
theorem typeArgs_of_specialize (hm : m.isUnboundGeneric = true)
    (hspec : m.specialize fuel map r = .done d s) : d.typeArgs ≠ [] ∧ d.isUnboundGeneric = false := by
  have hlen := length_eq_of_mapM_eq_some (specialize_eq_done hspec).2
  have hargs : d.typeArgs ≠ [] := by
    intro hnil
    rw [hnil, List.length_nil, List.length_eq_zero_iff] at hlen
    simp [isUnboundGeneric, hlen] at hm
  exact ⟨hargs, by simp [isUnboundGeneric, hargs]⟩

end Method

namespace Candidate

variable {c c' : Candidate}

theorem Settles.inferred_of_unbound (hm : c.method.isUnboundGeneric = true)
    (h : Settles fuel c r (some c') s) :
    ∃ map d, c.method.infer r fuel c.args = some (some map) ∧ c.method.specialize fuel map r = .done d s ∧
      c' = c.withSpecialized d map := by
  obtain ⟨-, hbound | ⟨-, -, map, hinfer, hspec⟩⟩ := settle_eq_some (settle_eq_done_iff.2 h)
  · rw [hm] at hbound
    cases hbound.1
  · obtain ⟨d, hd, rfl⟩ := specialize_eq_done_iff.1 hspec
    exact ⟨map, d, hinfer, hd, rfl⟩

/-- A candidate whose type arguments can be inferred takes them when they are written out. -/
theorem binds_of_inferred (hm : c.method.isUnboundGeneric = true)
    (hinfer : c.method.infer r fuel c.args = some (some map))
    (hspec : c.method.specialize fuel map r = .done d s) :
    Binds fuel d.typeArgs c r
      (some (c.withSpecialized d (.ofList (c.method.typeParams.zip d.typeArgs)))) s := by
  have hargs := (Method.specialize_eq_done hspec).2
  refine .bound (Method.typeArgs_of_specialize hm hspec).1 (length_eq_of_mapM_eq_some hargs)
    (fun p hp ↦ ?_) ?_
  · exact Method.satisfies_of_infer hinfer (eq_some_of_mem_zip_mapM hargs hp)
  · rwa [Method.specialize_congr (Method.find?_ofList_typeArgs hinfer hspec)]

theorem packed_of_pack {packed : List Expr} (h : c.pack r = .done { c with args := packed } r) :
    (if c.method.isVariadic then c.method.packRest r c.args else .ok c.args) = .ok packed := by
  unfold pack at h
  split
  · rename_i hv
    simp only [hv, if_true, get_bind] at h
    obtain ⟨args, _, hok, h⟩ := bind_eq_done_iff.1 h
    obtain ⟨hargs, -⟩ := ofExcept_eq_done_iff.1 hok
    have heq := congrArg Candidate.args (pure_eq_done_iff.1 h).1
    exact hargs.trans (congrArg _ heq)
  · rename_i hv
    simp only [hv] at h
    exact congrArg Except.ok (congrArg Candidate.args (pure_eq_done_iff.1 h).1)

/-- What is called does not depend on the substitution that a candidate came by. -/
theorem emit_of_pack {packed packed' : List Expr}
    (h : (c.withSpecialized d map).pack r = .done { c.withSpecialized d map with args := packed } r)
    (h' : (c.withSpecialized d map').pack r = .done { c.withSpecialized d map' with args := packed' } r) :
    emit r { c.withSpecialized d map with args := packed } =
      emit r { c.withSpecialized d map' with args := packed' } := by
  have hargs := packed_of_pack h
  have hargs' := packed_of_pack h'
  obtain rfl := Except.ok.inj (hargs.symm.trans hargs')
  rfl

end Candidate

theorem Survivors.dispatch_of_singleton {receiver : Option Expr} {members : List Method}
    {typeArgs : List TypeId} {c : Candidate}
    (h : Survivors fuel receiver members typeArgs args r [c] r') (span : Span) :
    ∃ packed, c.pack r' = .done { c with args := packed } r' ∧ ∀ policy,
      dispatch fuel policy span receiver members typeArgs args r =
        .done (some (Candidate.emit r' { c with args := packed })) r' := by
  have hleading : Candidate.leading [c] = [c] := by simp [Candidate.leading]
  obtain ⟨packed, hpack, hrun⟩ := h.dispatch_of_leading hleading span
  refine ⟨packed, hpack, fun policy ↦ ?_⟩
  rw [hrun, if_neg (by simp)]

section

variable {receiver : Option Expr} {ambiguity : Ambiguity} {span : Span} {e : Expr}

/-- Type arguments that were inferred may as well be written: the call is the same, and so are the types
that are made for it. -/
theorem dispatch_of_inferred_typeArgs (hm : m.isUnboundGeneric = true)
    (h : dispatch fuel ambiguity span receiver [m] [] args r = .done (some e) r') :
    ∃ on d emitted, e.call? = some (on, d, emitted) ∧ d.typeArgs ≠ [] ∧
      dispatch fuel ambiguity span receiver [m] d.typeArgs args r = .done (some e) r' := by
  rw [dispatch_singleton] at h
  obtain ⟨settled, s, hsettle, h⟩ := bind_eq_done_iff.1 h
  cases settled with
  | none => cases h
  | some c =>
    obtain ⟨packed, s', hpack, h⟩ := bind_eq_done_iff.1 h
    cases h
    obtain rfl := (Candidate.along_pack c).of_done hpack
    have hmethod := Candidate.ofMethod_method receiver args m
    have hunbound : (Candidate.ofMethod receiver args m).method.isUnboundGeneric = true := by rwa [hmethod]
    have hsettles := Candidate.settle_eq_done_iff.1 hsettle
    obtain ⟨map, d, hinfer, hspec, rfl⟩ := hsettles.inferred_of_unbound hunbound
    obtain ⟨hargs, hbound⟩ := Method.typeArgs_of_specialize hunbound hspec
    have hexplicit : Survivors fuel receiver [m] d.typeArgs args r _ s :=
      ⟨_, s, .keep (Candidate.binds_of_inferred hunbound hinfer hspec) .nil,
        .keep (.complete hsettles.isApplicable hbound) .nil⟩
    obtain ⟨items', hpack', hrun⟩ := hexplicit.dispatch_of_singleton span
    obtain ⟨items, hitems⟩ := Candidate.pack_of_isApplicable hsettles.isApplicable
    cases hpack.symm.trans hitems
    obtain ⟨on, hcall⟩ := Candidate.exists_call?_emit s
      { (Candidate.ofMethod receiver args m).withSpecialized d map with args := items }
    refine ⟨on, d, _, hcall, hargs, ?_⟩
    rw [hrun, Candidate.emit_of_pack hitems hpack']

end

/-- The call `1.gather<int>(2, 3)` makes the array of integers for the rest of its arguments, as does
`1.gather(2, 3)`. -/
theorem dispatch_of_inferred_typeArgs_gather : ∃ e r',
    dispatch 6 .reject .unknown (some (.literal (.int 1))) [gather] []
      [.literal (.int 2), .literal (.int 3)] gatherTypes = .done (some e) r' ∧
    gatherTypes.contains (.ofInstance .array [.int]) = false ∧
    r'.contains (.ofInstance .array [.int]) = true ∧
    dispatch 6 .reject .unknown (some (.literal (.int 1))) [gather] [.int]
      [.literal (.int 2), .literal (.int 3)] gatherTypes = .done (some e) r' := by
  have hvalue : (dispatch 6 .reject .unknown (some (.literal (.int 1))) [gather] []
      [.literal (.int 2), .literal (.int 3)] gatherTypes).value?.any (fun found ↦ found.any fun e ↦
        decide (e.call?.map (·.2.1.typeArgs) = some [.int])) = true := by decide +kernel
  have hstate : (dispatch 6 .reject .unknown (some (.literal (.int 1))) [gather] []
      [.literal (.int 2), .literal (.int 3)] gatherTypes).state?.any
        (·.contains (.ofInstance .array [.int])) = true := by decide +kernel
  obtain ⟨found, hfound, hvalue⟩ := (Option.any_eq_true _ _).1 hvalue
  obtain ⟨e, rfl, he⟩ := (Option.any_eq_true _ _).1 hvalue
  obtain ⟨r', hrun⟩ := Outcome.exists_done hfound
  rw [hrun] at hstate
  obtain ⟨on, d, emitted, hcall, -, hexplicit⟩ := dispatch_of_inferred_typeArgs rfl hrun
  obtain hargs : d.typeArgs = [.int] := by simpa [hcall] using of_decide_eq_true he
  rw [hargs] at hexplicit
  exact ⟨e, r', hrun, by decide +kernel, hstate, hexplicit⟩

end CallResolution
