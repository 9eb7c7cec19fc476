import CallResolution.Proofs.Reduction.Tandem
import CallResolution.Proofs.Registry.Failure
import CallResolution.Proofs.Registry.Onward

namespace CallResolution

open Attempt Registry

namespace Reduction

/-- Whatever a form reduces to under stock definitions, the types that were known stay as they were. -/
theorem grows_reduce {fuel : Nat} {node : Node} {r : Registry} {c : ScopeChain Definition}
    {options : Options} {s : Reducer} (hstock : c.IsStock)
    (h : (reduce fuel node ⟨r, c, options⟩).state? = some s) : Grows r s.types := by
  have htracks : idle.Tracks (idle.atReducer c options) r r (reduce fuel node) (reduce fuel node) :=
    Tandem.tracks_reduce (valid_idle fuel) (fun hlive ↦ hlive.elim) hstock (fun hlive ↦ hlive.elim) node
      fun hlive ↦ hlive.elim
  obtain ⟨r', rfl, hgrows, -⟩ := htracks.exists_state h
  exact hgrows

end Reduction

namespace Registry

variable {r r' : Registry} {t : TypeId}

/-- A call that makes the types it needs, whether it succeeds or fails. -/
inductive Lazy : Registry → Registry → Prop
  | instantiate {r r' : Registry} {fuel : Nat} {template : TypeId} {args : List TypeId}
      (h : (instantiate fuel template args r).state? = some r') : Lazy r r'
  | arrayOf {r r' : Registry} {fuel : Nat} {element : TypeId}
      (h : (arrayOf fuel element r).state? = some r') : Lazy r r'
  | staticWrapper {r r' : Registry} {target : TypeId}
      (h : (staticWrapper target r).state? = some r') : Lazy r r'
  | substitute {r r' : Registry} {fuel : Nat} {map : Substitution} {t : TypeId}
      (h : (substitute fuel map t r).state? = some r') : Lazy r r'
  | specialize {r r' : Registry} {fuel : Nat} {d : Method} {map : Substitution}
      (h : (d.specialize fuel map r).state? = some r') : Lazy r r'
  | dispatch {r r' : Registry} {fuel : Nat} {ambiguity : Ambiguity} {span : Span}
      {receiver : Option Expr} {members : List Method} {typeArgs : List TypeId} {args : List Expr}
      (h : (dispatch fuel ambiguity span receiver members typeArgs args r).state? = some r') : Lazy r r'
  | reduce {r : Registry} {fuel : Nat} {node : Node} {c : ScopeChain Definition} {options : Options}
      {s : Reducer} (hstock : c.IsStock)
      (h : (Reduction.reduce fuel node ⟨r, c, options⟩).state? = some s) : Lazy r s.types

theorem Lazy.grows (h : Lazy r r') : Grows r r' := by
  cases h with
  | instantiate h => exact grows_instantiate _ _ _ _ _ h
  | arrayOf h => exact grows_instantiate _ _ _ _ _ h
  | staticWrapper h => exact grows_staticWrapper _ _ _ h
  | substitute h => exact grows_substitute _ _ _ _ _ h
  | specialize h => exact Method.along_specialize grows_substitute _ _ _ _ _ h
  | dispatch h => exact along_dispatch grows_substitute _ _ _ _ _ _ _ _ h
  | reduce hstock h => exact Reduction.grows_reduce hstock h

/-- The second registry comes from the first by lazy calls and by registrations of any kind. -/
def Later : Registry → Registry → Prop :=
  Relation.ReflTransGen fun r r' ↦ Lazy r r' ∨ Step (fun _ ↦ True) r r'

theorem contains_insert (d : TypeDecl) (ht : r.contains t = true) : (r.insert d).contains t = true := by
  rw [contains_eq_isSome_find?] at ht ⊢
  rw [find?_insert]
  split
  · rfl
  · exact ht

theorem contains_insertParam (d : TypeDecl) (ht : r.contains t = true) :
    (r.insertParam d).contains t = true := by
  rw [contains_eq_isSome_find?] at ht ⊢
  rw [find?_insertParam]
  split
  · rfl
  · exact ht

theorem Step.contains {admitted : TypeDecl → Prop} (h : Step admitted r r') (ht : r.contains t = true) :
    r'.contains t = true := by
  cases h with
  | register hd h =>
    exact along_register (R := Keeps fun r ↦ r.contains t = true) (fun r _ _ ↦ contains_insert _) _ _ h ht
  | registerParam h =>
    exact along_registerParam (R := Keeps fun r ↦ r.contains t = true) (fun r _ ↦ contains_insertParam _)
      _ _ h ht
  | addExtension m => exact ht
  | staticWrapper h => exact (grows_staticWrapper _ _ _ h).contains ht
  | instantiate h => exact (grows_instantiate _ _ _ _ _ h).contains ht

theorem Later.contains (h : Later r r') (ht : r.contains t = true) : r'.contains t = true := by
  induction h with
  | refl => exact ht
  | tail _ hstep ih =>
    rcases hstep with hlazy | hstep
    · exact hlazy.grows.contains ih
    · exact hstep.contains ih

/-- A lazy call adds to what was made and changes nothing else. The handle of an instance or of a static
view says what it was made from, and once it is there the same call finds it at any later time. -/
theorem lazy_only_adds (r : Registry) :
    (∀ r', Lazy r r' → r'.types = r.types ∧ r'.names = r.names ∧ r'.extensions = r.extensions ∧
      ∀ t d, r.find? t = some d → r'.find? t = some d) ∧
    (∀ fuel template args t r', instantiate fuel template args r = .done t r' →
      t = .ofInstance template args ∧ r'.contains t = true ∧
        ∀ E, Later r' E → ∀ n, instantiate (n + 1) template args E = .done t E) ∧
    ∀ target t r', staticWrapper target r = .done t r' →
      t = .ofStatic target ∧ r'.contains t = true ∧ ∀ E, Later r' E → staticWrapper target E = .done t E := by
  refine ⟨fun r' h ↦ ?_, fun fuel template args t r' h ↦ ?_, fun target t r' h ↦ ?_⟩
  · have hgrows := h.grows
    exact ⟨hgrows.types, hgrows.names, hgrows.extensions, fun t d ↦ hgrows.find?⟩
  · obtain ⟨rfl, ht⟩ := contains_of_instantiate h
    exact ⟨rfl, ht, fun E hlater n ↦ instantiate_of_known (hlater.contains ht)⟩
  · obtain ⟨rfl, ht⟩ := contains_of_staticWrapper h
    exact ⟨rfl, ht, fun E hlater ↦ staticWrapper_of_known (hlater.contains ht)⟩

/-- A `Box<int>` stays as it was made when afterwards a `Box` of an unknown type fails half-way, and is
found again. -/
theorem lazy_only_adds_box : ∃ r' E, instantiate 4 box [.int] boxTypes = .done (.ofInstance box [.int]) r' ∧
    boxTypes.contains (.ofInstance box [.int]) = false ∧
    (∃ e, instantiate 4 box [.ofName "Missing"] r' = .failed e E) ∧
    E.contains (.ofInstance box [.ofName "Missing"]) = true ∧ E.types = boxTypes.types ∧
    (∃ d, r'.find? (.ofInstance box [.int]) = some d ∧ E.find? (.ofInstance box [.int]) = some d) ∧
    instantiate 1 box [.int] E = .done (.ofInstance box [.int]) E := by
  have hvalue : (instantiate 4 box [.int] boxTypes).value? = some (.ofInstance box [.int]) := by
    decide +kernel
  have hnext : (instantiate 4 box [.int] boxTypes).state?.any (fun r' ↦
      (instantiate 4 box [.ofName "Missing"] r').value? = none ∧
      (instantiate 4 box [.ofName "Missing"] r').state?.any
        (·.contains (.ofInstance box [.ofName "Missing"])) = true) = true := by decide +kernel
  obtain ⟨r', hr', hnext⟩ := (Option.any_eq_true _ _).1 hnext
  obtain ⟨hnone, hstate⟩ := of_decide_eq_true hnext
  have hrun := Outcome.eq_done hvalue boxTypes
  rw [hr', Option.getD_some] at hrun
  obtain ⟨E, hE, hleft⟩ := (Option.any_eq_true _ _).1 hstate
  obtain ⟨e, hfailed⟩ := Outcome.exists_failed hnone hE
  obtain ⟨hfirst, hmade, -⟩ := lazy_only_adds boxTypes
  obtain ⟨-, hknown, hagain⟩ := hmade _ _ _ _ _ hrun
  obtain ⟨htypes, -⟩ := hfirst r' (.instantiate (by rw [hrun]; rfl))
  obtain ⟨htypes', -, -, hkept⟩ := (lazy_only_adds r').1 E (.instantiate hE)
  obtain ⟨d, hd⟩ := exists_find?_of_contains hknown
  exact ⟨r', E, hrun, by decide +kernel, ⟨e, hfailed⟩, hleft, htypes'.trans htypes, ⟨d, hd, hkept _ d hd⟩,
    hagain E (.single (.inl (.instantiate hE))) 0⟩

end Registry

end CallResolution
