import CallResolution.Proofs.Conversion.CommonGround
import CallResolution.Proofs.Conversion.Inheritance
import CallResolution.Proofs.Reduction.Growth

namespace CallResolution.Registry

open Relation

variable {P : TypeId → Prop} {r r' s : Registry} {t u param arg : TypeId}

namespace CommonGround

variable (h : CommonGround P r s) (fuel : Nat)

include h

theorem isOpen_eq (ht : P t) : s.isOpen fuel t = r.isOpen fuel t :=
  (h.symm.isOpen le_rfl ht).antisymm (h.isOpen le_rfl ht)

theorem normalize_eq (ht : P t) : s.normalize fuel t = r.normalize fuel t :=
  (h.symm.normalize le_rfl ht).antisymm (h.normalize le_rfl ht)

theorem convertible_eq (ht : P t) : s.convertible fuel t = r.convertible fuel t :=
  (h.symm.convertible le_rfl ht).antisymm (h.convertible le_rfl ht)

theorem satisfies_eq (hp : P param) (ha : P arg) : s.satisfies fuel param arg = r.satisfies fuel param arg :=
  (h.symm.satisfies le_rfl hp ha).antisymm (h.satisfies le_rfl hp ha)

theorem accepts_eq (hp : P param) (ha : P arg) : s.accepts fuel param arg = r.accepts fuel param arg :=
  (h.symm.accepts le_rfl hp ha).antisymm (h.accepts le_rfl hp ha)

theorem position_eq (types : List TypeId) (ht : P t) (hu : P u) :
    s.position fuel types t u = r.position fuel types t u :=
  (h.symm.position le_rfl types ht hu).antisymm (h.position le_rfl types ht hu)

end CommonGround

/-- A query about `t` may come to `u`. -/
def Involves (r : Registry) : TypeId → TypeId → Prop := ReflTransGen fun t u ↦ u ∈ r.neighbours t

/-- A list that holds with each type its neighbours holds all that queries about its types come to. -/
theorem mem_of_involves {ts : List TypeId} (hts : ∀ t ∈ ts, ∀ u ∈ r.neighbours t, u ∈ ts) (ht : t ∈ ts)
    (h : r.Involves t u) : u ∈ ts := by
  induction h with
  | refl => exact ht
  | tail _ hstep ih => exact hts _ ih _ hstep

theorem grows_of_reflTransGen_lazy (h : ReflTransGen Lazy r r') : Grows r r' := by
  induction h with
  | refl => exact Std.Refl.refl r
  | tail _ hstep ih => exact IsTrans.trans _ _ _ ih hstep.grows

/-- What is known with all that queries about it come to is common ground of a registry and of any that
it grows to. -/
theorem Grows.commonGround (h : Grows r r') {ts : List TypeId} (hobject : .object ∈ ts)
    (hknown : ∀ t ∈ ts, ∀ u, r.Involves t u → r.contains u = true) :
    CommonGround (fun u ↦ ∃ t ∈ ts, r.Involves t u) r r' where
  find? := by
    rintro u ⟨t, ht, hu⟩
    obtain ⟨d, hd⟩ := exists_find?_of_contains (hknown t ht u hu)
    rw [hd, h.find? hd]
  object := ⟨.object, hobject, .refl⟩
  neighbours := by
    rintro u ⟨t, ht, hu⟩ v hv
    exact ⟨t, ht, hu.tail hv⟩

/-- No query about types that are known, with all that queries about them come to, is answered in another
way once more types have been made on demand. -/
theorem answers_unchanged_by_growth {p a : TypeId} (hgrow : ReflTransGen Lazy r r')
    (hknown : ∀ t ∈ [p, a, .object], ∀ u, r.Involves t u → r.contains u = true) (fuel : Nat) :
    r'.convertible fuel a = r.convertible fuel a ∧
      (∀ t ∈ [p, a], r'.isOpen fuel t = r.isOpen fuel t ∧ r'.normalize fuel t = r.normalize fuel t) ∧
      r'.satisfies fuel p a = r.satisfies fuel p a ∧ r'.accepts fuel p a = r.accepts fuel p a ∧
      ∀ types, r'.position fuel types a p = r.position fuel types a p := by
  have h := (grows_of_reflTransGen_lazy hgrow).commonGround (by simp) hknown
  have hp : ∃ t ∈ [p, a, .object], r.Involves t p := ⟨p, by simp, .refl⟩
  have ha : ∃ t ∈ [p, a, .object], r.Involves t a := ⟨a, by simp, .refl⟩
  refine ⟨h.convertible_eq fuel ha, ?_, h.satisfies_eq fuel hp ha, h.accepts_eq fuel hp ha, fun types ↦
    h.position_eq fuel types ha hp⟩
  simp only [List.forall_mem_cons, List.not_mem_nil, false_imp_iff, implies_true, and_true]
  exact ⟨⟨h.isOpen_eq fuel hp, h.normalize_eq fuel hp⟩, h.isOpen_eq fuel ha, h.normalize_eq fuel ha⟩

/-- After a list of strings and a static view of lists were made, an open list takes a list of integers
and a bounded type parameter takes its bound as before. -/
theorem answers_unchanged_by_growth_list : ∃ r', ReflTransGen Lazy catalogTypes r' ∧
    (∀ t ∈ [TypeId.ofInstance listOf [.string], .ofStatic listOf],
      catalogTypes.contains t = false ∧ r'.contains t = true) ∧
    ∀ e ∈ [(openList, intList), (paintItem, gadget)],
      (∀ t ∈ [e.1, e.2, .object], ∀ u, catalogTypes.Involves t u → catalogTypes.contains u = true) ∧
        r'.accepts 5 e.1 e.2 = some true := by
  have hrun : (instantiate 3 listOf [.string] catalogTypes).state?.any (fun r ↦
      (staticWrapper listOf r).state?.any fun r' ↦
        (∀ t ∈ [TypeId.ofInstance listOf [.string], .ofStatic listOf],
          catalogTypes.contains t = false ∧ r'.contains t = true)) = true := by decide +kernel
  obtain ⟨r, hr, hrun⟩ := (Option.any_eq_true _ _).1 hrun
  obtain ⟨r', hr', hmade⟩ := (Option.any_eq_true _ _).1 hrun
  have hgrow : ReflTransGen Lazy catalogTypes r' := .tail (.single (.instantiate hr)) (.staticWrapper hr')
  refine ⟨r', hgrow, of_decide_eq_true hmade, fun e he ↦ ?_⟩
  let ts := [openList, intList, paintItem, gadget, .object, listOf, listItem, .int, figure]
  have hts : ∀ t ∈ ts, catalogTypes.contains t = true ∧ ∀ u ∈ catalogTypes.neighbours t, u ∈ ts := by
    decide +kernel
  have hsub : ∀ e ∈ [(openList, intList), (paintItem, gadget)], ∀ t ∈ [e.1, e.2, .object], t ∈ ts := by
    decide +kernel
  have hknown : ∀ t ∈ [e.1, e.2, .object], ∀ u, catalogTypes.Involves t u → catalogTypes.contains u = true :=
    fun t ht u hu ↦ (hts u (mem_of_involves (fun t ht ↦ (hts t ht).2) (hsub e he t ht) hu)).1
  obtain ⟨-, -, -, haccepts, -⟩ := answers_unchanged_by_growth hgrow hknown 5
  have htakes : ∀ e ∈ [(openList, intList), (paintItem, gadget)],
      catalogTypes.accepts 5 e.1 e.2 = some true := by decide +kernel
  exact ⟨hknown, haccepts.trans (htakes e he)⟩

end CallResolution.Registry
