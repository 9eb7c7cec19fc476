import CallResolution.Proofs.Registry.Failure
import CallResolution.Proofs.Registry.Settling
import Mathlib.Logic.Relation

namespace CallResolution.Registry

open Attempt Relation

variable {r₀ r r' D E : Registry} {n fuel : Nat} {map : Substitution} {t u v w x template : TypeId}
  {ts vs ws args : List TypeId}

theorem Gains.antisymm (h : Gains r r') (h' : Gains r' r) : r' = r := h.eq_of_subset h'.known_subset

theorem steady_of_static {target : TypeId} (hmap : map.find? t = none) (hs : D.staticTarget? t = some target)
    (h : substitute (n + 1) map t D = .done w D) : ∃ x, substitute n map target D = .done x D ∧
      (x = target ∧ w = t ∨ x ≠ target ∧ staticWrapper x D = .done w D) := by
  rw [substitute_of_static hmap hs] at h
  obtain ⟨x, D₁, hx, h⟩ := bind_eq_done_iff.1 h
  split at h
  · rename_i hsame
    cases h
    exact ⟨x, hx, .inl ⟨hsame, rfl⟩⟩
  · rename_i hne
    have heq : D₁ = D := Gains.antisymm (((along_instantiate changes_gains n).1 map target).of_done hx)
      ((along_staticWrapper changes_gains x).of_done h)
    rw [heq] at hx h
    exact ⟨x, hx, .inr ⟨hne, h⟩⟩

theorem steady_of_instance (hmap : map.find? t = none) (hs : D.staticTarget? t = none)
    (ht : D.template? t = some template) (h : substitute (n + 1) map t D = .done w D) :
    ∃ xs, (D.typeArgs t).mapM (substitute n map) D = .done xs D ∧
      (xs = D.typeArgs t ∧ w = t ∨ xs ≠ D.typeArgs t ∧ instantiate n template xs D = .done w D) := by
  rw [substitute_of_instance hmap hs ht] at h
  obtain ⟨xs, D₁, hxs, h⟩ := bind_eq_done_iff.1 h
  split at h
  · rename_i hsame
    cases h
    exact ⟨xs, hxs, .inl ⟨hsame, rfl⟩⟩
  · rename_i hne
    have heq : D₁ = D := Gains.antisymm ((gains_mapM n map _).of_done hxs)
      (((along_instantiate changes_gains n).2 template xs).of_done h)
    rw [heq] at hxs h
    exact ⟨xs, hxs, .inr ⟨hne, h⟩⟩

theorem steady_mapM_iff : ts.mapM (substitute n map) D = .done vs D ↔
    List.Forall₂ (fun t v ↦ substitute n map t D = .done v D) ts vs := by
  induction ts generalizing vs with
  | nil =>
    rw [List.forall₂_nil_left_iff, List.mapM_nil, pure_eq_done_iff]
    exact ⟨fun h ↦ h.1.symm, fun h ↦ ⟨h.symm, rfl⟩⟩
  | cons t ts ih =>
    rw [mapM_cons_eq_done_iff]
    constructor
    · rintro ⟨v, D₁, vs, hv, hvs, rfl⟩
      have heq : D₁ = D := Gains.antisymm (((along_instantiate changes_gains n).1 map t).of_done hv)
        ((gains_mapM n map ts).of_done hvs)
      rw [heq] at hv hvs
      exact .cons hv (ih.1 hvs)
    · rintro (_ | ⟨hv, hvs⟩)
      exact ⟨_, D, _, hv, ih.2 hvs, rfl⟩

/-- To some depth `map` turns `t` into `v`, and nothing has to be made for it. -/
def Becomes (r : Registry) (map : Substitution) (t v : TypeId) : Prop :=
  ∃ fuel, substitute fuel map t r = .done v r

theorem Becomes.unique (h : r.Becomes map t v) (h' : r.Becomes map t w) : v = w := by
  obtain ⟨m, hm⟩ := h
  obtain ⟨n, hn⟩ := h'
  have hv := (deepens_substitute map m (max m n) (Nat.le_max_left m n) t).done hm
  have hw := (deepens_substitute map n (max m n) (Nat.le_max_right m n) t).done hn
  rw [hv] at hw
  cases hw
  rfl

theorem forall₂_becomes_iff :
    List.Forall₂ (r.Becomes map) ts vs ↔ ∃ n, ts.mapM (substitute n map) r = .done vs r := by
  constructor
  · intro h
    induction h with
    | nil => exact ⟨0, rfl⟩
    | cons hv _ ih =>
      obtain ⟨m, hm⟩ := hv
      obtain ⟨n, hn⟩ := ih
      refine ⟨max m n, mapM_cons_eq_done_iff.2 ⟨_, r, _, ?_, ?_, rfl⟩⟩
      · exact (deepens_substitute map m _ (Nat.le_max_left m n) _).done hm
      · exact (Deepens.mapM (deepens_substitute map n _ (Nat.le_max_right m n)) _).done hn
  · rintro ⟨n, hn⟩
    exact (steady_mapM_iff.1 hn).imp fun _ _ h ↦ ⟨n, h⟩

/-- What takes the place of `t`: `t` itself unless its parts have changed, then the type `made` of what
they have become, which is known. -/
def Replaced (r : Registry) (changed : Prop) (t made v : TypeId) : Prop :=
  ¬changed ∧ v = t ∨ changed ∧ v = made ∧ r.contains made = true

theorem replaced_iff {changed : Prop} (ht : r.contains t = true) (hsame : ¬changed → u = t) :
    r.Replaced changed t u v ↔ v = u ∧ r.contains v = true := by
  constructor
  · rintro (⟨h, rfl⟩ | ⟨-, rfl, hv⟩)
    · exact ⟨(hsame h).symm, ht⟩
    · exact ⟨rfl, hv⟩
  · rintro ⟨rfl, hv⟩
    by_cases h : changed
    · exact .inr ⟨h, rfl, hv⟩
    · exact .inl ⟨h, hsame h⟩

theorem becomes_bound_iff (hmap : map.find? t = some u) : r.Becomes map t v ↔ v = u := by
  have hbound : r.Becomes map t u := ⟨1, substitute_of_bound hmap⟩
  exact ⟨fun h ↦ h.unique hbound, fun h ↦ h ▸ hbound⟩

theorem becomes_plain_iff (hmap : map.find? t = none) (hs : r.staticTarget? t = none)
    (ht : r.template? t = none) : r.Becomes map t v ↔ v = t := by
  have hplain : r.Becomes map t t := ⟨1, substitute_of_plain hmap hs ht⟩
  exact ⟨fun h ↦ h.unique hplain, fun h ↦ h ▸ hplain⟩

theorem replaced_of_static (hmap : map.find? t = none) (hs : r.staticTarget? t = some x)
    (h : substitute (n + 1) map t r = .done v r) :
    ∃ w, substitute n map x r = .done w r ∧ r.Replaced (w ≠ x) t (.ofStatic w) v := by
  obtain ⟨w, hw, hv⟩ := steady_of_static hmap hs h
  refine ⟨w, hw, ?_⟩
  rcases hv with ⟨hsame, rfl⟩ | ⟨hne, hv⟩
  · exact .inl ⟨not_not.2 hsame, rfl⟩
  · obtain ⟨rfl, hknown⟩ := contains_of_staticWrapper hv
    exact .inr ⟨hne, rfl, hknown⟩

theorem replaced_of_instance (hmap : map.find? t = none) (hs : r.staticTarget? t = none)
    (ht : r.template? t = some template) (h : substitute (n + 1) map t r = .done v r) :
    ∃ ws, (r.typeArgs t).mapM (substitute n map) r = .done ws r ∧
      r.Replaced (ws ≠ r.typeArgs t) t (.ofInstance template ws) v := by
  obtain ⟨ws, hws, hv⟩ := steady_of_instance hmap hs ht h
  refine ⟨ws, hws, ?_⟩
  rcases hv with ⟨hsame, rfl⟩ | ⟨hne, hv⟩
  · exact .inl ⟨not_not.2 hsame, rfl⟩
  · obtain ⟨rfl, hknown⟩ := contains_of_instantiate hv
    exact .inr ⟨hne, rfl, hknown⟩

theorem becomes_view_iff (hmap : map.find? t = none) (hs : r.staticTarget? t = some x) :
    r.Becomes map t v ↔ ∃ w, r.Becomes map x w ∧ r.Replaced (w ≠ x) t (.ofStatic w) v := by
  constructor
  · rintro ⟨n, hn⟩
    cases n with
    | zero => cases hn
    | succ n =>
      obtain ⟨w, hw, hv⟩ := replaced_of_static hmap hs hn
      exact ⟨w, ⟨n, hw⟩, hv⟩
  · rintro ⟨w, ⟨n, hn⟩, hv⟩
    refine ⟨n + 1, substitute_eq_done_iff.2 ?_⟩
    rcases hv with ⟨hsame, rfl⟩ | ⟨hne, rfl, hknown⟩
    · exact .sameTarget hmap hs (not_not.1 hsame ▸ hn)
    · exact .newTarget hmap hs hn hne (staticWrapper_of_known hknown)

theorem becomes_instance_iff (hmap : map.find? t = none) (hs : r.staticTarget? t = none)
    (ht : r.template? t = some template) :
    r.Becomes map t v ↔ ∃ ws, List.Forall₂ (r.Becomes map) (r.typeArgs t) ws ∧
      r.Replaced (ws ≠ r.typeArgs t) t (.ofInstance template ws) v := by
  constructor
  · rintro ⟨n, hn⟩
    cases n with
    | zero => cases hn
    | succ n =>
      obtain ⟨ws, hws, hv⟩ := replaced_of_instance hmap hs ht hn
      exact ⟨ws, forall₂_becomes_iff.2 ⟨n, hws⟩, hv⟩
  · rintro ⟨ws, hws, hv⟩
    obtain ⟨n, hn⟩ := forall₂_becomes_iff.1 hws
    have hdeep := (Deepens.mapM (deepens_substitute map n (n + 1) (Nat.le_succ n)) _).done hn
    refine ⟨n + 2, substitute_eq_done_iff.2 ?_⟩
    rcases hv with ⟨hsame, rfl⟩ | ⟨hne, rfl, hknown⟩
    · rw [not_not.1 hsame] at hdeep
      exact .sameArgs hmap hs ht hdeep
    · exact .newArgs hmap hs ht hdeep hne (instantiate_of_known hknown)

/-- A type that the substitution binds becomes what it is bound to, views and instances follow their
parts, and all else stays. -/
theorem Becomes.induction {P : TypeId → TypeId → Prop} (bound : ∀ t v, map.find? t = some v → P t v)
    (plain : ∀ t, map.find? t = none → r.staticTarget? t = none → r.template? t = none → P t t)
    (view : ∀ t x w v, map.find? t = none → r.staticTarget? t = some x → r.Becomes map x w → P x w →
      r.Replaced (w ≠ x) t (.ofStatic w) v → P t v)
    (inst : ∀ t template ws v, map.find? t = none → r.staticTarget? t = none → r.template? t = some template →
      List.Forall₂ (r.Becomes map) (r.typeArgs t) ws → List.Forall₂ P (r.typeArgs t) ws →
      r.Replaced (ws ≠ r.typeArgs t) t (.ofInstance template ws) v → P t v)
    (h : r.Becomes map t v) : P t v := by
  obtain ⟨n, hn⟩ := h
  induction n generalizing t v with
  | zero => cases hn
  | succ n ih =>
    cases hmap : map.find? t with
    | some b =>
      rw [substitute_of_bound hmap] at hn
      cases hn
      exact bound t v hmap
    | none =>
      cases hs : r.staticTarget? t with
      | some x =>
        obtain ⟨w, hw, hv⟩ := replaced_of_static hmap hs hn
        exact view t x w v hmap hs ⟨n, hw⟩ (ih hw) hv
      | none =>
        cases ht : r.template? t with
        | none =>
          rw [substitute_of_plain hmap hs ht] at hn
          cases hn
          exact plain t hmap hs ht
        | some template =>
          obtain ⟨ws, hws, hv⟩ := replaced_of_instance hmap hs ht hn
          exact inst t template ws v hmap hs ht (forall₂_becomes_iff.2 ⟨n, hws⟩)
            ((steady_mapM_iff.1 hws).imp fun _ _ h ↦ ih h) hv

/-- `u` is `t` or something that `t` consists of. -/
abbrev Comprises (r : Registry) : TypeId → TypeId → Prop := ReflTransGen r.HasPart

/-- `t` is known with all that it consists of. -/
def Whole (r : Registry) (t : TypeId) : Prop := ∀ u, r.Comprises t u → r.contains u = true

namespace Whole

theorem contains (h : r.Whole t) : r.contains t = true := h t .refl

theorem part (h : r.Whole t) (hp : r.HasPart t u) : r.Whole u := fun v hv ↦ h v (.head hp hv)

theorem of_parts (ht : r.contains t = true) (h : ∀ u, r.HasPart t u → r.Whole u) : r.Whole t := by
  intro u hu
  rcases hu.cases_head with rfl | ⟨v, hp, hv⟩
  · exact ht
  · exact h v hp u hv

end Whole

theorem Grows.find?_eq (h : Grows r r') (ht : r.contains t = true) : r'.find? t = r.find? t := by
  obtain ⟨d, hd⟩ := exists_find?_of_contains ht
  rw [hd, h.find? hd]

theorem Grows.hasPart_iff (h : Grows r r') (ht : r.contains t = true) : r'.HasPart t u ↔ r.HasPart t u := by
  unfold HasPart staticTarget? typeArgs
  rw [h.find?_eq ht]

theorem contains_of_staticTarget? (h : r.staticTarget? t = some x) : r.contains t = true := by
  obtain ⟨d, hd, -⟩ := Option.bind_eq_some_iff.1 h
  exact contains_of_find? hd

theorem contains_of_template? (h : r.template? t = some template) : r.contains t = true := by
  obtain ⟨d, hd, -⟩ := Option.bind_eq_some_iff.1 h
  exact contains_of_find? hd

theorem Grows.looksAlike (h : Grows r r') (ht : r.contains t = true) :
    r'.staticTarget? t = r.staticTarget? t ∧ r'.template? t = r.template? t ∧ r'.typeArgs t = r.typeArgs t :=
  Foreseen.looksAlike (.inl ht) h (refl r) h.leads

theorem Whole.grows (ht : r.Whole t) (h : Grows r r') : r'.Whole t := by
  intro u hu
  have hback : r.Comprises t u := by
    induction hu with
    | refl => exact .refl
    | tail _ hp ih => exact ih.tail ((h.hasPart_iff (ht _ ih)).1 hp)
  exact h.contains (ht u hback)

/-- What was whole before a substitution becomes the same again whenever all is there that was made. -/
theorem Whole.substitute_again (ht : r₀.Whole t) (hr₀ : Grows r₀ E) (hr : Grows r₀ r)
    (hrun : substitute fuel map t r = .done v r') (hE : r'.Leads E) : substitute fuel map t E = .done v E :=
  substitute_again_within (K := r₀.Whole) (fun _ h ↦ .inl h.contains) (fun _ _ h hp ↦ h.part hp) hr₀ hr ht hrun
    hE

theorem Whole.becomes (ht : r₀.Whole t) (hr₀ : Grows r₀ E) (hr : Grows r₀ r)
    (hrun : substitute fuel map t r = .done v r') (hE : r'.Leads E) : E.Becomes map t v :=
  ⟨fuel, ht.substitute_again hr₀ hr hrun hE⟩

theorem forall₂_becomes (hts : ∀ t ∈ ts, r₀.Whole t) (hr₀ : Grows r₀ E) (hr : Grows r₀ r)
    (hrun : ts.mapM (substitute fuel map) r = .done vs r') (hE : r'.Leads E) :
    List.Forall₂ (E.Becomes map) ts vs := by
  refine forall₂_becomes_iff.2 ⟨fuel, mapM_again ?_ hr hrun hE⟩
  intro t ht v r₁ r₂ hr₁ hv hr₂
  exact (hts t ht).substitute_again hr₀ hr₁ hv hr₂

/-- The handle of the view of `x` is known as that. -/
def HasView (r : Registry) (x : TypeId) : Prop := r.staticTarget? (.ofStatic x) = some x

/-- The handle of the instance of `template` at `args` is known as that. -/
structure HasInstance (r : Registry) (template : TypeId) (args : List TypeId) : Prop where
  static : r.staticTarget? (.ofInstance template args) = none
  typeArgs : r.typeArgs (.ofInstance template args) = args
  template : r.template? (.ofInstance template args) = some template

theorem Grows.hasView (h : Grows r r') (hx : r.HasView x) : r'.HasView x :=
  (h.looksAlike (contains_of_staticTarget? hx)).1.trans hx

theorem Grows.hasInstance (h : Grows r r') (hi : r.HasInstance template args) :
    r'.HasInstance template args := by
  obtain ⟨hstatic, htemplate, hargs⟩ := h.looksAlike (contains_of_template? hi.template)
  exact ⟨hstatic.trans hi.static, hargs.trans hi.typeArgs, htemplate.trans hi.template⟩

/-- Handles are hashes. What `map` makes of `t`, if its handle is known at all, has not been mistaken for
something else. -/
structure Unmistaken (r : Registry) (map : Substitution) (t : TypeId) : Prop where
  view : ∀ x w, r.staticTarget? t = some x → r.Becomes map x w → r.contains (.ofStatic w) = true → r.HasView w
  inst : ∀ template ws, r.staticTarget? t = none → r.template? t = some template →
    List.Forall₂ (r.Becomes map) (r.typeArgs t) ws → r.contains (.ofInstance template ws) = true →
    r.HasInstance template ws

theorem mem_of_comprises {parts : List TypeId} (ht : t ∈ parts)
    (hparts : ∀ u ∈ parts, ∀ v ∈ (r.staticTarget? u).toList ++ r.typeArgs u, v ∈ parts)
    (h : r.Comprises t u) : u ∈ parts := by
  induction h with
  | refl => exact ht
  | tail _ hp ih =>
    refine hparts _ ih _ (List.mem_append.2 ?_)
    rcases hp with hp | hp
    · rw [hp]
      exact .inl (List.mem_singleton.2 rfl)
    · exact .inr hp

theorem whole_of_parts (parts : List TypeId) (ht : t ∈ parts) (hknown : ∀ u ∈ parts, r.contains u = true)
    (hparts : ∀ u ∈ parts, ∀ v ∈ (r.staticTarget? u).toList ++ r.typeArgs u, v ∈ parts) : r.Whole t :=
  fun _ hu ↦ hknown _ (mem_of_comprises ht hparts hu)

instance : Decidable (r.HasView x) := inferInstanceAs (Decidable (_ = _))

instance : Decidable (r.HasInstance template args) :=
  decidable_of_iff (r.staticTarget? (.ofInstance template args) = none ∧
      r.typeArgs (.ofInstance template args) = args ∧ r.template? (.ofInstance template args) = some template)
    ⟨fun h ↦ ⟨h.1, h.2.1, h.2.2⟩, fun h ↦ ⟨h.static, h.typeArgs, h.template⟩⟩

theorem Gains.eq_of_size (h : Gains r r') (hgrows : Grows r r')
    (hsize : r'.instances.size = r.instances.size) : r' = r := by
  rcases h with rfl | h
  · rfl
  · obtain ⟨u, hu, hnew⟩ := Set.exists_of_ssubset h
    have hnew : r.contains u = false := Bool.eq_false_iff.2 hnew
    obtain ⟨d, hd⟩ := exists_find?_of_contains hu
    have hlt := hgrows.size_lt hnew hd (by rw [hgrows.types]; exact find?_types_eq_none hnew)
    exact absurd hsize (Nat.ne_of_gt hlt)

/-- A substitution after which there are no more instances has made none. -/
theorem becomes_of_size (hv : (substitute n map t r).value? = some v)
    (hsize : (substitute n map t r).state?.map (·.instances.size) = some r.instances.size) :
    r.Becomes map t v := by
  obtain ⟨r', hrun⟩ := Outcome.exists_done hv
  rw [hrun] at hsize
  obtain rfl : r' = r := (((along_instantiate changes_gains n).1 map t).of_done hrun).eq_of_size
    ((grows_substitute _ _ _).of_done hrun) (Option.some.inj hsize)
  exact ⟨n, hrun⟩

/-- What the substitution turns `t` into, if it ends to depth `n`. -/
def replacement (r : Registry) (n : Nat) (map : Substitution) (t : TypeId) : TypeId :=
  (substitute n map t r).value?.getD t

theorem becomes_iff_of_size (hvalue : (substitute n map t r).value?.isSome = true)
    (hsize : (substitute n map t r).state?.map (·.instances.size) = some r.instances.size) :
    r.Becomes map t v ↔ v = r.replacement n map t := by
  obtain ⟨w, hw⟩ := Option.isSome_iff_exists.1 hvalue
  have hbecomes := becomes_of_size hw hsize
  rw [replacement, hw, Option.getD_some]
  exact ⟨fun hv ↦ hv.unique hbecomes, fun hv ↦ hv ▸ hbecomes⟩

theorem unmistaken_of_parts (n : Nat) (parts : List TypeId) (ht : t ∈ parts)
    (hparts : ∀ u ∈ parts, ∀ v ∈ (r.staticTarget? u).toList ++ r.typeArgs u, v ∈ parts)
    (hsteady : ∀ u ∈ parts, (substitute n map u r).value?.isSome = true ∧
      (substitute n map u r).state?.map (·.instances.size) = some r.instances.size)
    (hview : ∀ u ∈ parts, ∀ x ∈ (r.staticTarget? u).toList, r.HasView (r.replacement n map x))
    (hinst : ∀ u ∈ parts, ∀ template ∈ (r.template? u).toList,
      r.HasInstance template ((r.typeArgs u).map (r.replacement n map))) :
    ∀ u, r.Comprises t u → r.Unmistaken map u := by
  have hbecomes : ∀ {u w}, u ∈ parts → r.Becomes map u w → w = r.replacement n map u :=
    fun hu hw ↦ (becomes_iff_of_size (hsteady _ hu).1 (hsteady _ hu).2).1 hw
  intro u hu
  have hmem := mem_of_comprises ht hparts hu
  have hparts := hparts u hmem
  constructor
  · intro x w hs hw _
    have hx : x ∈ (r.staticTarget? u).toList := Option.mem_toList.2 hs
    rw [hbecomes (hparts x (List.mem_append_left _ hx)) hw]
    exact hview u hmem x hx
  · intro template ws _ ht hws _
    have hws : ws = (r.typeArgs u).map (r.replacement n map) := by
      have hargs : ∀ a ∈ r.typeArgs u, a ∈ parts := fun a ha ↦ hparts a (List.mem_append_right _ ha)
      have heq : List.Forall₂ (fun a w ↦ r.replacement n map a = w) (r.typeArgs u) ws :=
        ((List.forall₂_and_left _ _).2 ⟨hargs, hws⟩).imp fun _ _ h ↦ (hbecomes h.1 h.2).symm
      rw [← List.forall₂_map_left_iff (R := (· = ·)), List.forall₂_eq_eq_eq] at heq
      exact heq.symm
    rw [hws]
    exact hinst u hmem template (Option.mem_toList.2 ht)

end CallResolution.Registry
