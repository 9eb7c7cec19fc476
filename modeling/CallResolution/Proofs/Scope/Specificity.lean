import CallResolution.Proofs.Attempt
import CallResolution.Proofs.Conversion.Order
import CallResolution.Proofs.Scope.Match
import CallResolution.Registry.Builtin

namespace CallResolution

open Registry

variable {α β : Type} {r : Registry} {fuel : Nat} {types : List TypeId} {t u : TypeId}

theorem Fit.lt_irrefl (f : Fit) : f.lt f = false := by
  cases f <;> simp [lt]

theorem Fit.not_lt_of_lt {f g : Fit} (h : f.lt g = true) : g.lt f = false := by
  cases f <;> cases g <;> simp_all [lt]
  omega

theorem Fit.not_lt_trans {f g h : Fit} (hfg : f.lt g = false) (hgh : g.lt h = false) : f.lt h = false := by
  cases f <;> cases g <;> cases h <;> simp_all [lt]
  omega

/-- No entry fits more closely than the one that is chosen. -/
theorem not_lt_of_closest {es : List (Option Fit × β)} {f g : Fit} {b c : β}
    (h : closest es = some (f, b)) (hc : (some g, c) ∈ es) : g.lt f = false := by
  induction es generalizing f b with
  | nil => cases hc
  | cons e es ih =>
    obtain ⟨_ | f', b'⟩ := e
    · rcases List.mem_cons.1 hc with hc | hc
      · cases hc
      · exact ih h hc
    · rw [closest] at h
      cases hes : closest es with
      | none =>
        rw [hes] at h
        cases h
        rcases List.mem_cons.1 hc with hc | hc
        · cases hc
          exact Fit.lt_irrefl _
        · have hsome := closest_isSome hc
          rw [hes] at hsome
          cases hsome
      | some p =>
        obtain ⟨g', c'⟩ := p
        rw [hes] at h
        dsimp only at h
        split at h
        · rename_i hlt
          cases h
          rcases List.mem_cons.1 hc with hc | hc
          · cases hc
            exact Fit.not_lt_of_lt hlt
          · exact ih hes hc
        · rename_i hlt
          cases h
          rcases List.mem_cons.1 hc with hc | hc
          · cases hc
            exact Fit.lt_irrefl _
          · exact Fit.not_lt_trans (ih hes hc) (by simpa using hlt)

namespace Registry

theorem idxOf_self_of_convertible (h : r.convertible fuel t = some types) : types.idxOf t = 0 := by
  obtain ⟨n, chain, -, rest, hrest⟩ := convertible_eq_some h
  rw [← hrest, List.cons_append, List.idxOf_cons_self]

/-- A receiver type that the query converts to fits as its place among these types says. -/
theorem receiverFit_of_mem (h : r.convertible fuel t = some types) (hu : u ∈ types) :
    r.receiverFit fuel types (some u) (some t) = some (some (.near (types.idxOf u))) := by
  rw [receiverFit]
  split
  · rename_i hut
    rw [hut, idxOf_self_of_convertible h]
  · rw [position_eq, if_pos hu]
    rfl

theorem position_eq_some {i : Nat} (h : r.position fuel types t u = some (some i)) :
    (u ∈ types ∧ i = types.idxOf u) ∨ i = types.length := by
  rw [position_eq] at h
  split at h
  · cases h
    exact .inl ⟨‹_›, rfl⟩
  · obtain ⟨accepted, -, h⟩ := Option.bind_eq_some_iff.1 h
    cases accepted with
    | true =>
      cases h
      exact .inr rfl
    | false => cases h

/-- Any other receiver type fits less closely than all types that the query converts to. -/
theorem receiverFit_eq_some {f : Fit} (h : r.receiverFit fuel types (some u) (some t) = some (some f)) :
    (u = t ∧ f = .near 0) ∨ (u ∈ types ∧ f = .near (types.idxOf u)) ∨
      ∃ n, f = .near (types.length + n) := by
  rw [receiverFit] at h
  split at h
  · cases h
    exact .inl ⟨‹_›, rfl⟩
  · refine .inr ?_
    obtain ⟨place, hplace, h⟩ := Option.bind_eq_some_iff.1 h
    cases place with
    | some i =>
      cases h
      rcases position_eq_some hplace with ⟨hmem, rfl⟩ | rfl
      · exact .inl ⟨hmem, rfl⟩
      · exact .inr ⟨0, rfl⟩
    | none =>
      refine .inr ?_
      dsimp only at h
      split at h
      · split at h
        · cases h
          exact ⟨0, rfl⟩
        · obtain ⟨wrapped, -, h⟩ := Option.bind_eq_some_iff.1 h
          obtain ⟨i, -, h⟩ := Option.bind_eq_some_iff.1 h
          obtain ⟨j, -, hj⟩ := Option.map_eq_some_iff.1 (Option.some.inj h)
          exact ⟨j, hj.symm⟩
      · cases h

/-- Values of type `t` convert to `u`, but not the other way round. -/
def MoreSpecific (r : Registry) (t u : TypeId) : Prop :=
  ∃ m ts n us, r.convertible m t = some ts ∧ u ∈ ts ∧ r.convertible n u = some us ∧ t ∉ us

end Registry

namespace Scope

variable {s : Scope α} {q : SymbolKey} {e e' : SymbolKey × α}

/-- The receiver type of the entry that answers comes first among the types to which the receiver
converts. -/
theorem idxOf_le_of_closestMatch (hq : q.receiver = some t) (h : s.closestMatch r fuel q = some (some e))
    {v : TypeId} (hu : e.1.receiver = some u) (hv : e'.1.receiver = some v) (he' : e' ∈ s.entries)
    (hserves : serves q e' = true) (htypes : r.convertible fuel t = some types) (hmem : v ∈ types) :
    u ∈ types ∧ types.idxOf u ≤ types.idxOf v := by
  have hlt : types.idxOf v < types.length := List.idxOf_lt_length_iff.2 hmem
  rw [closestMatch_eq, hq, receiverTypes, htypes] at h
  obtain ⟨fits, hfits, h⟩ := Option.bind_eq_some_iff.1 ((Option.bind_some _ _).symm.trans h)
  obtain ⟨⟨f, e₁⟩, hclosest, hsnd⟩ := Option.map_eq_some_iff.1 (Option.some.inj h)
  obtain rfl : e₁ = e := hsnd
  obtain ⟨e₂, -, hfit⟩ := exists_of_mem_mapM_eq_some hfits (mem_of_closest hclosest)
  obtain ⟨g, hg, hpair⟩ := Option.bind_eq_some_iff.1 hfit
  cases hpair
  obtain ⟨y, hy, hfit'⟩ := exists_mem_of_mapM_eq_some hfits (List.mem_filter.2 ⟨he', hserves⟩)
  rw [hv, receiverFit_of_mem htypes hmem] at hfit'
  cases hfit'
  have hnot := not_lt_of_closest hclosest hy
  rw [hu] at hg
  rcases receiverFit_eq_some hg with ⟨hut, rfl⟩ | ⟨hut, rfl⟩ | ⟨n, rfl⟩
  · have hself := idxOf_self_of_convertible htypes
    refine ⟨?_, by rw [hut, hself]; exact Nat.zero_le _⟩
    rw [hut]
    exact List.idxOf_lt_length_iff.1 (by omega)
  · refine ⟨hut, ?_⟩
    simpa [Fit.lt] using hnot
  · simp only [Fit.lt, decide_eq_false_iff_not] at hnot
    omega

/-- The receiver types of the other entries come later among the types to which the receiver converts.
A more specific one among them is neither the type of the receiver nor one of its bases. -/
theorem closestMatch_specific (hq : q.receiver = some t) (h : s.closestMatch r fuel q = some (some e))
    (hu : e.1.receiver = some u) :
    ∃ types, r.convertible fuel t = some types ∧ ∀ e' ∈ s.entries, serves q e' = true →
      ∀ v, e'.1.receiver = some v → v ∈ types → v ≠ u →
        (u ∈ types ∧ types.idxOf u < types.idxOf v) ∧ (r.MoreSpecific v u → ¬r.Derives t v) := by
  have htypes : ∃ types, r.convertible fuel t = some types := by
    rw [closestMatch_eq, hq] at h
    obtain ⟨types, htypes, -⟩ := Option.bind_eq_some_iff.1 h
    exact ⟨types, htypes⟩
  obtain ⟨types, htypes⟩ := htypes
  refine ⟨types, htypes, ?_⟩
  intro e' he' hserves v hv hmem hne
  obtain ⟨hut, hle⟩ := idxOf_le_of_closestMatch hq h hu hv he' hserves htypes hmem
  have hlt : types.idxOf u < types.idxOf v := by
    refine lt_of_le_of_ne hle fun heq ↦ hne ?_
    exact ((List.idxOf_inj hut).1 heq).symm
  refine ⟨⟨hut, hlt⟩, ?_⟩
  intro hmore hderives
  obtain ⟨-, -, n, us, -, -, hus, hnot⟩ := hmore
  exact hnot (mem_convertible_of_derives (derives_of_idxOf_lt htypes hderives hlt) hus)

def shape : TypeId := .ofName "IShape"
def drawable : TypeId := .ofName "IDrawable"
def widget : TypeId := .ofName "Widget"

/-- A `Widget` is a shape and can be drawn; what can be drawn is a shape. -/
def makeWidget : Attempt Registry RegistrationError TypeId := do
  let _ ← register { name := "IShape", id := shape, kind := .interfaceType }
  let _ ← register { name := "IDrawable", id := drawable, kind := .interfaceType, interfaces := [shape] }
  register { name := "Widget", id := widget, kind := .classType, interfaces := [shape, drawable] }

def widgetTypes : Registry := (makeWidget builtin).state?.getD {}

/-- The key of `draw` for receivers of type `t`. -/
def drawOn (t : TypeId) : SymbolKey := ⟨.ofMethod, some t, "draw"⟩

def drawScope (types : List TypeId) : Scope TypeId := { entries := types.map fun t ↦ (drawOn t, t) }

theorem closestMatch_specific_widget :
    (drawScope [drawable, shape, .object]).closestMatch widgetTypes 5 (drawOn widget) =
        some (some (drawOn .object, .object)) ∧
      ∃ types, widgetTypes.convertible 5 widget = some types ∧ .object ∈ types ∧
        types.idxOf .object < types.idxOf drawable ∧ widgetTypes.MoreSpecific drawable .object ∧
        ¬widgetTypes.Derives widget drawable := by
  have hmatch : (drawScope [drawable, shape, .object]).closestMatch widgetTypes 5 (drawOn widget) =
      some (some (drawOn .object, .object)) := by decide +kernel
  have hwidget : widgetTypes.convertible 5 widget = some [widget, .object, shape, drawable] := by
    decide +kernel
  have hmore : widgetTypes.MoreSpecific drawable .object :=
    ⟨5, [drawable, shape, .object], 5, [.object], by decide +kernel, by decide +kernel,
      by decide +kernel, by decide +kernel⟩
  obtain ⟨types, htypes, hlater⟩ := closestMatch_specific rfl hmatch rfl
  obtain rfl := Option.some.inj (hwidget.symm.trans htypes)
  obtain ⟨⟨hmem, hlt⟩, hnot⟩ := hlater (drawOn drawable, drawable) List.mem_cons_self (by decide +kernel)
    drawable rfl (by decide +kernel) (by decide +kernel)
  exact ⟨hmatch, _, htypes, hmem, hlt, hmore, hnot hmore⟩

/-- `draw` on a `Widget` is that of `object` although it is a shape. Among its interfaces it is that of
the one listed first, although the other extends it. -/
theorem closestMatch_less_specific :
    ∃ types, widgetTypes.convertible 5 widget = some types ∧
      ((drawScope [shape, .object]).closestMatch widgetTypes 5 (drawOn widget) =
          some (some (drawOn .object, .object)) ∧
        shape ∈ types ∧ widgetTypes.MoreSpecific shape .object) ∧
      (drawScope [drawable, shape]).closestMatch widgetTypes 5 (drawOn widget) =
          some (some (drawOn shape, shape)) ∧
        drawable ∈ types ∧ widgetTypes.MoreSpecific drawable shape := by
  have hobject : widgetTypes.convertible 5 .object = some [.object] := by decide +kernel
  have hshape : widgetTypes.convertible 5 shape = some [shape, .object] := by decide +kernel
  have hdrawable : widgetTypes.convertible 5 drawable = some [drawable, shape, .object] := by
    decide +kernel
  refine ⟨[widget, .object, shape, drawable], by decide +kernel,
    ⟨by decide +kernel, by decide +kernel, 5, _, 5, _, hshape, ?_, hobject, ?_⟩,
    by decide +kernel, by decide +kernel, 5, _, 5, _, hdrawable, ?_, hshape, ?_⟩ <;> decide +kernel

end Scope

end CallResolution
