import CallResolution.Proofs.Scope.Refinement

namespace CallResolution

variable {α β : Type} {r : Registry} {fuel : Nat} {q : SymbolKey}

/-- The order of fits, with a number to tell equal ones apart. -/
def Fit.Before (x y : Fit × Nat) : Prop := x.1.lt y.1 = true ∨ x.1 = y.1 ∧ x.2 ≤ y.2

namespace Fit.Before

variable {x y z : Fit × Nat}

theorem refl (x : Fit × Nat) : Before x x := .inr ⟨rfl, le_rfl⟩

theorem trans (hxy : Before x y) (hyz : Before y z) : Before x z := by
  obtain ⟨f, i⟩ := x
  obtain ⟨g, j⟩ := y
  obtain ⟨h, k⟩ := z
  cases f <;> cases g <;> cases h <;> simp [Before, Fit.lt] at * <;> omega

theorem antisymm (hxy : Before x y) (hyx : Before y x) : x = y := by
  obtain ⟨f, i⟩ := x
  obtain ⟨g, j⟩ := y
  cases f <;> cases g <;> simp [Before, Fit.lt] at * <;> omega

theorem of_true (h : (x.1.lt y.1 || (x.1 = y.1 && decide (x.2 < y.2))) = true) : Before x y := by
  simp only [Bool.or_eq_true, Bool.and_eq_true, decide_eq_true_eq] at h
  exact h.imp_right fun ⟨hfit, hlt⟩ ↦ ⟨hfit, hlt.le⟩

theorem of_false (h : (x.1.lt y.1 || (x.1 = y.1 && decide (x.2 < y.2))) = false) : Before y x := by
  obtain ⟨f, i⟩ := x
  obtain ⟨g, j⟩ := y
  cases f <;> cases g <;> simp [Before, Fit.lt] at * <;> omega

end Fit.Before

theorem closest_filter_map (p : β → Bool) (h : β → Option Fit) (es : List β) :
    closest ((es.filter p).map fun e ↦ (h e, e)) =
      closest (es.map fun e ↦ (if p e then h e else none, e)) := by
  induction es with
  | nil => rfl
  | cons e es ih =>
    cases hp : p e with
    | false => simp [hp, closest, ih]
    | true =>
      cases he : h e <;> simp [hp, he, closest, ih]

/-- The chosen one comes before every other, by fit and then by position. -/
theorem before_of_closest {h : β → Option Fit} {es : List β} {fit : Fit} {b : β}
    (hclosest : closest (es.map fun e ↦ (h e, e)) = some (fit, b)) :
    ∃ i, es[i]? = some b ∧ h b = some fit ∧
      ∀ j b' g, es[j]? = some b' → h b' = some g → Fit.Before (fit, i) (g, j) := by
  obtain ⟨front, back, hes, hfront, hback⟩ := closest_eq_some_iff.1 hclosest
  obtain ⟨es₁, es₂, rfl, rfl, hes₂⟩ := List.map_eq_append_iff.1 hes
  obtain ⟨b', es₃, rfl, hb, rfl⟩ := List.map_eq_cons_iff.1 hes₂
  obtain ⟨hfit, rfl⟩ := Prod.mk.inj hb
  refine ⟨es₁.length, by simp, hfit, fun j b₁ g hj hg ↦ ?_⟩
  rcases lt_trichotomy j es₁.length with hlt | rfl | hlt
  · rw [List.getElem?_append_left hlt] at hj
    exact .inl (hfront _ (List.mem_map_of_mem (List.mem_of_getElem? hj)) g hg)
  · simp at hj
    subst hj
    obtain rfl := Option.some.inj (hfit.symm.trans hg)
    exact .refl _
  · have hmem : b₁ ∈ es₃ := by
      obtain ⟨k, rfl⟩ := Nat.exists_eq_add_of_lt hlt
      have hk : es₁.length + k + 1 - es₁.length = k + 1 := by omega
      rw [List.getElem?_append_right (by omega), hk, List.getElem?_cons_succ] at hj
      exact List.mem_of_getElem? hj
    have hnot := hback _ (List.mem_map_of_mem hmem) g hg
    apply Fit.Before.of_false
    simp [hnot]
    omega

namespace SymbolTable

variable {t : SymbolTable α} {fits : List (Option Fit × Slot α)} {best : Option (Fit × Slot α)}

/-- The best of the slots that fit: no other comes before it. -/
inductive Leads (fits : List (Option Fit × Slot α)) : Option (Fit × Slot α) → Prop
  | none (h : ∀ p ∈ fits, p.1 = none) : Leads fits none
  | some {fit : Fit} {s : Slot α} (hmem : (some fit, s) ∈ fits)
      (hfirst : ∀ g u, (Option.some g, u) ∈ fits → Fit.Before (fit, s.number) (g, u.number)) :
      Leads fits (some (fit, s))

theorem leads_prefer (h : Leads fits best) (p : Option Fit × Slot α) :
    Leads (fits ++ [p]) (prefer best p) := by
  obtain ⟨_ | fit, s⟩ := p
  · cases h with
    | none hnone => exact .none (by simpa [or_imp, forall_and] using hnone)
    | some hmem hfirst =>
      exact .some (List.mem_append_left _ hmem) fun g u hu ↦ hfirst g u (by simpa using hu)
  · cases h with
    | none hnone =>
      refine .some (by simp) fun g u hu ↦ ?_
      rcases List.mem_append.1 hu with hu | hu
      · cases hnone _ hu
      · cases List.mem_singleton.1 hu
        exact .refl _
    | @some f u hmem hfirst =>
      cases hless : fit.lt f || (fit = f && decide (s.number < u.number)) with
      | true =>
        simp only [prefer, hless, if_true]
        refine .some (by simp) fun g v hv ↦ ?_
        rcases List.mem_append.1 hv with hv | hv
        · exact (Fit.Before.of_true hless).trans (hfirst g v hv)
        · cases List.mem_singleton.1 hv
          exact .refl _
      | false =>
        simp only [prefer, hless, Bool.false_eq_true, if_false]
        refine .some (List.mem_append_left _ hmem) fun g v hv ↦ ?_
        rcases List.mem_append.1 hv with hv | hv
        · exact hfirst g v hv
        · cases List.mem_singleton.1 hv
          exact .of_false hless

theorem leads_foldl (h : Leads fits best) (ps : List (Option Fit × Slot α)) :
    Leads (fits ++ ps) (ps.foldl prefer best) := by
  induction ps generalizing fits best with
  | nil => simpa using h
  | cons p ps ih =>
    have hps := ih (leads_prefer h p)
    rwa [List.append_assoc] at hps

theorem closestMatch_eq : t.closestMatch r fuel q = (do
    let types ← Scope.receiverTypes r fuel q.receiver
    let fits ← (t.slots.filter fun s ↦ Scope.serves q s.entry).mapM fun s ↦ do
      return (← r.receiverFit fuel types s.key.receiver q.receiver, s)
    return (fits.foldl prefer none).map fun best ↦ best.2.entry) := by
  unfold closestMatch Scope.receiverTypes
  cases q.receiver <;> rfl

end SymbolTable

namespace Scope

variable {s : Scope α} {e : SymbolKey × α}

/-- It is known which types the receiver has and how closely each entry in question fits. -/
def Known (r : Registry) (fuel : Nat) (q : SymbolKey) (s : Scope α) : Prop :=
  ∃ types, receiverTypes r fuel q.receiver = some types ∧
    ∀ e ∈ s.entries, serves q e = true → (r.receiverFit fuel types e.1.receiver q.receiver).isSome = true

/-- The query accepts the `i`-th entry, which fits it so closely. -/
structure Ranked (r : Registry) (fuel : Nat) (q : SymbolKey) (s : Scope α) (i : Nat)
    (e : SymbolKey × α) (fit : Fit) : Prop where
  entry : s.entries[i]? = some e
  serves : serves q e = true
  fits : ∃ types, receiverTypes r fuel q.receiver = some types ∧
    r.receiverFit fuel types e.1.receiver q.receiver = some (some fit)

/-- The entry is the first of those that fit most closely. -/
def Leading (r : Registry) (fuel : Nat) (q : SymbolKey) (s : Scope α) (e : SymbolKey × α) : Prop :=
  ∃ i fit, s.Ranked r fuel q i e fit ∧
    ∀ j e' fit', s.Ranked r fuel q j e' fit' → Fit.Before (fit, i) (fit', j)

theorem Leading.unique {e' : SymbolKey × α} (h : s.Leading r fuel q e) (h' : s.Leading r fuel q e') :
    e = e' := by
  obtain ⟨i, fit, hranked, hfirst⟩ := h
  obtain ⟨j, fit', hranked', hfirst'⟩ := h'
  have heq := (hfirst j e' fit' hranked').antisymm (hfirst' i e fit hranked)
  cases heq
  exact Option.some.inj (hranked.entry.symm.trans hranked'.entry)

theorem isSome_closestMatch_iff : (s.closestMatch r fuel q).isSome = true ↔ s.Known r fuel q := by
  rw [Option.isSome_iff_exists]
  simp only [closestMatch_eq_some_iff, Known, List.mem_filter, and_imp]
  constructor
  · rintro ⟨found, types, htypes, hall, -⟩
    exact ⟨types, htypes, hall⟩
  · rintro ⟨types, htypes, hall⟩
    exact ⟨_, types, htypes, hall, rfl⟩

theorem Ranked.accepted {i : Nat} {fit : Fit} (h : s.Ranked r fuel q i e fit) : Accepted r fuel q e := by
  obtain ⟨types, htypes, hfit⟩ := h.fits
  exact ⟨h.serves, types, htypes, by simp [fitOf, hfit]⟩

theorem leading_of_closestMatch (h : s.closestMatch r fuel q = some (some e)) :
    s.Leading r fuel q e := by
  obtain ⟨types, htypes, -, hfound⟩ := closestMatch_eq_some_iff.1 h
  obtain ⟨⟨fit, e'⟩, hclosest, rfl⟩ := Option.map_eq_some_iff.1 hfound
  rw [closest_filter_map] at hclosest
  obtain ⟨i, hi, hfit, hfirst⟩ := before_of_closest hclosest
  have hranked {j : Nat} {e : SymbolKey × α} {g : Fit} : s.Ranked r fuel q j e g ↔
      s.entries[j]? = some e ∧ (if serves q e then fitOf r fuel types q e else none) = some g := by
    constructor
    · rintro ⟨hentry, hserves, types', htypes', hg⟩
      obtain rfl := Option.some.inj (htypes.symm.trans htypes')
      exact ⟨hentry, by simp [hserves, fitOf, hg]⟩
    · rintro ⟨hentry, hg⟩
      split at hg
      · exact ⟨hentry, ‹_›, types, htypes, Option.join_eq_some_iff.1 hg⟩
      · cases hg
  exact ⟨i, fit, hranked.2 ⟨hi, hfit⟩, fun j e' g hj ↦ hfirst j e' g (hranked.1 hj).1 (hranked.1 hj).2⟩

end Scope

namespace SymbolTable

variable {t : SymbolTable α} {found : Option (SymbolKey × α)}

theorem mem_entries_toScope {e : SymbolKey × α} :
    e ∈ t.toScope.entries ↔ ∃ s ∈ t.slots, s.entry = e := by
  simp only [toScope, List.mem_map, t.perm_inOrder.mem_iff]

theorem isSome_closestMatch_iff :
    (t.closestMatch r fuel q).isSome = true ↔ t.toScope.Known r fuel q := by
  have hknown (types : List TypeId) : (∃ fits, (t.slots.filter fun s ↦ Scope.serves q s.entry).mapM
        (fun s ↦ do return (← r.receiverFit fuel types s.key.receiver q.receiver, s)) = some fits) ↔
      ∀ e ∈ t.toScope.entries, Scope.serves q e = true →
        (r.receiverFit fuel types e.1.receiver q.receiver).isSome = true := by
    rw [exists_mapM_iff]
    simp [mem_entries_toScope, Slot.entry, Option.isSome_bind]
  rw [closestMatch_eq]
  constructor
  · intro h
    obtain ⟨found, h⟩ := Option.isSome_iff_exists.1 h
    obtain ⟨types, htypes, h⟩ := Option.bind_eq_some_iff.1 h
    obtain ⟨fits, hfits, -⟩ := Option.bind_eq_some_iff.1 h
    exact ⟨types, htypes, (hknown types).1 ⟨fits, hfits⟩⟩
  · rintro ⟨types, htypes, hall⟩
    obtain ⟨fits, hfits⟩ := (hknown types).2 hall
    exact Option.isSome_iff_exists.2 ⟨_, Option.bind_eq_some_iff.2 ⟨types, htypes,
      Option.bind_eq_some_iff.2 ⟨fits, hfits, rfl⟩⟩⟩

theorem le_of_number_le (ht : t.Sound) {i j : Nat} {s u : Slot α} (hi : t.inOrder[i]? = some s)
    (hj : t.inOrder[j]? = some u) (hle : s.number ≤ u.number) : i ≤ j := by
  obtain ⟨hi', rfl⟩ := List.getElem?_eq_some_iff.1 hi
  obtain ⟨hj', rfl⟩ := List.getElem?_eq_some_iff.1 hj
  by_contra hji
  have hlt := List.pairwise_iff_getElem.1 (strictly_ascending ht) j i hj' hi' (by omega)
  omega

/-- A scan of the slots in whatever order finds the entry that came first among the closest. -/
theorem cases_of_closestMatch (ht : t.Sound) (h : t.closestMatch r fuel q = some found) :
    (found = none ∧ ∀ i e fit, ¬t.toScope.Ranked r fuel q i e fit) ∨
      ∃ e, found = some e ∧ t.toScope.Leading r fuel q e := by
  rw [closestMatch_eq] at h
  obtain ⟨types, htypes, h⟩ := Option.bind_eq_some_iff.1 h
  obtain ⟨fits, hfits, h⟩ := Option.bind_eq_some_iff.1 h
  -- only membership in `fits` is used from here on, never the order of the slots
  have hmem {x : Option Fit} {s : Slot α} : (x, s) ∈ fits ↔ s ∈ t.slots ∧ Scope.serves q s.entry = true ∧
      r.receiverFit fuel types s.key.receiver q.receiver = some x := by
    rw [mem_of_mapM_pair hfits, List.mem_filter, and_assoc]
  have hranked {i : Nat} {e : SymbolKey × α} {fit : Fit} : t.toScope.Ranked r fuel q i e fit ↔
      ∃ s, t.inOrder[i]? = some s ∧ s.entry = e ∧ (some fit, s) ∈ fits := by
    constructor
    · rintro ⟨hentry, hserves, types', htypes', hfit⟩
      obtain rfl := Option.some.inj (htypes.symm.trans htypes')
      rw [toScope, List.getElem?_map, Option.map_eq_some_iff] at hentry
      obtain ⟨s, hs, rfl⟩ := hentry
      exact ⟨s, hs, rfl, hmem.2 ⟨t.perm_inOrder.mem_iff.1 (List.mem_of_getElem? hs), hserves, hfit⟩⟩
    · rintro ⟨s, hs, rfl, hp⟩
      obtain ⟨-, hserves, hfit⟩ := hmem.1 hp
      exact ⟨by simp [toScope, hs], hserves, types, htypes, hfit⟩
  have hleads : Leads ([] ++ fits) (fits.foldl prefer none) := leads_foldl (.none (by simp)) fits
  rw [List.nil_append] at hleads
  generalize fits.foldl prefer none = best at h hleads
  cases hleads with
  | none hnone =>
    cases h
    refine .inl ⟨rfl, fun i e fit hentry ↦ ?_⟩
    obtain ⟨s, -, -, hs⟩ := hranked.1 hentry
    cases hnone _ hs
  | @some fit s hs hfirst =>
    cases h
    obtain ⟨i, hi⟩ := List.mem_iff_getElem?.1 (t.perm_inOrder.mem_iff.2 (hmem.1 hs).1)
    refine .inr ⟨s.entry, rfl, i, fit, hranked.2 ⟨s, hi, rfl, hs⟩, fun j e' fit' hentry ↦ ?_⟩
    obtain ⟨u, hj, -, hu⟩ := hranked.1 hentry
    exact (hfirst fit' u hu).imp_right fun hle ↦ ⟨hle.1, le_of_number_le ht hi hj hle.2⟩

theorem closestMatch_eq_none_iff (ht : t.Sound) : t.closestMatch r fuel q = some none ↔
    t.toScope.Known r fuel q ∧ ∀ i e fit, ¬t.toScope.Ranked r fuel q i e fit := by
  rw [← isSome_closestMatch_iff]
  cases h : t.closestMatch r fuel q with
  | none => simp
  | some found =>
    rcases cases_of_closestMatch ht h with ⟨rfl, hnone⟩ | ⟨e, rfl, i, fit, hentry, -⟩
    · simpa using hnone
    · simpa using ⟨i, e.1, e.2, fit, hentry⟩

theorem closestMatch_eq_some_iff (ht : t.Sound) {e : SymbolKey × α} :
    t.closestMatch r fuel q = some (some e) ↔
      t.toScope.Known r fuel q ∧ t.toScope.Leading r fuel q e := by
  rw [← isSome_closestMatch_iff]
  cases h : t.closestMatch r fuel q with
  | none => simp
  | some found =>
    rcases cases_of_closestMatch ht h with ⟨rfl, hnone⟩ | ⟨e', rfl, hlead⟩
    · simpa using fun ⟨i, fit, hentry, _⟩ ↦ hnone i e fit hentry
    · simpa using ⟨fun he ↦ he ▸ hlead, hlead.unique⟩

/-- The slots say what the scope says, in whatever order they are kept. -/
theorem closestMatch_toScope (ht : t.Sound) :
    t.toScope.closestMatch r fuel q = t.closestMatch r fuel q := by
  cases h : t.toScope.closestMatch r fuel q with
  | none =>
    have hnot : ¬t.toScope.Known r fuel q := by simp [← Scope.isSome_closestMatch_iff, h]
    rw [← isSome_closestMatch_iff, Option.not_isSome_iff_eq_none] at hnot
    exact hnot.symm
  | some found =>
    have hknown : t.toScope.Known r fuel q := by simp [← Scope.isSome_closestMatch_iff, h]
    cases found with
    | none =>
      refine ((closestMatch_eq_none_iff ht).2 ⟨hknown, fun i e fit hentry ↦ ?_⟩).symm
      exact Scope.not_accepted_of_closestMatch h (List.mem_of_getElem? hentry.entry) hentry.accepted
    | some e => exact ((closestMatch_eq_some_iff ht).2 ⟨hknown, Scope.leading_of_closestMatch h⟩).symm

end SymbolTable

namespace TableForest

variable {f : TableForest α} {n : Nat} {t : SymbolTable α} {ts us : List (SymbolTable α)}

theorem firstMatch_eq_none_iff : firstMatch r fuel q ts = some none ↔
    ∀ t ∈ ts, t.closestMatch r fuel q = some none := by
  induction ts with
  | nil => simp [firstMatch]
  | cons t ts ih =>
    rw [List.forall_mem_cons, ← ih, firstMatch]
    cases h : t.closestMatch r fuel q with
    | none => simp
    | some found => cases found <;> simp

/-- Once a table has something to say, those around it have not. -/
theorem firstMatch_append (h : firstMatch r fuel q ts ≠ some none) :
    firstMatch r fuel q (ts ++ us) = firstMatch r fuel q ts := by
  induction ts with
  | nil => exact absurd rfl h
  | cons t ts ih =>
    rw [List.cons_append, firstMatch, firstMatch]
    rw [firstMatch] at h
    cases ht : t.closestMatch r fuel q with
    | none => rfl
    | some found =>
      cases found with
      | some e => rfl
      | none => exact ih (by simpa [ht] using h)

theorem firstMatch_eq_some_iff {e : SymbolKey × α} : firstMatch r fuel q ts = some (some e) ↔
    ∃ inner t outer, ts = inner ++ t :: outer ∧ (∀ u ∈ inner, u.closestMatch r fuel q = some none) ∧
      t.closestMatch r fuel q = some (some e) := by
  constructor
  · intro h
    induction ts with
    | nil => simp [firstMatch] at h
    | cons t ts ih =>
      rw [firstMatch] at h
      cases ht : t.closestMatch r fuel q with
      | none => simp [ht] at h
      | some found =>
        cases found with
        | some e' => exact ⟨[], t, ts, rfl, by simp, by simpa [ht] using h⟩
        | none =>
          obtain ⟨inner, u, outer, rfl, hinner, hu⟩ := ih (by simpa [ht] using h)
          exact ⟨t :: inner, u, outer, rfl, List.forall_mem_cons.2 ⟨ht, hinner⟩, hu⟩
  · rintro ⟨inner, t, outer, rfl, hinner, ht⟩
    induction inner with
    | nil => simp [firstMatch, ht]
    | cons u inner ih =>
      obtain ⟨hu, hinner⟩ := List.forall_mem_cons.1 hinner
      rw [List.cons_append, firstMatch, hu]
      exact ih hinner

theorem closestMatch_chain (hf : f.Sound) {c : ScopeChain α}
    (hc : f.toScopes.chain? n = some c) : c.closestMatch r fuel q = f.closestMatch r fuel q n := by
  have hts : ∀ t ∈ f.chain n, t.Sound := fun t ↦ hf.of_mem_chain
  rw [ScopeChain.closestMatch, toList_chain hc, closestMatch]
  generalize f.chain n = ts at hts
  induction ts with
  | nil => rfl
  | cons t ts ih =>
    obtain ⟨ht, hts⟩ := List.forall_mem_cons.1 hts
    rw [List.map_cons, CallResolution.firstMatch, firstMatch, SymbolTable.closestMatch_toScope ht]
    cases t.closestMatch r fuel q with
    | none => simp
    | some found => cases found <;> simp [ih hts]

/-- A table answers a query with the first of its entries that fit most closely, in whatever order it
keeps them. The innermost table that has an answer hides what those around it say. -/
theorem closestMatch_leading [BEq α] {requests : List (Request α)}
    {answers : List (Except SymbolError Reply)} (hrun : Run empty requests answers f) (r : Registry)
    (fuel : Nat) (q : SymbolKey) :
    (∃ g, ScopeForest.run requests {} = some (answers, g) ∧
      (∀ n c, g.chain? n = some c → f.closestMatch r fuel q n = c.closestMatch r fuel q) ∧
      ∀ n t, f.table? n = some t → ∃ s, g.scope? n = some s ∧
        ((t.closestMatch r fuel q).isSome = true ↔ s.Known r fuel q) ∧
        (t.closestMatch r fuel q = some none ↔
          s.Known r fuel q ∧ ∀ i e fit, ¬s.Ranked r fuel q i e fit) ∧
        ∀ e, t.closestMatch r fuel q = some (some e) ↔ s.Known r fuel q ∧ s.Leading r fuel q e) ∧
    (∀ n e, f.closestMatch r fuel q n = some (some e) ↔ ∃ inner t outer, f.chain n = inner ++ t :: outer ∧
      (∀ u ∈ inner, u.closestMatch r fuel q = some none) ∧ t.closestMatch r fuel q = some (some e)) ∧
    (∀ n, f.closestMatch r fuel q n = some none ↔
      ∀ t ∈ f.chain n, t.closestMatch r fuel q = some none) ∧
    ∀ n inner t outer, f.chain n = inner ++ t :: outer →
      (∃ i e fit, t.toScope.Ranked r fuel q i e fit) →
      f.closestMatch r fuel q n = firstMatch r fuel q (inner ++ [t]) := by
  have hf := (hrun.follows sound_empty).1
  refine ⟨⟨f.toScopes, hrun.toScopes_eq, fun n c hc ↦ (closestMatch_chain hf hc).symm, ?_⟩,
    fun n e ↦ firstMatch_eq_some_iff, fun n ↦ firstMatch_eq_none_iff, ?_⟩
  · intro n t hn
    obtain ⟨node, hnode, rfl⟩ := Option.map_eq_some_iff.1 hn
    have ht := hf.tables node (List.mem_of_getElem? hnode)
    exact ⟨node.table.toScope, (f.scope?_toScopes n).trans (scope?_of_some hnode),
      SymbolTable.isSome_closestMatch_iff, SymbolTable.closestMatch_eq_none_iff ht,
      fun e ↦ SymbolTable.closestMatch_eq_some_iff ht⟩
  · rintro n inner t outer hchain ⟨i, e, fit, hentry⟩
    have ht : t.Sound := hf.of_mem_chain (by rw [hchain]; simp)
    have hsome : firstMatch r fuel q (inner ++ [t]) ≠ some none := by
      intro hnone
      have htnone := firstMatch_eq_none_iff.1 hnone t (by simp)
      exact ((SymbolTable.closestMatch_eq_none_iff ht).1 htnone).2 i e fit hentry
    rw [closestMatch, hchain, List.append_cons, firstMatch_append hsome]

/-- `draw` for any receiver and for two types of them. One goes and comes back. -/
def drawing : List (Request Nat) :=
  [.root, .add 0 (Scope.drawOn Scope.shape) 1, .add 0 (.global .ofMethod "draw") 2,
    .remove 0 (Scope.drawOn Scope.shape), .add 0 (Scope.drawOn .object) 3,
    .add 0 (Scope.drawOn Scope.shape) 4]

def drawTable : SymbolTable Nat where
  slots := [⟨Scope.drawOn .object, 2, 3⟩, ⟨Scope.drawOn Scope.shape, 3, 4⟩,
    ⟨.global .ofMethod "draw", 1, 2⟩]
  next := 4

theorem closestMatch_leading_draw : ∃ answers f g s, Run empty drawing answers f ∧
    f.table? 0 = some drawTable ∧ ScopeForest.run drawing {} = some (answers, g) ∧
    g.scope? 0 = some s ∧
    s.Leading Scope.widgetTypes 5 (Scope.drawOn Scope.widget) (Scope.drawOn .object, 3) := by
  have hrun : ∃ answers f, Run empty drawing answers f ∧ f.table? 0 = some drawTable := by
    apply Exists.intro
    apply Exists.intro
    constructor
    apply Run.done rfl
    apply Run.done rfl
    apply Run.done rfl
    apply Run.done rfl
    apply Run.done rfl
    apply Run.done rfl
    apply Run.shuffle (n := 0) rfl (.swap _ _ _)
    apply Run.nil
    rfl
  obtain ⟨answers, f, hrun, htable⟩ := hrun
  obtain ⟨⟨g, hg, -, hall⟩, -⟩ := closestMatch_leading hrun Scope.widgetTypes 5 (Scope.drawOn Scope.widget)
  obtain ⟨s, hs, -, -, hsome⟩ := hall 0 drawTable htable
  have hmatch : drawTable.closestMatch Scope.widgetTypes 5 (Scope.drawOn Scope.widget) =
      some (some (Scope.drawOn .object, 3)) := by decide +kernel
  exact ⟨answers, f, g, s, hrun, htable, hg, hs, ((hsome _).1 hmatch).2⟩

end TableForest

end CallResolution
