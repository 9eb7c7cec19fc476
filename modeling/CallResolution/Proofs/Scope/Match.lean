import CallResolution.Proofs.Answer
import CallResolution.Scope.Match

namespace CallResolution

variable {α β : Type} {r : Registry} {fuel : Nat} {q : SymbolKey} {e : SymbolKey × α}
  {s t : Scope α} {c : ScopeChain α}

theorem mem_of_closest {es : List (Option Fit × β)} {f : Fit} {b : β}
    (h : closest es = some (f, b)) : (some f, b) ∈ es := by
  induction es generalizing f b with
  | nil => cases h
  | cons e es ih =>
    obtain ⟨_ | g, b'⟩ := e
    · exact List.mem_cons_of_mem _ (ih h)
    · rw [closest] at h
      cases hc : closest es with
      | none =>
        rw [hc] at h
        cases h
        exact List.mem_cons_self
      | some p =>
        rw [hc] at h
        dsimp only at h
        split at h
        · cases h
          exact List.mem_cons_of_mem _ (ih hc)
        · cases h
          exact List.mem_cons_self

theorem closest_isSome {es : List (Option Fit × β)} {f : Fit} {b : β} (h : (some f, b) ∈ es) :
    (closest es).isSome = true := by
  induction es with
  | nil => cases h
  | cons e es ih =>
    obtain ⟨_ | g, b'⟩ := e
    · rcases List.mem_cons.1 h with h | h
      · cases h
      · exact ih h
    · rw [closest]
      cases closest es with
      | none => rfl
      | some p =>
        dsimp only
        split <;> rfl

theorem closest_general (es : List β) :
    closest (es.map fun e ↦ (some Fit.general, e)) = es.head?.map fun e ↦ (Fit.general, e) := by
  cases es with
  | nil => rfl
  | cons e es =>
    rw [List.map_cons, closest, closest_general es]
    cases es <;> rfl

namespace Scope

/-- The entry is for symbols of that name in that use. -/
def serves (q : SymbolKey) (e : SymbolKey × α) : Bool :=
  e.1.name == q.name && e.1.kind.covers q.kind

theorem serves_iff : serves q e = true ↔ e.1.name = q.name ∧ e.1.kind.covers q.kind = true := by
  simp [serves]

def receiverTypes (r : Registry) (fuel : Nat) : Option TypeId → Option (List TypeId)
  | none => some []
  | some t => r.convertible fuel t

theorem closestMatch_eq : s.closestMatch r fuel q = (do
    let types ← receiverTypes r fuel q.receiver
    let fits ← (s.entries.filter (serves q)).mapM fun e ↦ do
      return (← r.receiverFit fuel types e.1.receiver q.receiver, e)
    return (closest fits).map Prod.snd) := by
  unfold closestMatch receiverTypes
  cases q.receiver <;> rfl

theorem closestMatch_congr (h : s.entries.filter (serves q) = t.entries.filter (serves q)) :
    s.closestMatch r fuel q = t.closestMatch r fuel q := by
  rw [closestMatch_eq, closestMatch_eq, h]

theorem mem_of_closestMatch (h : s.closestMatch r fuel q = some (some e)) :
    e ∈ s.entries ∧ serves q e = true := by
  rw [closestMatch_eq] at h
  obtain ⟨types, -, h⟩ := Option.bind_eq_some_iff.1 h
  obtain ⟨fits, hfits, h⟩ := Option.bind_eq_some_iff.1 h
  obtain ⟨⟨f, e'⟩, hclosest, rfl⟩ := Option.map_eq_some_iff.1 (Option.some.inj h)
  obtain ⟨e, he, hfit⟩ := exists_of_mem_mapM_eq_some hfits (mem_of_closest hclosest)
  obtain ⟨g, -, hg⟩ := Option.bind_eq_some_iff.1 hfit
  cases hg
  exact List.mem_filter.1 he

/-- An entry for receivers of no type in particular leaves no query that it serves unanswered. -/
theorem closestMatch_ne_none (he : e ∈ s.entries) (hserves : serves q e = true)
    (hreceiver : e.1.receiver = none) : s.closestMatch r fuel q ≠ some none := by
  intro h
  rw [closestMatch_eq] at h
  obtain ⟨types, -, h⟩ := Option.bind_eq_some_iff.1 h
  obtain ⟨fits, hfits, h⟩ := Option.bind_eq_some_iff.1 h
  obtain ⟨y, hy, hfit⟩ := exists_mem_of_mapM_eq_some hfits (List.mem_filter.2 ⟨he, hserves⟩)
  rw [hreceiver] at hfit
  cases hfit
  have hsome := closest_isSome hy
  rw [Option.map_eq_none_iff.1 (Option.some.inj h)] at hsome
  cases hsome

/-- A scope that asks for no receiver answers with its first entry for the name and use, as soon as
it is known what the receiver converts to. -/
theorem closestMatch_of_global (hs : ∀ e ∈ s.entries, e.1.receiver = none) :
    s.closestMatch r fuel q =
      (receiverTypes r fuel q.receiver).map fun _ ↦ s.entries.find? (serves q) := by
  have hfits (types : List TypeId) (es : List (SymbolKey × α)) (h : ∀ e ∈ es, e.1.receiver = none) :
      es.mapM (fun e ↦ do return (← r.receiverFit fuel types e.1.receiver q.receiver, e)) =
        some (es.map fun e ↦ (some Fit.general, e)) := by
    rw [mapM_eq_some_iff, List.map_map]
    refine List.map_congr_left fun e he ↦ ?_
    rw [h e he]
    rfl
  rw [closestMatch_eq]
  cases receiverTypes r fuel q.receiver with
  | none => rfl
  | some types =>
    change Option.bind ((s.entries.filter (serves q)).mapM _) _ = _
    rw [hfits types _ fun e he ↦ hs e (List.mem_filter.1 he).1, Option.bind_some, closest_general,
      List.head?_filter]
    cases s.entries.find? (serves q) <;> rfl

theorem add_eq_ok_iff {k : SymbolKey} {a : α} : s.add k a = .ok t ↔
    s.isFrozen = false ∧ s.contains k = false ∧
      t = { s with entries := s.entries ++ [(k, a)] } := by
  unfold add
  cases s.isFrozen <;> cases s.contains k <;> simp [eq_comm]

theorem addAll_cons_eq_ok_iff {k : SymbolKey} {a : α} {es : List (SymbolKey × α)} {u : Scope α} :
    s.addAll ((k, a) :: es) = .ok u ↔ ∃ t, s.add k a = .ok t ∧ t.addAll es = .ok u := by
  rw [addAll]
  cases s.add k a with
  | error e => simp [bind, Except.bind]
  | ok t => simp [bind, Except.bind]

theorem exists_addAll_iff {es : List (SymbolKey × α)} (hs : s.isFrozen = false) :
    (∃ t, s.addAll es = .ok t) ↔ (∀ e ∈ es, s.contains e.1 = false) ∧
      es.Pairwise fun e e' ↦ e.1.agrees e'.1 = false := by
  induction es generalizing s with
  | nil => exact ⟨fun _ ↦ ⟨by simp, .nil⟩, fun _ ↦ ⟨s, rfl⟩⟩
  | cons e es ih =>
    obtain ⟨k, a⟩ := e
    let next : Scope α := { s with entries := s.entries ++ [(k, a)] }
    have hnext : next.isFrozen = false := hs
    have hcontains (l : SymbolKey) : next.contains l = (s.contains l || k.agrees l) := by
      simp [next, contains]
    simp only [addAll_cons_eq_ok_iff, add_eq_ok_iff, List.forall_mem_cons, List.pairwise_cons]
    constructor
    · rintro ⟨t, u, ⟨-, hk, rfl⟩, hu⟩
      obtain ⟨hnew, hes⟩ := (ih hnext).1 ⟨_, hu⟩
      simp only [hcontains, Bool.or_eq_false_iff] at hnew
      exact ⟨⟨hk, fun e he ↦ (hnew e he).1⟩, fun e he ↦ (hnew e he).2, hes⟩
    · rintro ⟨⟨hk, hnew⟩, hdistinct, hes⟩
      have hfresh : ∀ e ∈ es, next.contains e.1 = false := by
        intro e he
        rw [hcontains, hnew e he, hdistinct e he]
        rfl
      obtain ⟨t, ht⟩ := (ih hnext).2 ⟨hfresh, hes⟩
      exact ⟨t, next, ⟨hs, hk, rfl⟩, ht⟩

theorem entries_of_addAll {es : List (SymbolKey × α)} (h : s.addAll es = .ok t) :
    t.entries = s.entries ++ es := by
  induction es generalizing s with
  | nil =>
    cases h
    simp
  | cons e es ih =>
    obtain ⟨u, hu, h⟩ := addAll_cons_eq_ok_iff.1 h
    obtain ⟨-, -, rfl⟩ := add_eq_ok_iff.1 hu
    rw [ih h]
    simp

end Scope

namespace ScopeChain

theorem closestMatch_enter :
    (c.enter s).closestMatch r fuel q = (do
      match ← s.closestMatch r fuel q with
      | some e => return some e
      | none => c.closestMatch r fuel q) := rfl

theorem find?_enter (k : SymbolKey) : (c.enter s).find? k = (s.find? k).or (c.find? k) := by
  unfold find? toList enter
  rw [List.findSome?_cons]
  cases s.find? k <;> rfl

theorem mem_of_firstMatch {ss : List (Scope α)} (h : firstMatch r fuel q ss = some (some e)) :
    ∃ s ∈ ss, e ∈ s.entries ∧ Scope.serves q e = true := by
  induction ss with
  | nil => cases h
  | cons s ss ih =>
    obtain ⟨found, hfound, h⟩ := Option.bind_eq_some_iff.1 h
    cases found with
    | none =>
      obtain ⟨s', hs', he⟩ := ih h
      exact ⟨s', List.mem_cons_of_mem s hs', he⟩
    | some e' =>
      cases h
      exact ⟨s, List.mem_cons_self, Scope.mem_of_closestMatch hfound⟩

theorem mem_of_closestMatch (h : c.closestMatch r fuel q = some (some e)) :
    ∃ s ∈ c.toList, e ∈ s.entries ∧ Scope.serves q e = true :=
  mem_of_firstMatch h

theorem mem_of_find? {k : SymbolKey} {a : α} (h : c.find? k = some a) :
    ∃ s ∈ c.toList, ∃ l, (l, a) ∈ s.entries ∧ l.agrees k = true := by
  obtain ⟨s, hs, hfind⟩ := List.exists_of_findSome?_eq_some h
  obtain ⟨⟨l, a'⟩, he, rfl⟩ := Option.map_eq_some_iff.1 hfind
  exact ⟨s, hs, l, List.mem_of_find?_eq_some he, by simpa using List.find?_some he⟩

end ScopeChain

end CallResolution
