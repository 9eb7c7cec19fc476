import CallResolution.Proofs.Scope.Specificity

namespace CallResolution

variable {α β : Type} {r : Registry} {fuel : Nat} {q k l : SymbolKey} {e e' : SymbolKey × α}
  {s t : Scope α} {c : ScopeChain α} {entries : List (SymbolKey × α)}

/-- What comes before the chosen entry fits less closely, and what comes after it no more closely. -/
theorem closest_eq_some_iff {es : List (Option Fit × β)} {f : Fit} {b : β} :
    closest es = some (f, b) ↔ ∃ front back, es = front ++ (some f, b) :: back ∧
      (∀ p ∈ front, ∀ g, p.1 = some g → f.lt g = true) ∧
      ∀ p ∈ back, ∀ g, p.1 = some g → g.lt f = false := by
  constructor
  · intro h
    induction es with
    | nil => cases h
    | cons e es ih =>
      obtain ⟨_ | g, b'⟩ := e
      · obtain ⟨front, back, rfl, hfront, hback⟩ := ih h
        exact ⟨(none, b') :: front, back, rfl, by simpa using hfront, hback⟩
      · rw [closest] at h
        cases hes : closest es with
        | none =>
          rw [hes] at h
          cases h
          refine ⟨[], es, rfl, by simp, fun p hp g' hg' ↦ ?_⟩
          obtain ⟨o, x⟩ := p
          obtain rfl : o = some g' := hg'
          have hsome := closest_isSome hp
          rw [hes] at hsome
          cases hsome
        | some p =>
          obtain ⟨g', b''⟩ := p
          rw [hes] at h
          dsimp only at h
          split at h
          · rename_i hlt
            cases h
            obtain ⟨front, back, rfl, hfront, hback⟩ := ih hes
            exact ⟨(some g, b') :: front, back, rfl, by simpa using ⟨hlt, by simpa using hfront⟩, hback⟩
          · rename_i hlt
            cases h
            refine ⟨[], es, rfl, by simp, fun p hp h hh ↦ ?_⟩
            obtain ⟨o, x⟩ := p
            obtain rfl : o = some h := hh
            exact Fit.not_lt_trans (not_lt_of_closest hes hp) (by simpa using hlt)
  · rintro ⟨front, back, rfl, hfront, hback⟩
    induction front with
    | nil =>
      rw [List.nil_append, closest]
      cases hback' : closest back with
      | none => rfl
      | some p =>
        obtain ⟨g, b'⟩ := p
        have hlt := hback _ (mem_of_closest hback') g rfl
        simp [hlt]
    | cons p front ih =>
      obtain ⟨hp, hrest⟩ := List.forall_mem_cons.1 hfront
      obtain ⟨_ | g, b'⟩ := p
      · exact ih hrest
      · rw [List.cons_append, closest, ih hrest]
        simp [hp g rfl]

/-- The chosen entry is still chosen when others are left out. -/
theorem closest_filter {es : List (Option Fit × β)} {f : Fit} {b : β} (h : closest es = some (f, b))
    {p : β → Bool} (hb : p b = true) : closest (es.filter fun x ↦ p x.2) = some (f, b) := by
  obtain ⟨front, back, rfl, hfront, hback⟩ := closest_eq_some_iff.1 h
  refine closest_eq_some_iff.2 ⟨front.filter fun x ↦ p x.2, back.filter fun x ↦ p x.2, ?_, ?_, ?_⟩
  · simp only [List.filter_append, List.filter_cons, hb, if_true]
  · exact fun x hx ↦ hfront x (List.mem_filter.1 hx).1
  · exact fun x hx ↦ hback x (List.mem_filter.1 hx).1

theorem closest_filter_of_none {es : List (Option Fit × β)} (h : closest es = none) (p : β → Bool) :
    closest (es.filter fun x ↦ p x.2) = none := by
  cases hc : closest (es.filter fun x ↦ p x.2) with
  | none => rfl
  | some found =>
    have hsome := closest_isSome (List.mem_filter.1 (mem_of_closest hc)).1
    rw [h] at hsome
    cases hsome

namespace SymbolKey

theorem eq_of_agrees (h : k.agrees l = true) : k.name = l.name ∧ k.receiver = l.receiver := by
  have hname : k.canonical.name = l.canonical.name := by rw [agrees_iff.1 h]
  have hreceiver : k.canonical.receiver = l.canonical.receiver := by rw [agrees_iff.1 h]
  exact ⟨hname, hreceiver⟩

theorem covers_of_agrees (h : k.agrees l = true) (use : CallKind) :
    k.kind.covers use = l.kind.covers use := by
  have h : k.kind.target = l.kind.target := congrArg SymbolKey.kind (agrees_iff.1 h)
  change k.kind.target.covers use = l.kind.target.covers use
  rw [h]

theorem agrees_trans {m : SymbolKey} (h : k.agrees l = true) (h' : l.agrees m = true) :
    k.agrees m = true := agrees_iff.2 ((agrees_iff.1 h).trans (agrees_iff.1 h'))

theorem agrees_congr (h : k.agrees l = true) (m : SymbolKey) : m.agrees k = m.agrees l := by
  unfold agrees
  rw [agrees_iff.1 h]

end SymbolKey

namespace Scope

theorem find?_congr (h : k.agrees l = true) : s.find? k = s.find? l := by
  unfold find?
  simp only [SymbolKey.agrees_congr h]

theorem serves_congr (h : e.1.agrees e'.1 = true) : serves q e = serves q e' := by
  unfold serves
  rw [(SymbolKey.eq_of_agrees h).1, SymbolKey.covers_of_agrees h]

/-- How closely the entry fits the query, if at all. -/
def fitOf (r : Registry) (fuel : Nat) (types : List TypeId) (q : SymbolKey) (e : SymbolKey × α) :
    Option Fit := (r.receiverFit fuel types e.1.receiver q.receiver).join

theorem fitOf_congr (h : e.1.agrees e'.1 = true) (types : List TypeId) :
    fitOf r fuel types q e = fitOf r fuel types q e' := by
  unfold fitOf
  rw [(SymbolKey.eq_of_agrees h).2]

/-- A scope has an answer as soon as the types of the receiver and all fits are known. -/
theorem closestMatch_eq_some_iff {found : Option (SymbolKey × α)} :
    s.closestMatch r fuel q = some found ↔ ∃ types, receiverTypes r fuel q.receiver = some types ∧
      (∀ e ∈ s.entries.filter (serves q),
        (r.receiverFit fuel types e.1.receiver q.receiver).isSome = true) ∧
      (closest ((s.entries.filter (serves q)).map fun e ↦ (fitOf r fuel types q e, e))).map Prod.snd =
        found := by
  have hfits (types : List TypeId) (es : List (SymbolKey × α))
      (h : ∀ e ∈ es, (r.receiverFit fuel types e.1.receiver q.receiver).isSome = true) :
      es.mapM (fun e ↦ do return (← r.receiverFit fuel types e.1.receiver q.receiver, e)) =
        some (es.map fun e ↦ (fitOf r fuel types q e, e)) := by
    rw [mapM_eq_some_iff, List.map_map]
    refine List.map_congr_left fun e he ↦ ?_
    obtain ⟨fit, hfit⟩ := Option.isSome_iff_exists.1 (h e he)
    simp [fitOf, hfit]
  rw [closestMatch_eq]
  constructor
  · intro h
    obtain ⟨types, htypes, h⟩ := Option.bind_eq_some_iff.1 h
    obtain ⟨fits, hrun, h⟩ := Option.bind_eq_some_iff.1 h
    have hall : ∀ e ∈ s.entries.filter (serves q),
        (r.receiverFit fuel types e.1.receiver q.receiver).isSome = true := by
      intro e he
      obtain ⟨y, -, hy⟩ := exists_mem_of_mapM_eq_some hrun he
      obtain ⟨fit, hfit, -⟩ := Option.bind_eq_some_iff.1 hy
      exact Option.isSome_iff_exists.2 ⟨fit, hfit⟩
    obtain rfl := Option.some.inj ((hfits types _ hall).symm.trans hrun)
    exact ⟨types, htypes, hall, Option.some.inj h⟩
  · rintro ⟨types, htypes, hall, rfl⟩
    exact Option.bind_eq_some_iff.2 ⟨types, htypes,
      Option.bind_eq_some_iff.2 ⟨_, hfits types _ hall, rfl⟩⟩

/-- The entry is one that the query accepts. -/
def Accepted (r : Registry) (fuel : Nat) (q : SymbolKey) (e : SymbolKey × α) : Prop :=
  serves q e = true ∧ ∃ types, receiverTypes r fuel q.receiver = some types ∧
    (fitOf r fuel types q e).isSome = true

theorem Accepted.congr (h : Accepted r fuel q e) (hagrees : e.1.agrees e'.1 = true) :
    Accepted r fuel q e' := by
  obtain ⟨hserves, types, htypes, hfit⟩ := h
  exact ⟨serves_congr hagrees ▸ hserves, types, htypes, fitOf_congr hagrees types ▸ hfit⟩

theorem not_accepted_of_closestMatch (h : s.closestMatch r fuel q = some none) (he : e ∈ s.entries) :
    ¬Accepted r fuel q e := by
  rintro ⟨hserves, types, htypes, hfit⟩
  obtain ⟨types', htypes', -, hnone⟩ := closestMatch_eq_some_iff.1 h
  obtain rfl := Option.some.inj (htypes.symm.trans htypes')
  obtain ⟨fit, hfit⟩ := Option.isSome_iff_exists.1 hfit
  have hmem : (some fit, e) ∈
      (s.entries.filter (serves q)).map fun e ↦ (fitOf r fuel types q e, e) :=
    List.mem_map.2 ⟨e, List.mem_filter.2 ⟨he, hserves⟩, by rw [hfit]⟩
  have hsome := closest_isSome hmem
  rw [Option.map_eq_none_iff.1 hnone] at hsome
  cases hsome

/-- The entry that answers a query is accepted, and its own key finds it. -/
theorem find?_of_closestMatch (h : s.closestMatch r fuel q = some (some e)) :
    s.find? e.1 = some e.2 ∧ Accepted r fuel q e := by
  obtain ⟨types, htypes, -, hsome⟩ := closestMatch_eq_some_iff.1 h
  obtain ⟨⟨fit, e'⟩, hclosest, rfl⟩ := Option.map_eq_some_iff.1 hsome
  obtain ⟨front, back, hsplit, hfront, -⟩ := closest_eq_some_iff.1 hclosest
  obtain ⟨before, rest, hentries, rfl, hrest⟩ := List.map_eq_append_iff.1 hsplit
  obtain ⟨e, after, rfl, he, -⟩ := List.map_eq_cons_iff.1 hrest
  obtain ⟨hfit, rfl⟩ := Prod.mk.inj he
  dsimp only
  have hmem : e ∈ s.entries.filter (serves q) := by
    rw [hentries]
    simp
  refine ⟨?_, (List.mem_filter.1 hmem).2, types, htypes, by rw [hfit]; rfl⟩
  -- an entry with the same key serves and fits alike, so there is none before the chosen one
  have hbefore : ∀ x ∈ before, x.1.agrees e.1 = false := by
    intro x hx
    by_contra hagrees
    have hagrees : x.1.agrees e.1 = true := by simpa using hagrees
    have hlt := hfront _ (List.mem_map.2 ⟨x, hx, rfl⟩) fit ((fitOf_congr hagrees types).trans hfit)
    rw [Fit.lt_irrefl] at hlt
    cases hlt
  have hfind : (s.entries.filter (serves q)).find? (fun x ↦ x.1.agrees e.1) =
      s.entries.find? fun x ↦ x.1.agrees e.1 := by
    rw [List.find?_filter]
    congr
    funext x
    cases hagrees : x.1.agrees e.1 with
    | false => simp
    | true => simp [serves_congr hagrees, (List.mem_filter.1 hmem).2]
  have hnone : before.find? (fun x ↦ x.1.agrees e.1) = none := by
    rw [List.find?_eq_none]
    intro x hx
    simp [hbefore x hx]
  rw [find?, ← hfind, hentries, List.find?_append, hnone, Option.none_or]
  simp [SymbolKey.agrees_refl]

/-- Leaving out entries leaves an answer that is not among them as it is. -/
theorem closestMatch_of_filter {p : SymbolKey × α → Bool} (ht : t.entries = s.entries.filter p)
    {found : Option (SymbolKey × α)} (h : s.closestMatch r fuel q = some found) :
    ∃ rest, t.closestMatch r fuel q = some rest ∧
      ((∀ e, found = some e → p e = true) → rest = found) := by
  obtain ⟨types, htypes, hall, rfl⟩ := closestMatch_eq_some_iff.1 h
  have hentries : t.entries.filter (serves q) = (s.entries.filter (serves q)).filter p := by
    rw [ht, List.filter_filter, List.filter_filter]
    simp only [Bool.and_comm]
  have hfits : (t.entries.filter (serves q)).map (fun e ↦ (fitOf r fuel types q e, e)) =
      ((s.entries.filter (serves q)).map fun e ↦ (fitOf r fuel types q e, e)).filter
        fun x ↦ p x.2 := by
    rw [hentries, List.filter_map]
    rfl
  refine ⟨_, closestMatch_eq_some_iff.2 ⟨types, htypes, fun e he ↦ ?_, rfl⟩, fun hkept ↦ ?_⟩
  · rw [hentries] at he
    exact hall e (List.mem_filter.1 he).1
  · rw [hfits]
    cases hclosest : closest ((s.entries.filter (serves q)).map fun e ↦ (fitOf r fuel types q e, e)) with
    | none => rw [closest_filter_of_none hclosest]
    | some x =>
      obtain ⟨f, e⟩ := x
      rw [hclosest] at hkept
      rw [closest_filter hclosest (hkept e rfl)]

end Scope

namespace ScopeChain

theorem find?_congr (h : k.agrees l = true) : c.find? k = c.find? l := by
  unfold find?
  simp only [Scope.find?_congr h]

/-- The entry that answers a query is the one that its own key finds. -/
theorem find?_of_closestMatch (h : c.closestMatch r fuel q = some (some e)) :
    c.find? e.1 = some e.2 := by
  have hfirst {ss : List (Scope α)} (h : firstMatch r fuel q ss = some (some e)) :
      ss.findSome? (·.find? e.1) = some e.2 ∧ Scope.Accepted r fuel q e := by
    induction ss with
    | nil => cases h
    | cons s ss ih =>
      obtain ⟨found, hfound, h⟩ := Option.bind_eq_some_iff.1 h
      cases found with
      | some e' =>
        cases h
        obtain ⟨hfind, haccepted⟩ := Scope.find?_of_closestMatch hfound
        exact ⟨by rw [List.findSome?_cons, hfind], haccepted⟩
      | none =>
        obtain ⟨hfind, haccepted⟩ := ih h
        have hnone : s.find? e.1 = none := by
          rw [Scope.find?, Option.map_eq_none_iff, List.find?_eq_none]
          intro x hx hagrees
          exact Scope.not_accepted_of_closestMatch hfound hx
            (haccepted.congr (by rwa [SymbolKey.agrees_comm]))
        exact ⟨by rw [List.findSome?_cons, hnone, hfind], haccepted⟩
  exact (hfirst h).1

variable [BEq α]

/-- The chain says already what the entry says. -/
def inherits (c : ScopeChain α) (e : SymbolKey × α) : Bool := c.find? e.1 == some e.2

theorem exists_childScope (c : ScopeChain α)
    (hdistinct : entries.Pairwise fun e e' ↦ e.1.agrees e'.1 = false) :
    ∃ kept, c.childScope entries = .ok kept ∧
      kept.entries = entries.filter fun e ↦ !c.inherits e := by
  obtain ⟨kept, hkept⟩ := (Scope.exists_addAll_iff (s := ({} : Scope α)) rfl).2
    ⟨fun _ _ ↦ rfl, hdistinct.filter fun e ↦ !c.inherits e⟩
  exact ⟨kept, hkept, Scope.entries_of_addAll hkept⟩

/-- The two values are the same definition. -/
def Same (a b : α) : Prop := a = b ∨ (a == b) = true

theorem find?_childScope (hdistinct : entries.Pairwise fun e e' ↦ e.1.agrees e'.1 = false)
    {kept full : Scope α} (hkept : kept.entries = entries.filter fun e ↦ !c.inherits e)
    (hfull : full.entries = entries) (k : SymbolKey) :
    Option.Rel Same ((c.enter kept).find? k) ((c.enter full).find? k) := by
  have hrefl (o : Option α) : Option.Rel Same o o := by
    cases o with
    | none => exact .none
    | some a => exact .some (.inl rfl)
  have hkept' : kept.find? k =
      (entries.find? fun e ↦ !c.inherits e && e.1.agrees k).map Prod.snd := by
    rw [Scope.find?, hkept, List.find?_filter]
    simp only [Bool.decide_and, Bool.decide_eq_true]
  rw [find?_enter, find?_enter, hkept', Scope.find?, hfull]
  cases hfound : entries.find? (fun e ↦ e.1.agrees k) with
  | none =>
    have hnone : entries.find? (fun e ↦ !c.inherits e && e.1.agrees k) = none := by
      rw [List.find?_eq_none] at hfound ⊢
      intro e he
      simp [hfound e he]
    rw [hnone]
    exact hrefl _
  | some e =>
    obtain ⟨hagrees, front, back, hsplit, hfront⟩ := List.find?_eq_some_iff_append.1 hfound
    have hfront' : front.find? (fun e ↦ !c.inherits e && e.1.agrees k) = none := by
      rw [List.find?_eq_none]
      intro x hx
      have hx := hfront x hx
      simp_all
    rw [hsplit, List.find?_append, hfront', Option.none_or, List.find?_cons]
    cases hinherits : c.inherits e with
    | false =>
      simp only [hagrees, Bool.not_false, Bool.and_self]
      exact hrefl _
    | true =>
      have hback : back.find? (fun e ↦ !c.inherits e && e.1.agrees k) = none := by
        rw [List.find?_eq_none]
        intro x hx hx'
        have hdisagree : e.1.agrees x.1 = false := by
          rw [hsplit, List.pairwise_append] at hdistinct
          exact (List.pairwise_cons.1 hdistinct.2.1).1 x hx
        have hx' := (Bool.and_eq_true_iff.1 hx').2
        rw [SymbolKey.agrees_comm] at hx'
        rw [SymbolKey.agrees_trans hagrees hx'] at hdisagree
        cases hdisagree
      simp only [Bool.not_true, Bool.false_and, hback, Option.map_none, Option.none_or,
        Option.map_some, Option.some_or]
      rw [inherits, find?_congr hagrees] at hinherits
      cases hparent : c.find? k with
      | none =>
        rw [hparent] at hinherits
        cases hinherits
      | some a =>
        rw [hparent] at hinherits
        exact .some (.inr hinherits)

/-- A scope that leaves out what the chain says already answers the same under every key. It answers a
query the same too, unless the closest of all entries is left out: then the closest of those kept
answers, or else the chain. That is the same definition if it has the key of the entry left out. -/
theorem childScope_answers (c : ScopeChain α) (entries : List (SymbolKey × α))
    (hdistinct : entries.Pairwise fun e e' ↦ e.1.agrees e'.1 = false) :
    ∃ kept full, c.childScope entries = .ok kept ∧ ({} : Scope α).addAll entries = .ok full ∧
      (∀ k, Option.Rel Same ((c.enter kept).find? k) ((c.enter full).find? k)) ∧
      ∀ r fuel q found, full.closestMatch r fuel q = some found →
        ((∀ e, found = some e → c.inherits e = false) →
          (c.enter kept).closestMatch r fuel q = (c.enter full).closestMatch r fuel q) ∧
        ∀ e, found = some e →
          (c.enter full).closestMatch r fuel q = some (some e) ∧
          (∃ rest, kept.closestMatch r fuel q = some rest ∧
            (c.enter kept).closestMatch r fuel q =
              if rest.isSome then some rest else c.closestMatch r fuel q) ∧
          ∀ e', (c.enter kept).closestMatch r fuel q = some (some e') → e'.1.agrees e.1 = true →
            Same e'.2 e.2 := by
  obtain ⟨kept, hkept, hkeptEntries⟩ := c.exists_childScope hdistinct
  obtain ⟨full, hfull⟩ := (Scope.exists_addAll_iff (s := ({} : Scope α)) rfl).2
    ⟨fun _ _ ↦ rfl, hdistinct⟩
  have hfullEntries : full.entries = entries := Scope.entries_of_addAll hfull
  have hfind := find?_childScope hdistinct hkeptEntries hfullEntries
  refine ⟨kept, full, hkept, hfull, hfind, ?_⟩
  intro r fuel q found hfound
  obtain ⟨rest, hrest, hsame⟩ :=
    Scope.closestMatch_of_filter (t := kept) (by rw [hfullEntries, hkeptEntries]) hfound
  constructor
  · intro hkeeps
    rw [closestMatch_enter, closestMatch_enter, hrest, hfound, hsame fun e he ↦ by simp [hkeeps e he]]
  · intro e he
    subst he
    have hall : (c.enter full).closestMatch r fuel q = some (some e) := by
      rw [closestMatch_enter, hfound]
      rfl
    refine ⟨hall, ⟨rest, hrest, ?_⟩, fun e' he' hagrees ↦ ?_⟩
    · rw [closestMatch_enter, hrest]
      cases rest <;> rfl
    · have hsame := hfind e.1
      rw [← find?_congr hagrees, find?_of_closestMatch he', find?_of_closestMatch hall] at hsame
      cases hsame with
      | some hsame => exact hsame

end ScopeChain

/-- `draw` for any receiver, and for a `Widget`. -/
def drawRoot : ScopeChain TypeId :=
  ⟨{ entries := [(.global .ofMethod "draw", .object), (Scope.drawOn Scope.widget, Scope.widget)] }, []⟩

/-- A scope that repeats the general `draw` hides the one for a `Widget` only if the entry is kept. -/
theorem childScope_answers_draw :
    ∃ kept full, drawRoot.childScope [(.global .ofMethod "draw", .object)] = .ok kept ∧
      ({} : Scope TypeId).addAll [(.global .ofMethod "draw", .object)] = .ok full ∧
      (drawRoot.enter full).closestMatch Scope.widgetTypes 5 (Scope.drawOn Scope.widget) =
        some (some (.global .ofMethod "draw", .object)) ∧
      (drawRoot.enter kept).closestMatch Scope.widgetTypes 5 (Scope.drawOn Scope.widget) =
        some (some (Scope.drawOn Scope.widget, Scope.widget)) := by
  obtain ⟨kept, full, hkept, hfull, -, hquery⟩ := drawRoot.childScope_answers
    [(.global .ofMethod "draw", .object)] (List.pairwise_singleton _ _)
  have hclosest : full.closestMatch Scope.widgetTypes 5 (Scope.drawOn Scope.widget) =
      some (some (.global .ofMethod "draw", .object)) := by
    cases hfull
    decide +kernel
  obtain ⟨hall, ⟨rest, hrest, hanswer⟩, -⟩ :=
    (hquery Scope.widgetTypes 5 (Scope.drawOn Scope.widget) _ hclosest).2 _ rfl
  refine ⟨kept, full, hkept, hfull, hall, ?_⟩
  have hnone : kept.closestMatch Scope.widgetTypes 5 (Scope.drawOn Scope.widget) = some none := by
    cases hkept
    decide +kernel
  obtain rfl := Option.some.inj (hnone.symm.trans hrest)
  rw [hanswer]
  decide +kernel

end CallResolution
