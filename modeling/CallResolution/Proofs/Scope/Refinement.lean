import CallResolution.Proofs.Scope.TableForest

namespace CallResolution

open Attempt

variable {α : Type} {n : Nat} {k l : SymbolKey} {a : α} {request : Request α} {reply : Reply}
  {requests : List (Request α)} {answers : List (Except SymbolError Reply)}

/-- The scope whose entries a request may change. -/
def Request.target? : Request α → Option Nat
  | .add n _ _ | .remove n _ | .clear n | .freeze n => some n
  | _ => none

/-- What can be seen of a scope within those around it. -/
structure ScopeView (α : Type) where
  keys : List SymbolKey
  size : Nat
  depth : Nat
  isFrozen : Bool
  parent : Option Nat
  find? : SymbolKey → Option α
  resolve : SymbolKey → Except SymbolError α
  contains : SymbolKey → Bool

namespace Scope

variable {s s' : Scope α}

theorem remove_eq_true (h : s.remove k = .ok (true, s')) :
    s.isFrozen = false ∧ s' = { s with entries := s.entries.filter (!·.1.agrees k) } := by
  unfold remove at h
  cases hfrozen : s.isFrozen <;> cases hk : s.contains k <;> simp_all

end Scope

namespace ScopeForest

variable {g g' : ScopeForest α} {s : Scope α}

def view? (g : ScopeForest α) (n : Nat) : Option (ScopeView α) :=
  (g.chain? n).map fun c ↦
    { keys := c.inner.keys
      size := c.inner.size
      depth := c.depth
      isFrozen := c.inner.isFrozen
      parent := g.parent? n
      find? := c.find?
      resolve := c.resolve
      contains := c.contains }

theorem onScope_eq_done {act : Scope α → Except SymbolError (Reply × Scope α)}
    (h : onScope n act g = .done reply g') : ∃ s outer s', g.scopes[n]? = some (s, outer) ∧
      act s = .ok (reply, s') ∧ g' = ⟨g.scopes.set n (s', outer)⟩ := by
  obtain ⟨⟨s, outer⟩, g₁, hask, h⟩ := bind_eq_done_iff.1 h
  obtain ⟨hs, rfl⟩ := ask_eq_done_iff.1 hask
  obtain ⟨⟨r, s'⟩, g₂, hx, h⟩ := bind_eq_done_iff.1 h
  obtain ⟨hact, rfl⟩ := ofExcept_eq_done_iff.1 hx
  cases h
  exact ⟨s, outer, s', hs, hact, rfl⟩

variable [BEq α]

/-- The answers to a list of requests, if all scopes that they name exist. -/
def run : List (Request α) → ScopeForest α → Option (List (Except SymbolError Reply) × ScopeForest α)
  | [], g => some ([], g)
  | request :: requests, g =>
    match perform request g with
    | .done reply g => (run requests g).map (Prod.map (.ok reply :: ·) id)
    | .failed e g => (run requests g).map (Prod.map (.error e :: ·) id)
    | .exhausted => none

/-- A request creates a scope, replaces one that is not frozen, or changes nothing. -/
theorem perform_cases (h : perform request g = .done reply g') :
    (∃ s outer, g' = ⟨g.scopes ++ [(s, outer)]⟩) ∨
    (∃ n s outer s', request.target? = some n ∧ g.scopes[n]? = some (s, outer) ∧
      (s.isFrozen = true → s' = s) ∧ g' = ⟨g.scopes.set n (s', outer)⟩) ∨
    g' = g := by
  cases request with
  | root =>
    cases h
    exact .inl ⟨{}, [], rfl⟩
  | child n =>
    obtain ⟨outer, g₁, hask, h⟩ := bind_eq_done_iff.1 h
    obtain ⟨-, rfl⟩ := ask_eq_done_iff.1 hask
    cases h
    exact .inl ⟨{}, n :: outer, rfl⟩
  | childWith n entries =>
    obtain ⟨outer, g₁, hask, h⟩ := bind_eq_done_iff.1 h
    obtain ⟨-, rfl⟩ := ask_eq_done_iff.1 hask
    obtain ⟨c, g₂, hask, h⟩ := bind_eq_done_iff.1 h
    obtain ⟨-, rfl⟩ := ask_eq_done_iff.1 hask
    obtain ⟨s, g₃, hx, h⟩ := bind_eq_done_iff.1 h
    obtain ⟨-, rfl⟩ := ofExcept_eq_done_iff.1 hx
    cases h
    exact .inl ⟨s, n :: outer, rfl⟩
  | add n k a =>
    rw [perform] at h
    obtain ⟨s, outer, s', hs, hact, rfl⟩ := onScope_eq_done h
    refine .inr (.inl ⟨n, s, outer, s', rfl, hs, fun hfrozen ↦ ?_, rfl⟩)
    have hadd : s.add k a = .error .readOnly := if_pos hfrozen
    rw [hadd] at hact
    cases hact
  | remove n k =>
    rw [perform] at h
    obtain ⟨s, outer, s', hs, hact, rfl⟩ := onScope_eq_done h
    refine .inr (.inl ⟨n, s, outer, s', rfl, hs, fun hfrozen ↦ ?_, rfl⟩)
    have hremove : s.remove k = .error .readOnly := if_pos hfrozen
    rw [hremove] at hact
    cases hact
  | clear n =>
    rw [perform] at h
    obtain ⟨s, outer, s', hs, hact, rfl⟩ := onScope_eq_done h
    refine .inr (.inl ⟨n, s, outer, s', rfl, hs, fun hfrozen ↦ ?_, rfl⟩)
    have hclear : s.clear = .error .readOnly := if_pos hfrozen
    rw [hclear] at hact
    cases hact
  | freeze n =>
    rw [perform] at h
    obtain ⟨s, outer, s', hs, hact, rfl⟩ := onScope_eq_done h
    refine .inr (.inl ⟨n, s, outer, s', rfl, hs, fun hfrozen ↦ ?_, rfl⟩)
    cases hact
    simp [Scope.freeze, ← hfrozen]
  | digest n =>
    obtain ⟨c, g₁, hask, h⟩ := bind_eq_done_iff.1 h
    obtain ⟨-, rfl⟩ := ask_eq_done_iff.1 hask
    cases h
    exact .inr (.inr rfl)

/-- A request leaves alone the scopes that it does not name, and every frozen one. -/
theorem scope?_of_perform (h : perform request g = .done reply g') (hs : g.scope? n = some s)
    (hkept : request.target? ≠ some n ∨ s.isFrozen = true) : g'.scope? n = some s := by
  obtain ⟨⟨s₀, outer₀⟩, hn, rfl⟩ := Option.map_eq_some_iff.1 hs
  rcases perform_cases h with ⟨s', outer, rfl⟩ | ⟨m, s', outer, s'', htarget, hm, hfrozen, rfl⟩ | rfl
  · rw [scope?, List.getElem?_append_left (List.getElem?_eq_some_iff.1 hn).1, hn]
    rfl
  · by_cases hmn : m = n
    · subst hmn
      rw [hn] at hm
      cases hm
      have hsame := hfrozen (hkept.resolve_left fun hne ↦ hne htarget)
      simp [scope?, List.getElem?_set_self (List.getElem?_eq_some_iff.1 hn).1, hsame]
    · simp [scope?, List.getElem?_set_ne hmn, hn]
  · exact hs

end ScopeForest

namespace TableForest

variable {f f' f'' : TableForest α} {node : TableNode α} {s : Scope α}

def view? (f : TableForest α) (n : Nat) : Option (ScopeView α) :=
  (f.node? n).map fun node ↦
    { keys := node.table.keys
      size := node.table.size
      depth := node.depth
      isFrozen := node.table.isFrozen
      parent := node.parent
      find? := f.find? n
      resolve := f.resolve n
      contains := f.contains n }

theorem head?_outer (hnode : node ∈ f.nodes) : (f.outer node).head? = node.parent := by
  rw [outer]
  cases hp : node.parent with
  | none => rfl
  | some p =>
    have hlt : p < f.nodes.length := parent_lt_length hnode p hp
    simp [path_of_some (List.getElem?_eq_getElem hlt)]

theorem length_filterMap_outer (hnode : node ∈ f.nodes) :
    ((f.outer node).filterMap f.scope?).length = (f.outer node).length := by
  rw [List.filterMap_length_eq_length]
  intro m hm
  rw [outer] at hm
  cases hp : node.parent with
  | none => simp [hp] at hm
  | some p =>
    simp only [hp] at hm
    have hlt : m < f.nodes.length := (le_of_mem_path hm).trans_lt (parent_lt_length hnode p hp)
    rw [scope?_of_some (List.getElem?_eq_getElem hlt)]
    rfl

/-- The tables show what the scopes show. -/
theorem view?_toScopes (hf : f.Sound) (n : Nat) : f.toScopes.view? n = f.view? n := by
  cases hn : f.nodes[n]? with
  | none => simp [ScopeForest.view?, ScopeForest.chain?, getElem?_toScopes, view?, node?, hn]
  | some node =>
    have hmem := List.mem_of_getElem? hn
    have hchain := chain?_of_some hn
    have hfind := funext (find?_chain hf hchain)
    have hresolve := funext (resolve_chain hf hchain)
    have hcontains := funext (contains_chain hchain)
    simp [ScopeForest.view?, view?, node?, hn, hchain, hfind, hresolve, hcontains,
      SymbolTable.keys_toScope, SymbolTable.size_toScope, SymbolTable.isFrozen_toScope,
      ScopeChain.depth, length_filterMap_outer hmem, hf.depths node hmem, ScopeForest.parent?,
      outer?_of_some hn, head?_outer hmem]

theorem contains_eq_isSome_find? (f : TableForest α) (n : Nat) (k : SymbolKey) :
    f.contains n k = (f.find? n k).isSome := by
  rw [Bool.eq_iff_iff, contains, find?, List.any_eq_true, List.findSome?_isSome_iff]
  simp only [SymbolTable.contains_eq_isSome_find?]

/-- The innermost table that has the symbol answers. -/
theorem find?_eq_some_iff {f : TableForest α} : f.find? n k = some a ↔
    ∃ inner t outer, f.chain n = inner ++ t :: outer ∧ (∀ u ∈ inner, u.contains k = false) ∧
      t.find? k = some a := by
  rw [find?, List.findSome?_eq_some_iff]
  simp only [SymbolTable.contains_eq_isSome_find?, Option.isSome_eq_false_iff, Option.isNone_iff_eq_none,
    and_comm]

theorem of_shuffle (hf : f.Sound) {t : SymbolTable α} {ss : List (Slot α)} (hn : f.table? n = some t)
    (h : t.slots.Perm ss) : (f.put n { t with slots := ss }).Sound ∧
      (f.put n { t with slots := ss }).toScopes = f.toScopes := by
  obtain ⟨node, hnode, rfl⟩ := Option.map_eq_some_iff.1 hn
  have ht := hf.tables node (List.mem_of_getElem? hnode)
  exact ⟨sound_put hf (SymbolTable.sound_shuffle ht h),
    toScopes_put_same hnode (SymbolTable.toScope_shuffle ht h)⟩

variable [BEq α]

/-- Requests to tables, with their answers. At any time the slots of a table may come to be kept in
another order. -/
inductive Run : TableForest α → List (Request α) → List (Except SymbolError Reply) →
    TableForest α → Prop
  | nil (f : TableForest α) : Run f [] [] f
  | done {f f' f'' : TableForest α} {request : Request α} {requests : List (Request α)}
      {reply : Reply} {answers : List (Except SymbolError Reply)}
      (h : perform request f = .done reply f') (hrun : Run f' requests answers f'') :
      Run f (request :: requests) (.ok reply :: answers) f''
  | failed {f f' f'' : TableForest α} {request : Request α} {requests : List (Request α)}
      {e : SymbolError} {answers : List (Except SymbolError Reply)}
      (h : perform request f = .failed e f') (hrun : Run f' requests answers f'') :
      Run f (request :: requests) (.error e :: answers) f''
  | shuffle {f f' : TableForest α} {n : Nat} {t : SymbolTable α} {ss : List (Slot α)}
      {requests : List (Request α)} {answers : List (Except SymbolError Reply)}
      (hn : f.table? n = some t) (h : t.slots.Perm ss)
      (hrun : Run (f.put n { t with slots := ss }) requests answers f') : Run f requests answers f'

theorem of_perform_done (hf : f.Sound) (h : perform request f = .done reply f') :
    f'.Sound ∧ ScopeForest.perform request f.toScopes = .done reply f'.toScopes := by
  have hanswers := answers_perform hf request
  rw [h] at hanswers
  generalize ScopeForest.perform request f.toScopes = o at hanswers
  cases hanswers with
  | done hf' hg =>
    subst hg
    exact ⟨hf', rfl⟩

theorem of_perform_failed (hf : f.Sound) {e : SymbolError} (h : perform request f = .failed e f') :
    f' = f ∧ ScopeForest.perform request f.toScopes = .failed e f.toScopes := by
  have hanswers := answers_perform hf request
  rw [h] at hanswers
  generalize ScopeForest.perform request f.toScopes = o at hanswers
  cases hanswers with
  | failed e => exact ⟨rfl, rfl⟩

theorem Run.follows (h : Run f requests answers f') (hf : f.Sound) :
    f'.Sound ∧ ScopeForest.run requests f.toScopes = some (answers, f'.toScopes) := by
  induction h with
  | nil f => exact ⟨hf, rfl⟩
  | done h _ ih =>
    obtain ⟨hf', hperform⟩ := of_perform_done hf h
    obtain ⟨hf'', hrun⟩ := ih hf'
    exact ⟨hf'', by simp [ScopeForest.run, hperform, hrun]⟩
  | failed h _ ih =>
    obtain ⟨rfl, hperform⟩ := of_perform_failed hf h
    obtain ⟨hf'', hrun⟩ := ih hf
    exact ⟨hf'', by simp [ScopeForest.run, hperform, hrun]⟩
  | shuffle hn h _ ih =>
    obtain ⟨hf', hscopes⟩ := of_shuffle hf hn h
    rw [← hscopes]
    exact ih hf'

theorem Run.toScopes_eq (h : Run empty requests answers f) :
    ScopeForest.run requests {} = some (answers, f.toScopes) :=
  (h.follows sound_empty).2

theorem exists_run (hf : f.Sound) {g : ScopeForest α}
    (h : ScopeForest.run requests f.toScopes = some (answers, g)) : ∃ f', Run f requests answers f' := by
  induction requests generalizing f answers with
  | nil =>
    cases h
    exact ⟨f, .nil f⟩
  | cons request requests ih =>
    have hanswers := answers_perform hf request
    rw [ScopeForest.run] at h
    generalize ScopeForest.perform request f.toScopes = o at h hanswers
    generalize hx : perform request f = o' at hanswers
    cases hanswers with
    | done hf' hg =>
      subst hg
      obtain ⟨⟨rest, g'⟩, hrest, hcons⟩ := Option.map_eq_some_iff.1 h
      cases hcons
      obtain ⟨f'', hrun⟩ := ih hf' hrest
      exact ⟨f'', .done hx hrun⟩
    | failed e =>
      obtain ⟨⟨rest, g'⟩, hrest, hcons⟩ := Option.map_eq_some_iff.1 h
      cases hcons
      obtain ⟨f'', hrun⟩ := ih hf hrest
      exact ⟨f'', .failed hx hrun⟩
    | exhausted => cases h

theorem scope?_of_perform (hf : f.Sound) (h : perform request f = .done reply f')
    (hs : f.scope? n = some s) (hkept : request.target? ≠ some n ∨ s.isFrozen = true) :
    f'.scope? n = some s := by
  rw [← scope?_toScopes] at *
  exact ScopeForest.scope?_of_perform (of_perform_done hf h).2 hs hkept

theorem Run.scope?_of_frozen (h : Run f requests answers f') (hf : f.Sound)
    (hs : f.scope? n = some s) (hfrozen : s.isFrozen = true) : f'.scope? n = some s := by
  induction h with
  | nil f => exact hs
  | done h _ ih => exact ih (of_perform_done hf h).1 (scope?_of_perform hf h hs (.inr hfrozen))
  | failed h _ ih =>
    obtain ⟨rfl, -⟩ := of_perform_failed hf h
    exact ih hf hs
  | shuffle hn h _ ih =>
    obtain ⟨hf', hscopes⟩ := of_shuffle hf hn h
    apply ih hf'
    rwa [← scope?_toScopes, hscopes, scope?_toScopes]

theorem remove_of_perform (hf : f.Sound) (h : perform (.remove n k) f = .done (.removed true) f') :
    ∃ node t, f.nodes[n]? = some node ∧ t.Sound ∧ f' = f.put n t ∧
      node.table.toScope.remove k = .ok (true, t.toScope) := by
  rw [perform] at h
  cases hn : f.nodes[n]? with
  | none => simp [onTable, bind_apply, ask, table?, node?, hn] at h
  | some node =>
    rcases onTable_cases hf hn (SymbolTable.mirrors_remove k Reply.removed) with
      ⟨reply, t, hx, ht, hs⟩ | ⟨e, hx, -⟩
    · rw [hx] at h
      cases h
      refine ⟨node, t, rfl, ht, rfl, ?_⟩
      cases hremove : node.table.toScope.remove k with
      | error e => simp [hremove, bind, Except.bind] at hs
      | ok found => simpa [hremove, bind, Except.bind, pure, Except.pure, Prod.ext_iff] using hs
    · rw [hx] at h
      cases h

theorem perform_add (hf : f.Sound) (hn : f.nodes[n]? = some node)
    (hadd : node.table.toScope.add k a = .ok s) :
    ∃ f', perform (.add n k a) f = .done .changed f' ∧ f'.scope? n = some s := by
  rw [perform]
  rcases onTable_cases hf hn (SymbolTable.mirrors_add k a Reply.changed) with
    ⟨reply, t, hx, ht, hs⟩ | ⟨e, -, hs⟩
  · rw [hadd] at hs
    cases hs
    have hn' : (f.put n t).nodes[n]? = some { node with table := t } := by simp [getElem?_put, hn]
    exact ⟨f.put n t, hx, scope?_of_some hn'⟩
  · rw [hadd] at hs
    cases hs

/-- A symbol that is added again comes last. -/
theorem add_of_remove (hf : f.Sound) (h : perform (.remove n k) f = .done (.removed true) f')
    (hl : l.agrees k = true) (a : α) : ∃ s f'', f.scope? n = some s ∧
      perform (.add n l a) f' = .done .changed f'' ∧
      f''.scope? n = some { s with entries := s.entries.filter (!·.1.agrees k) ++ [(l, a)] } := by
  obtain ⟨node, t, hn, ht, rfl, hremove⟩ := remove_of_perform hf h
  obtain ⟨hopen, hscope⟩ := Scope.remove_eq_true hremove
  have hnew : t.toScope.contains l = false := by
    simp [hscope, Scope.contains, SymbolKey.agrees_congr hl]
  have hadd : t.toScope.add l a = .ok { t.toScope with entries := t.toScope.entries ++ [(l, a)] } :=
    Scope.add_eq_ok_iff.2 ⟨by rw [hscope, hopen], hnew, rfl⟩
  have hn' : (f.put n t).nodes[n]? = some { node with table := t } := by simp [getElem?_put, hn]
  obtain ⟨f'', hperform, hs⟩ := perform_add (sound_put hf ht) hn' hadd
  rw [hscope] at hs
  exact ⟨node.table.toScope, f'', scope?_of_some hn, hperform, hs⟩

/-- Tables answer every list of requests as ordered scopes do and show the same after it, in whatever
order they keep their slots. -/
theorem refines_ordered_scopes (requests : List (Request α))
    (answers : List (Except SymbolError Reply)) :
    ((∃ f, Run empty requests answers f) ↔ ∃ g, ScopeForest.run requests {} = some (answers, g)) ∧
    ∀ f g, Run empty requests answers f → ScopeForest.run requests {} = some (answers, g) →
      (∀ n, f.view? n = g.view? n ∧ f.scope? n = g.scope? n) ∧
      (∀ n s, g.scope? n = some s → s.entries.Pairwise fun e e' ↦ e.1.agrees e'.1 = false) ∧
      (∀ n k a, f.find? n k = some a ↔ ∃ inner t outer, f.chain n = inner ++ t :: outer ∧
        (∀ u ∈ inner, u.contains k = false) ∧ t.find? k = some a) ∧
      (∀ n k, f.contains n k = (f.find? n k).isSome) ∧
      (∀ request e f', perform request f = .failed e f' → f' = f) ∧
      (∀ request reply f', perform request f = .done reply f' →
        ∀ n s, f.scope? n = some s → request.target? ≠ some n → f'.scope? n = some s) ∧
      (∀ n s, f.scope? n = some s → s.isFrozen = true →
        ∀ later answers' f', Run f later answers' f' → f'.scope? n = some s) ∧
      ∀ n k l a f', perform (.remove n k) f = .done (.removed true) f' → l.agrees k = true →
        ∃ s f'', f.scope? n = some s ∧ perform (.add n l a) f' = .done .changed f'' ∧
          f''.scope? n = some { s with entries := s.entries.filter (!·.1.agrees k) ++ [(l, a)] } := by
  refine ⟨⟨?_, ?_⟩, ?_⟩
  · rintro ⟨f, hrun⟩
    exact ⟨f.toScopes, hrun.toScopes_eq⟩
  · rintro ⟨g, hrun⟩
    exact exists_run sound_empty hrun
  · intro f g hrun hg
    have hf := (hrun.follows sound_empty).1
    obtain rfl : f.toScopes = g := congrArg Prod.snd (Option.some.inj (hrun.toScopes_eq.symm.trans hg))
    refine ⟨fun n ↦ ⟨(view?_toScopes hf n).symm, (f.scope?_toScopes n).symm⟩, ?_,
      fun n k a ↦ find?_eq_some_iff, f.contains_eq_isSome_find?, ?_, ?_, ?_, ?_⟩
    · intro n s hs
      rw [scope?_toScopes] at hs
      obtain ⟨t, ht, rfl⟩ := Option.map_eq_some_iff.1 hs
      obtain ⟨node, hnode, rfl⟩ := Option.map_eq_some_iff.1 ht
      exact SymbolTable.distinct_toScope (hf.tables node (List.mem_of_getElem? hnode))
    · exact fun request e f' h ↦ (of_perform_failed hf h).1
    · exact fun request reply f' h n s hs htarget ↦ scope?_of_perform hf h hs (.inl htarget)
    · exact fun n s hs hfrozen later answers' f' hlater ↦ hlater.scope?_of_frozen hf hs hfrozen
    · exact fun n k l a f' h hl ↦ add_of_remove hf h hl a

def getKey : SymbolKey := .global .ofMethod "get"
def setKey : SymbolKey := .global .ofMethod "set"

/-- A symbol goes and comes back before its table is frozen. -/
def returning : List (Request Nat) :=
  [.root, .add 0 getKey 1, .add 0 setKey 2, .child 0, .remove 0 getKey,
    .add 0 getKey 3, .add 0 setKey 4, .freeze 0, .clear 0]

def returningAnswers : List (Except SymbolError Reply) :=
  [.ok (.created 0), .ok .changed, .ok .changed, .ok (.created 1), .ok (.removed true), .ok .changed,
    .error (.duplicateKey setKey), .ok .changed, .error .readOnly]

theorem refines_ordered_scopes_returning : ∃ f g, Run empty returning returningAnswers f ∧
    ScopeForest.run returning {} = some (returningAnswers, g) ∧ (∀ n, f.view? n = g.view? n) ∧
    (f.view? 0).map ScopeView.keys = some [setKey, getKey] ∧
    (f.view? 1).map (·.find? getKey) = some (some 3) ∧
    ∀ later answers f', Run f later answers f' → f'.scope? 0 = f.scope? 0 := by
  have hspec : ∃ g, ScopeForest.run returning {} = some (returningAnswers, g) := ⟨_, rfl⟩
  have hrun : ∃ f, Run empty returning returningAnswers f := by
    apply Exists.intro
    apply Run.done rfl
    apply Run.done rfl
    apply Run.done rfl
    apply Run.shuffle (n := 0) rfl (.swap _ _ _)
    apply Run.done rfl
    apply Run.done rfl
    apply Run.done rfl
    apply Run.failed rfl
    apply Run.done rfl
    apply Run.failed rfl
    apply Run.nil
  obtain ⟨f, hrun⟩ := hrun
  obtain ⟨g, hspec⟩ := hspec
  obtain ⟨hview, -, -, -, -, -, hfrozen, -⟩ :=
    (refines_ordered_scopes returning returningAnswers).2 f g hrun hspec
  cases hspec
  refine ⟨f, _, hrun, rfl, fun n ↦ (hview n).1, ?_, ?_, ?_⟩
  · rw [(hview 0).1]
    rfl
  · rw [(hview 1).1]
    rfl
  · intro later answers f' hlater
    rw [(hview 0).2]
    exact hfrozen 0 _ (hview 0).2 rfl later answers f' hlater

end TableForest

end CallResolution
