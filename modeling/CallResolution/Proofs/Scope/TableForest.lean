import CallResolution.Proofs.Scope.Table

namespace CallResolution

open Attempt

variable {α β : Type} {f g : TableForest α} {n m : Nat} {node : TableNode α} {t : SymbolTable α}

namespace TableForest

/-- The numbers of the tables around a table. -/
def outer (f : TableForest α) (node : TableNode α) : List Nat :=
  match node.parent with
  | none => []
  | some p => f.path p

theorem path_of_none (h : f.nodes[n]? = none) : f.path n = [] := by
  rw [path]
  split
  · rfl
  · simp_all

theorem path_of_some (h : f.nodes[n]? = some node) : f.path n = n :: f.outer node := by
  rw [path]
  split
  · simp_all
  · rename_i node' hnode
    obtain rfl := Option.some.inj (h.symm.trans hnode)
    rw [outer]
    split <;> simp_all

/-- A path depends only on who is around whom. -/
theorem path_congr {g : TableForest β} (n : Nat)
    (h : ∀ m ≤ n, (g.nodes[m]?).map TableNode.parent = (f.nodes[m]?).map TableNode.parent) :
    g.path n = f.path n := by
  induction n using Nat.strongRecOn with
  | ind n ih =>
    have hn := h n le_rfl
    cases hf : f.nodes[n]? with
    | none =>
      rw [hf, Option.map_none, Option.map_eq_none_iff] at hn
      rw [path_of_none hf, path_of_none hn]
    | some node =>
      rw [hf, Option.map_some, Option.map_eq_some_iff] at hn
      obtain ⟨node', hg, hparent⟩ := hn
      rw [path_of_some hf, path_of_some hg, outer, outer, hparent]
      cases hp : node.parent with
      | none => rfl
      | some p =>
        have hlt : p < n := f.parent_lt n node hf p hp
        exact congrArg (n :: ·) (ih p hlt fun m hm ↦ h m (hm.trans hlt.le))

theorem getElem?_put : (f.put n t).nodes[m]? =
    (f.nodes[m]?).map fun node ↦ if n = m then { node with table := t } else node := by
  rw [put, List.getElem?_modify]
  split <;> simp

theorem path_put : (f.put n t).path m = f.path m := by
  apply path_congr
  intro i _
  rw [getElem?_put, Option.map_map]
  congr 1
  funext node
  simp only [Function.comp_apply]
  split <;> rfl

theorem outer_put : (f.put n t).outer node = f.outer node := by
  simp only [outer, path_put]

theorem nodes_push {h} : (f.push node h).nodes = f.nodes ++ [node] := rfl

theorem path_push {h} (hm : m < f.nodes.length) : (f.push node h).path m = f.path m := by
  apply path_congr
  intro i hi
  rw [push, List.getElem?_append_left (by omega)]

theorem outer_push {h} {other : TableNode α} (hother : ∀ p, other.parent = some p → p < f.nodes.length) :
    (f.push node h).outer other = f.outer other := by
  rw [outer, outer]
  split
  · rfl
  · exact path_push (hother _ ‹_›)

/-- The ordered scopes that the tables stand for. -/
def toScopes (f : TableForest α) : ScopeForest α :=
  ⟨f.nodes.map fun node ↦ (node.table.toScope, f.outer node)⟩

structure Sound (f : TableForest α) : Prop where
  tables : ∀ node ∈ f.nodes, node.table.Sound
  depths : ∀ node ∈ f.nodes, node.depth = (f.outer node).length

theorem sound_empty : (empty : TableForest α).Sound := ⟨by simp [empty], by simp [empty]⟩

theorem getElem?_toScopes (f : TableForest α) (n : Nat) :
    f.toScopes.scopes[n]? = (f.nodes[n]?).map fun node ↦ (node.table.toScope, f.outer node) :=
  List.getElem?_map

theorem getElem?_toScopes_of_some (hn : f.nodes[n]? = some node) :
    f.toScopes.scopes[n]? = some (node.table.toScope, f.outer node) := by
  rw [getElem?_toScopes, hn]
  rfl

theorem toScopes_put (h : f.nodes[n]? = some node) :
    (f.put n t).toScopes = ⟨f.toScopes.scopes.set n (t.toScope, f.outer node)⟩ := by
  suffices hscopes : (f.put n t).toScopes.scopes = f.toScopes.scopes.set n (t.toScope, f.outer node) from
    congrArg ScopeForest.mk hscopes
  apply List.ext_getElem?
  intro m
  have hn : n < f.toScopes.scopes.length := by
    simpa [toScopes] using (List.getElem?_eq_some_iff.1 h).1
  rw [getElem?_toScopes, getElem?_put, List.getElem?_set, Option.map_map]
  split
  · subst m
    rw [h]
    simp [outer, path_put]
  · rw [getElem?_toScopes]
    simp [outer_put, Function.comp_def, *]

theorem mem_put {other : TableNode α} (h : other ∈ (f.put n t).nodes) :
    ∃ old ∈ f.nodes, other = old ∨ other = { old with table := t } := by
  obtain ⟨m, hm⟩ := List.mem_iff_getElem?.1 h
  rw [getElem?_put, Option.map_eq_some_iff] at hm
  obtain ⟨old, hold, rfl⟩ := hm
  refine ⟨old, List.mem_of_getElem? hold, ?_⟩
  split <;> simp

theorem sound_put (hf : f.Sound) (ht : t.Sound) : (f.put n t).Sound where
  tables other hother := by
    obtain ⟨old, hold, rfl | rfl⟩ := mem_put hother
    · exact hf.tables _ hold
    · exact ht
  depths other hother := by
    obtain ⟨old, hold, rfl | rfl⟩ := mem_put hother
    · rw [outer_put, hf.depths _ hold]
    · rw [outer_put]
      exact hf.depths old hold

theorem put_self (h : f.nodes[n]? = some node) : f.put n node.table = f := by
  have hnodes : (f.put n node.table).nodes = f.nodes := by
    apply List.ext_getElem?
    intro m
    rw [getElem?_put]
    split
    · subst m
      simp [h]
    · simp
  cases f
  simp_all [put]

theorem parent_lt_length (h : node ∈ f.nodes) : ∀ p, node.parent = some p → p < f.nodes.length := by
  intro p hp
  obtain ⟨m, hm⟩ := List.mem_iff_getElem?.1 h
  exact (f.parent_lt m node hm p hp).trans (List.getElem?_eq_some_iff.1 hm).1

theorem toScopes_push {h} : (f.push node h).toScopes =
    ⟨f.toScopes.scopes ++ [(node.table.toScope, f.outer node)]⟩ := by
  have hold : f.nodes.map (fun other ↦ (other.table.toScope, (f.push node h).outer other)) =
      f.toScopes.scopes :=
    List.map_congr_left fun other hother ↦ by rw [outer_push (parent_lt_length hother)]
  rw [toScopes, nodes_push, List.map_append, hold, List.map_singleton, outer_push h]

theorem sound_push {h} (hf : f.Sound) (ht : node.table.Sound)
    (hdepth : node.depth = (f.outer node).length) : (f.push node h).Sound where
  tables other hother := by
    rcases List.mem_append.1 hother with hother | hother
    · exact hf.tables other hother
    · rwa [List.mem_singleton.1 hother]
  depths other hother := by
    rcases List.mem_append.1 hother with hother | hother
    · rw [outer_push (parent_lt_length hother), hf.depths other hother]
    · rw [List.mem_singleton.1 hother, outer_push h, hdepth]

/-- What has come out of a request to the tables, against the outcome on the scopes. A request that
fails has changed nothing. -/
inductive Answers (f : TableForest α) :
    Outcome (TableForest α) SymbolError Reply → Outcome (ScopeForest α) SymbolError Reply → Prop
  | done {reply : Reply} {f' : TableForest α} {g : ScopeForest α} (hf' : f'.Sound)
      (hg : f'.toScopes = g) : Answers f (.done reply f') (.done reply g)
  | failed (e : SymbolError) : Answers f (.failed e f) (.failed e f.toScopes)
  | exhausted : Answers f .exhausted .exhausted

theorem table?_of_some (hn : f.nodes[n]? = some node) : f.table? n = some node.table := by
  simp [table?, node?, hn]

theorem onTable_cases (hf : f.Sound) (hn : f.nodes[n]? = some node) {x : SymbolTable.Action α β}
    {act : Scope α → Except SymbolError (β × Scope α)} (h : SymbolTable.Mirrors x act) :
    (∃ b t', onTable n x f = .done b (f.put n t') ∧ t'.Sound ∧
      act node.table.toScope = .ok (b, t'.toScope)) ∨
    ∃ e, onTable n x f = .failed e f ∧ act node.table.toScope = .error e := by
  have hx := h node.table (hf.tables node (List.mem_of_getElem? hn))
  rw [onTable, bind_apply]
  simp only [ask, table?_of_some hn, within]
  generalize x node.table = o at hx
  generalize act node.table.toScope = o' at hx
  cases hx with
  | ok ht' hs =>
    subst hs
    exact .inl ⟨_, _, rfl, ht', rfl⟩
  | error e =>
    refine .inr ⟨e, ?_, rfl⟩
    simp only [put_self hn]

theorem answers_onTable (hf : f.Sound) {x : SymbolTable.Action α Reply}
    {act : Scope α → Except SymbolError (Reply × Scope α)} (h : SymbolTable.Mirrors x act) :
    Answers f (onTable n x f) (ScopeForest.onScope n act f.toScopes) := by
  cases hn : f.nodes[n]? with
  | none =>
    simp only [onTable, ScopeForest.onScope, bind_apply, ask, table?, node?, getElem?_toScopes, hn]
    exact .exhausted
  | some node =>
    simp only [ScopeForest.onScope, bind_apply, ask, getElem?_toScopes_of_some hn]
    rcases onTable_cases hf hn h with ⟨b, t', hx, ht', hs⟩ | ⟨e, hx, hs⟩
    · rw [hx, hs]
      exact .done (sound_put hf ht') (toScopes_put hn)
    · rw [hx, hs]
      exact .failed e

theorem length_toScopes (f : TableForest α) : f.toScopes.scopes.length = f.nodes.length := by
  simp [toScopes]

theorem answers_addRoot (hf : f.Sound) :
    Answers f (addRoot f) (ScopeForest.push {} [] f.toScopes) := by
  simp only [ScopeForest.push, get_bind, modify_bind, length_toScopes]
  refine .done (sound_push hf SymbolTable.sound_empty rfl) ?_
  rw [toScopes_push, SymbolTable.toScope_empty, outer]

theorem addChild_of_none (hn : f.nodes[n]? = none) : addChild n t f = .exhausted := by
  rw [addChild, dif_neg (by simpa using hn)]

theorem answers_addChild (hf : f.Sound) (hn : f.nodes[n]? = some node) (ht : t.Sound) :
    Answers f (addChild n t f) (ScopeForest.push t.toScope (n :: f.outer node) f.toScopes) := by
  obtain ⟨hlt, rfl⟩ := List.getElem?_eq_some_iff.1 hn
  have houter : f.outer ⟨t, some n, f.nodes[n].depth + 1⟩ = n :: f.outer f.nodes[n] := path_of_some hn
  rw [addChild, dif_pos hlt]
  simp only [ScopeForest.push, get_bind, modify_bind, length_toScopes]
  refine .done (sound_push hf ht ?_) ?_
  · rw [houter, hf.depths _ (List.getElem_mem hlt), List.length_cons]
  · rw [toScopes_push, houter]

/-- What a table holds itself, in order. -/
def scope? (f : TableForest α) (n : Nat) : Option (Scope α) := (f.table? n).map SymbolTable.toScope

theorem scope?_toScopes (f : TableForest α) (n : Nat) : f.toScopes.scope? n = f.scope? n := by
  simp [ScopeForest.scope?, getElem?_toScopes, scope?, table?, node?, Function.comp_def]

theorem scope?_of_some (hn : f.nodes[n]? = some node) : f.scope? n = some node.table.toScope := by
  rw [scope?, table?_of_some hn]
  rfl

theorem outer?_of_some (hn : f.nodes[n]? = some node) : f.toScopes.outer? n = some (f.outer node) := by
  rw [ScopeForest.outer?, getElem?_toScopes_of_some hn]
  rfl

theorem outer?_of_none (hn : f.nodes[n]? = none) : f.toScopes.outer? n = none := by
  simp [ScopeForest.outer?, getElem?_toScopes, hn]

theorem chain?_of_some (hn : f.nodes[n]? = some node) : f.toScopes.chain? n =
    some ⟨node.table.toScope, (f.outer node).filterMap f.scope?⟩ := by
  have hscope : f.toScopes.scope? = f.scope? := funext f.scope?_toScopes
  rw [ScopeForest.chain?, getElem?_toScopes_of_some hn, hscope]
  rfl

theorem chain_of_none (hn : f.nodes[n]? = none) : f.chain n = [] := by
  rw [chain, path_of_none hn, List.filterMap_nil]

theorem chain_of_some (hn : f.nodes[n]? = some node) :
    f.chain n = node.table :: (f.outer node).filterMap f.table? := by
  rw [chain, path_of_some hn, List.filterMap_cons_some (table?_of_some hn)]

theorem toList_chain {c : ScopeChain α} (hc : f.toScopes.chain? n = some c) :
    c.toList = (f.chain n).map SymbolTable.toScope := by
  cases hn : f.nodes[n]? with
  | none => simp [ScopeForest.chain?, getElem?_toScopes, hn] at hc
  | some node =>
    rw [chain?_of_some hn] at hc
    cases hc
    rw [ScopeChain.toList, chain_of_some hn, List.map_cons, List.map_filterMap]
    rfl

theorem mem_chain (ht : t ∈ f.chain n) : ∃ node ∈ f.nodes, node.table = t := by
  obtain ⟨m, -, hm⟩ := List.mem_filterMap.1 ht
  obtain ⟨node, hnode, rfl⟩ := Option.map_eq_some_iff.1 hm
  exact ⟨node, List.mem_of_getElem? hnode, rfl⟩

theorem Sound.of_mem_chain (hf : f.Sound) (ht : t ∈ f.chain n) : t.Sound := by
  obtain ⟨node, hnode, rfl⟩ := mem_chain ht
  exact hf.tables node hnode

theorem find?_chain (hf : f.Sound) {c : ScopeChain α} (hc : f.toScopes.chain? n = some c)
    (k : SymbolKey) : c.find? k = f.find? n k := by
  rw [ScopeChain.find?, toList_chain hc, List.findSome?_map, find?, ← List.head?_filterMap,
    ← List.head?_filterMap]
  congr 1
  apply List.filterMap_congr
  intro t ht
  exact SymbolTable.find?_toScope (hf.of_mem_chain ht) k

theorem contains_chain {c : ScopeChain α} (hc : f.toScopes.chain? n = some c) (k : SymbolKey) :
    c.contains k = f.contains n k := by
  simp only [ScopeChain.contains, toList_chain hc, List.any_map, contains, Function.comp_def,
    SymbolTable.contains_toScope]

theorem resolve_chain (hf : f.Sound) {c : ScopeChain α} (hc : f.toScopes.chain? n = some c)
    (k : SymbolKey) : c.resolve k = f.resolve n k := by
  cases hk : f.find? n k <;> simp [ScopeChain.resolve, resolve, find?_chain hf hc, hk]

theorem toScopes_put_same (hn : f.nodes[n]? = some node) (ht : t.toScope = node.table.toScope) :
    (f.put n t).toScopes = f.toScopes := by
  have hscope : f.toScopes.scopes[n]? = some (t.toScope, f.outer node) := by
    rw [getElem?_toScopes_of_some hn, ht]
  obtain ⟨hlt, hget⟩ := List.getElem?_eq_some_iff.1 hscope
  rw [toScopes_put hn, ← hget, List.set_getElem_self]

theorem le_of_mem_path (h : m ∈ f.path n) : m ≤ n := by
  induction n using Nat.strongRecOn with
  | ind n ih =>
    cases hn : f.nodes[n]? with
    | none => simp [path_of_none hn] at h
    | some node =>
      rw [path_of_some hn, List.mem_cons, outer] at h
      rcases h with rfl | h
      · exact le_rfl
      · split at h
        · simp at h
        · have hlt := f.parent_lt n node hn _ ‹_›
          exact (ih _ hlt h).trans hlt.le

/-- The digest of a chain is what it would be if nothing had been remembered. -/
theorem digestAlong_eq (hf : f.Sound) (path : List Nat) (hpath : ∀ m ∈ path, m < f.nodes.length) :
    ∃ f', digestAlong path f = .done ((path.filterMap f.scope?).foldr
        (fun s acc ↦ s.digest ^^^ XXHash.rotateLeft acc 5) 0) f' ∧
      f'.Sound ∧ f'.toScopes = f.toScopes := by
  induction path generalizing f with
  | nil => exact ⟨f, rfl, hf, rfl⟩
  | cons n path ih =>
    obtain ⟨hn, hpath⟩ := List.forall_mem_cons.1 hpath
    have hnode : f.nodes[n]? = some f.nodes[n] := List.getElem?_eq_getElem hn
    rcases onTable_cases hf hnode SymbolTable.mirrors_digest with ⟨own, t, hx, ht, hs⟩ | ⟨e, -, hs⟩
    · obtain ⟨hown, hsame⟩ := Prod.mk.inj (Except.ok.inj hs)
      have hscopes := toScopes_put_same hnode hsame.symm
      have hlength : (f.put n t).nodes.length = f.nodes.length := by
        rw [← length_toScopes, hscopes, length_toScopes]
      obtain ⟨f', hrest, hf', hf''⟩ := ih (sound_put hf ht) (by rwa [hlength])
      have hsame : (f.put n t).scope? = f.scope? := by
        funext m
        rw [← scope?_toScopes, hscopes, scope?_toScopes]
      refine ⟨f', ?_, hf', hf''.trans hscopes⟩
      rw [digestAlong, bind_apply, hx]
      simp only [bind_apply, hrest, hsame, List.filterMap_cons_some (scope?_of_some hnode),
        List.foldr_cons, hown]
      rfl
    · cases hs

section
variable [BEq α]

theorem answers_child (hf : f.Sound) (n : Nat) :
    Answers f (perform (.child n) f) (ScopeForest.perform (.child n) f.toScopes) := by
  cases hn : f.nodes[n]? with
  | none =>
    simp only [perform, addChild_of_none hn, ScopeForest.perform, bind_apply, ask, outer?_of_none hn]
    exact .exhausted
  | some node =>
    have hchild := answers_addChild hf hn SymbolTable.sound_empty
    rw [SymbolTable.toScope_empty] at hchild
    simpa only [perform, ScopeForest.perform, bind_apply, ask, outer?_of_some hn] using hchild

theorem answers_childWith (hf : f.Sound) (n : Nat) (entries : List (SymbolKey × α)) :
    Answers f (perform (.childWith n entries) f)
      (ScopeForest.perform (.childWith n entries) f.toScopes) := by
  cases hn : f.nodes[n]? with
  | none =>
    simp only [perform, ScopeForest.perform, bind_apply, ask, node?, hn, outer?_of_none hn]
    exact .exhausted
  | some node =>
    simp only [perform, ScopeForest.perform, bind_apply, ask, node?, hn, Option.map_some, within,
      outer?_of_some hn, chain?_of_some hn, ScopeChain.childScope, find?_chain hf (chain?_of_some hn)]
    have hfill := SymbolTable.fill_cases (f.find? n) entries SymbolTable.sound_empty
    rw [SymbolTable.toScope_empty] at hfill
    rcases hfill with ⟨t, hfill, ht, hs⟩ | ⟨e, t, hfill, hs⟩
    · rw [hfill, hs]
      exact answers_addChild hf hn ht
    · rw [hfill, hs]
      exact .failed e

theorem answers_digest (hf : f.Sound) (n : Nat) :
    Answers f (perform (.digest n) f) (ScopeForest.perform (.digest n) f.toScopes) := by
  cases hn : f.nodes[n]? with
  | none =>
    simp only [perform, ScopeForest.perform, bind_apply, ask, node?, ScopeForest.chain?,
      getElem?_toScopes, hn]
    exact .exhausted
  | some node =>
    have hlt : n < f.nodes.length := (List.getElem?_eq_some_iff.1 hn).1
    obtain ⟨f', hdigest, hf', hscopes⟩ := digestAlong_eq hf (f.path n) fun m hm ↦
      (le_of_mem_path hm).trans_lt hlt
    rw [path_of_some hn, List.filterMap_cons_some (scope?_of_some hn)] at hdigest
    simp only [perform, ScopeForest.perform, bind_apply, ask, node?, hn, Option.map_some,
      chain?_of_some hn, path_of_some hn, hdigest]
    exact .done hf' hscopes

/-- The tables answer each request as the scopes do. -/
theorem answers_perform (hf : f.Sound) (request : Request α) :
    Answers f (perform request f) (ScopeForest.perform request f.toScopes) := by
  cases request with
  | root => exact answers_addRoot hf
  | child n => exact answers_child hf n
  | childWith n entries => exact answers_childWith hf n entries
  | add n k a => exact answers_onTable hf (SymbolTable.mirrors_add k a .changed)
  | remove n k => exact answers_onTable hf (SymbolTable.mirrors_remove k .removed)
  | clear n => exact answers_onTable hf (SymbolTable.mirrors_clear .changed)
  | freeze n => exact answers_onTable hf (SymbolTable.mirrors_freeze .changed)
  | digest n => exact answers_digest hf n

end

end TableForest

end CallResolution
