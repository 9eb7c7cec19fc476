import CallResolution.Proofs.Scope.Refinement

namespace CallResolution

open Attempt

variable {α β : Type} {n m : Nat} {k : SymbolKey}

theorem Scope.digestKeys_canonical (ks : List SymbolKey) :
    digestKeys (ks.map SymbolKey.canonical) = digestKeys ks := by
  simp only [digestKeys, List.foldl_map, SymbolKey.digest_canonical]

namespace SymbolTable

variable {t : SymbolTable α} {u : SymbolTable β}

theorem contains_iff : t.contains k = true ↔ k.canonical ∈ t.slots.map (·.key.canonical) := by
  simp only [contains, List.any_eq_true, SymbolKey.agrees_iff, List.mem_map]

theorem digestKeys_keys (t : SymbolTable α) :
    Scope.digestKeys t.keys = Scope.digestKeys (t.slots.map (·.key.canonical)) := by
  rw [← keys_toScope, ← Scope.digest, digest_toScope, ← Scope.digestKeys_canonical, List.map_map]
  rfl

theorem subset_of_contains (h : ∀ k, t.contains k = true → u.contains k = true) {c : SymbolKey}
    (hc : c ∈ t.slots.map (·.key.canonical)) : c ∈ u.slots.map (·.key.canonical) := by
  obtain ⟨s, hs, rfl⟩ := List.mem_map.1 hc
  exact contains_iff.1 (h s.key (contains_iff.2 (List.mem_map_of_mem hs)))

/-- The digest depends only on which symbols there are. -/
theorem digestKeys_congr (ht : t.Sound) (hu : u.Sound) (h : ∀ k, t.contains k = u.contains k) :
    Scope.digestKeys t.keys = Scope.digestKeys u.keys := by
  rw [digestKeys_keys, digestKeys_keys]
  apply Scope.digestKeys_perm
  rw [List.perm_ext_iff_of_nodup ht.symbols hu.symbols]
  intro c
  exact ⟨subset_of_contains fun k hk ↦ (h k).symm.trans hk, subset_of_contains fun k hk ↦ (h k).trans hk⟩

end SymbolTable

namespace TableForest

variable {f f' : TableForest α} {node : TableNode α}

/-- The digest of a chain, with nothing remembered. -/
def freshDigest (f : TableForest α) (n : Nat) : UInt64 :=
  (f.chain n).foldr (fun t acc ↦ Scope.digestKeys t.keys ^^^ XXHash.rotateLeft acc 5) 0

theorem freshDigest_eq (hn : f.node? n = some node) : f.freshDigest n =
    Scope.digestKeys node.table.keys ^^^
      node.parent.elim 0 fun p ↦ XXHash.rotateLeft (f.freshDigest p) 5 := by
  rw [freshDigest, chain_of_some hn, List.foldr_cons, outer]
  cases node.parent with
  | none =>
    have hzero : XXHash.rotateLeft 0 5 = 0 := by decide
    simp [hzero]
  | some p => rfl

theorem digest_chain {c : ScopeChain α} (hc : f.toScopes.chain? n = some c) :
    c.digest = f.freshDigest n := by
  rw [ScopeChain.digest, toList_chain hc, List.foldr_map, freshDigest]
  simp only [Scope.digest, SymbolTable.keys_toScope]

theorem freshDigest_congr {g : TableForest β} (hf : f.Sound) (hg : g.Sound)
    (h : List.Forall₂ (fun t u ↦ ∀ k, t.contains k = u.contains k) (f.chain n) (g.chain m)) :
    f.freshDigest n = g.freshDigest m := by
  have hts : ∀ t ∈ f.chain n, t.Sound := fun t ↦ hf.of_mem_chain
  have hus : ∀ u ∈ g.chain m, u.Sound := fun u ↦ hg.of_mem_chain
  rw [freshDigest, freshDigest]
  generalize f.chain n = ts at *
  generalize g.chain m = us at *
  induction h with
  | nil => rfl
  | cons htu _ ih =>
    obtain ⟨ht, hts⟩ := List.forall_mem_cons.1 hts
    obtain ⟨hu, hus⟩ := List.forall_mem_cons.1 hus
    rw [List.foldr_cons, List.foldr_cons, ih hts hus, SymbolTable.digestKeys_congr ht hu htu]

section
variable [BEq α]

theorem perform_digest (hf : f.Sound) (hn : f.node? n = some node) :
    ∃ f', perform (.digest n) f = .done (.digest (f.freshDigest n)) f' := by
  have hanswers := answers_digest hf n
  have hc := chain?_of_some hn
  rw [ScopeForest.perform, bind_apply] at hanswers
  simp only [ask, hc, digest_chain hc] at hanswers
  generalize perform (.digest n) f = o at hanswers
  cases hanswers with
  | done hf' hg => exact ⟨_, rfl⟩

/-- The digest of a chain is never out of date. It depends only on which symbols there are at each
level. -/
theorem digest_is_fresh {requests : List (Request α)} {answers : List (Except SymbolError Reply)}
    (hrun : Run empty requests answers f) (hn : f.node? n = some node) :
    (∃ f', perform (.digest n) f = .done (.digest (f.freshDigest n)) f') ∧
    f.freshDigest n = Scope.digestKeys node.table.keys ^^^
      (node.parent.elim 0 fun p ↦ XXHash.rotateLeft (f.freshDigest p) 5) ∧
    ∀ (β : Type) [BEq β] (requests' : List (Request β)) (answers' : List (Except SymbolError Reply))
      (g : TableForest β) (m : Nat), Run empty requests' answers' g →
      List.Forall₂ (fun t u ↦ ∀ k, t.contains k = u.contains k) (f.chain n) (g.chain m) →
      ∃ g', perform (.digest m) g = .done (.digest (f.freshDigest n)) g' := by
  have hf := (hrun.follows sound_empty).1
  refine ⟨perform_digest hf hn, freshDigest_eq hn, ?_⟩
  intro β _ requests' answers' g m hrun' hchain
  have hg := (hrun'.follows sound_empty).1
  cases hm : g.node? m with
  | some node' =>
    rw [freshDigest_congr hf hg hchain]
    exact perform_digest hg hm
  | none =>
    rw [chain_of_some hn, chain_of_none hm] at hchain
    cases hchain

end

/-- The same symbols as in `late`, with other values, in another order and with another digest asked
for on the way. -/
def early : List (Request Nat) := [.root, .add 0 getKey 1, .digest 0, .add 0 setKey 2, .child 0]
def late : List (Request String) := [.root, .add 0 setKey "later", .child 0, .digest 1, .add 0 getKey "now"]

theorem digest_is_fresh_early_late : ∃ answers answers' f g, Run empty early answers f ∧
    Run empty late answers' g ∧ ∃ value f' g', perform (.digest 1) f = .done (.digest value) f' ∧
      perform (.digest 1) g = .done (.digest value) g' := by
  have hearly : ∃ answers g, ScopeForest.run early {} = some (answers, g) := ⟨_, _, rfl⟩
  have hlate : ∃ answers g, ScopeForest.run late {} = some (answers, g) := ⟨_, _, rfl⟩
  obtain ⟨answers, _, hearly⟩ := hearly
  obtain ⟨answers', _, hlate⟩ := hlate
  obtain ⟨f, hf⟩ := exists_run sound_empty hearly
  obtain ⟨g, hg⟩ := exists_run sound_empty hlate
  have hc : ((ScopeForest.run early {}).bind fun r ↦ r.2.chain? 1) =
      some ⟨{}, [⟨[(getKey, 1), (setKey, 2)], false⟩]⟩ := rfl
  have hc' : ((ScopeForest.run late {}).bind fun r ↦ r.2.chain? 1) =
      some ⟨{}, [⟨[(setKey, "later"), (getKey, "now")], false⟩]⟩ := rfl
  rw [hf.toScopes_eq, Option.bind_some] at hc
  rw [hg.toScopes_eq, Option.bind_some] at hc'
  have hchain : List.Forall₂ (fun t u ↦ ∀ k, t.contains k = u.contains k) (f.chain 1) (g.chain 1) := by
    have hscopes : List.Forall₂ (fun s s' ↦ ∀ k, s.contains k = s'.contains k)
        ((f.chain 1).map SymbolTable.toScope) ((g.chain 1).map SymbolTable.toScope) := by
      rw [← toList_chain hc, ← toList_chain hc']
      exact .cons (fun k ↦ rfl) (.cons (fun k ↦ by simp [Scope.contains, Bool.or_comm]) .nil)
    simpa [List.forall₂_map_left_iff, List.forall₂_map_right_iff, SymbolTable.contains_toScope] using hscopes
  cases hn : f.node? 1 with
  | none => simp [ScopeForest.chain?, getElem?_toScopes, show f.nodes[1]? = none from hn] at hc
  | some node =>
    obtain ⟨⟨f', hf'⟩, -, hsame⟩ := digest_is_fresh hf hn
    obtain ⟨g', hg'⟩ := hsame String late answers' g 1 hg hchain
    exact ⟨answers, answers', f, g, hf, hg, _, f', g', hf', hg'⟩

end TableForest

end CallResolution
