import CallResolution.Proofs.Overload.Prefilter
import Mathlib.Data.List.Sort
import Mathlib.Data.Prod.Lex
import Mathlib.Tactic.Choose

namespace CallResolution

open Attempt Registry

namespace Rank

/-- Ranks are compared place by place, and more bound type parameters are better. -/
def lex (a : Rank) : Bool ×ₗ Bool ×ₗ Natᵒᵈ :=
  toLex (a.isVariadic, toLex (a.isExtension, OrderDual.toDual a.bound))

theorem le_iff {a b : Rank} : a.le b = true ↔ a.lex ≤ b.lex := by
  obtain ⟨v, x, n⟩ := a
  obtain ⟨v', x', n'⟩ := b
  cases v <;> cases v' <;> cases x <;> cases x' <;> simp [le, lex, Prod.Lex.toLex_le_toLex]

theorem lex_injective : Function.Injective lex := by
  intro a b h
  obtain ⟨v, x, n⟩ := a
  obtain ⟨v', x', n'⟩ := b
  simpa [lex] using h

end Rank

namespace Candidate

variable {c : Candidate} {cs ds rest tied : List Candidate} {r : Registry} {span : Span}

/-- The candidates that none is better than, in order. -/
def leading (cs : List Candidate) : List Candidate :=
  cs.filter fun c ↦ cs.all fun d ↦ c.rank.lex ≤ d.rank.lex

theorem ranked_eq (cs : List Candidate) :
    ranked cs = cs.insertionSort fun c d ↦ c.rank.lex ≤ d.rank.lex := by
  have hinsert (c : Candidate) (ds : List Candidate) :
      insertRanked c ds = ds.orderedInsert (fun c d ↦ c.rank.lex ≤ d.rank.lex) c := by
    induction ds with
    | nil => rfl
    | cons d ds ih => simp only [insertRanked, List.orderedInsert_cons, Rank.le_iff, ih]
  have hfun : insertRanked = List.orderedInsert fun c d : Candidate ↦ c.rank.lex ≤ d.rank.lex := by
    funext c ds
    exact hinsert c ds
  rw [ranked, hfun]
  rfl

theorem pairwise_ranked (cs : List Candidate) :
    (ranked cs).Pairwise fun c d ↦ c.rank.lex ≤ d.rank.lex := by
  have : IsTrans Candidate fun c d ↦ c.rank.lex ≤ d.rank.lex := ⟨fun _ _ _ ↦ le_trans⟩
  have : Std.Total fun c d : Candidate ↦ c.rank.lex ≤ d.rank.lex := ⟨fun _ _ ↦ le_total _ _⟩
  rw [ranked_eq]
  exact List.pairwise_insertionSort _ cs

theorem perm_ranked (cs : List Candidate) : (ranked cs).Perm cs := by
  rw [ranked_eq]
  exact List.perm_insertionSort _ cs

/-- Candidates of one rank keep their order. -/
theorem filter_ranked (cs : List Candidate) (k : Rank) :
    (ranked cs).filter (·.rank = k) = cs.filter (·.rank = k) := by
  have htied : (cs.filter (·.rank = k)).Pairwise fun c d ↦ c.rank.lex ≤ d.rank.lex := by
    refine List.pairwise_of_forall_mem_list fun c hc d hd ↦ le_of_eq (congrArg Rank.lex ?_)
    have hc' : c.rank = k := by simpa using (List.mem_filter.1 hc).2
    have hd' : d.rank = k := by simpa using (List.mem_filter.1 hd).2
    rw [hc', hd']
  have hsub : (cs.filter (·.rank = k)).Sublist (ranked cs) := by
    have : IsTrans Candidate fun c d ↦ c.rank.lex ≤ d.rank.lex := ⟨fun _ _ _ ↦ le_trans⟩
    rw [ranked_eq]
    exact List.sublist_insertionSort htied List.filter_sublist
  have hfilter : (cs.filter (·.rank = k)).Sublist ((ranked cs).filter (·.rank = k)) := by
    simpa using hsub.filter (·.rank = k)
  exact (hfilter.eq_of_length ((perm_ranked cs).filter _).length_eq.symm).symm

theorem filter_eq_takeWhile {k : Rank} (hsorted : ds.Pairwise fun c d ↦ c.rank.lex ≤ d.rank.lex)
    (hmin : ∀ d ∈ ds, k.lex ≤ d.rank.lex) :
    ds.filter (·.rank = k) = ds.takeWhile (·.rank = k) := by
  induction ds with
  | nil => rfl
  | cons d ds ih =>
    obtain ⟨hd, hds⟩ := List.pairwise_cons.1 hsorted
    obtain ⟨hkd, hkds⟩ := List.forall_mem_cons.1 hmin
    by_cases hk : d.rank = k
    · rw [List.filter_cons_of_pos (by simpa using hk), List.takeWhile_cons_of_pos (by simpa using hk),
        ih hds hkds]
    · rw [List.takeWhile_cons_of_neg (by simpa using hk), List.filter_eq_nil_iff]
      have hlt : k.lex < d.rank.lex := lt_of_le_of_ne hkd fun h ↦ hk (Rank.lex_injective h).symm
      intro e he
      rcases List.mem_cons.1 he with rfl | he
      · simpa using hk
      · have hke : k.lex < e.rank.lex := lt_of_lt_of_le hlt (hd e he)
        have hne : e.rank ≠ k := fun h ↦ absurd hke (by rw [h]; exact lt_irrefl _)
        simpa using hne

theorem leading_of_ranked (h : ranked cs = c :: rest) :
    leading cs = c :: rest.takeWhile (·.rank = c.rank) := by
  have hsorted := pairwise_ranked cs
  rw [h] at hsorted
  obtain ⟨hrest, hsorted⟩ := List.pairwise_cons.1 hsorted
  have hc : c ∈ cs := mem_ranked.1 (h ▸ List.mem_cons_self)
  have hmin : ∀ d ∈ cs, c.rank.lex ≤ d.rank.lex := by
    intro d hd
    rcases List.mem_cons.1 (h ▸ mem_ranked.2 hd) with rfl | hd
    · exact le_rfl
    · exact hrest d hd
  have hleading : leading cs = cs.filter (·.rank = c.rank) := by
    refine List.filter_congr fun d hd ↦ ?_
    rw [Bool.eq_iff_iff, List.all_eq_true]
    simp only [decide_eq_true_eq]
    constructor
    · intro hbest
      exact Rank.lex_injective (le_antisymm (hbest c hc) (hmin d hd))
    · intro hrank
      rw [hrank]
      exact hmin
  rw [hleading, ← filter_ranked, h, List.filter_cons_of_pos (by simp),
    filter_eq_takeWhile hsorted hrest]

theorem exists_leading (h : cs ≠ []) : ∃ c tied, leading cs = c :: tied := by
  cases hranked : ranked cs with
  | nil => exact absurd (hranked ▸ perm_ranked cs).symm.eq_nil h
  | cons c rest => exact ⟨c, _, leading_of_ranked hranked⟩

theorem best_of_leading (h : leading cs = c :: tied) (policy : Ambiguity) :
    best r policy span cs =
      if policy = .reject ∧ tied ≠ [] then
        .error (.ambiguousOverload c.method.name (", ".intercalate ((c :: tied).map (describe r))) span)
      else .ok (some c) := by
  rw [best]
  cases hranked : ranked cs with
  | nil =>
    obtain rfl : cs = [] := (hranked ▸ perm_ranked cs).symm.eq_nil
    cases h
  | cons d rest =>
    rw [leading_of_ranked hranked] at h
    cases h
    rfl

theorem leading_map {f : Candidate → Candidate} (hf : ∀ c, (f c).rank = c.rank) :
    leading (cs.map f) = (leading cs).map f := by
  simp only [leading, List.filter_map, List.all_map, Function.comp_def, hf]

end Candidate

/-- A pass that takes each element in turn, in the registry that the one before it left, and keeps
what becomes of it, if anything does. -/
inductive Sieve {α β : Type} (step : α → Registry → Option β → Registry → Prop) :
    List α → Registry → List β → Registry → Prop
  | nil {r : Registry} : Sieve step [] r [] r
  | drop {a : α} {as : List α} {bs : List β} {r s t : Registry} :
      step a r none s → Sieve step as s bs t → Sieve step (a :: as) r bs t
  | keep {a : α} {b : β} {as : List α} {bs : List β} {r s t : Registry} :
      step a r (some b) s → Sieve step as s bs t → Sieve step (a :: as) r (b :: bs) t

namespace Sieve

variable {α β : Type} {step : α → Registry → Option β → Registry → Prop} {as : List α} {bs : List β}
  {r t : Registry}

theorem iff_mapM {f : α → Attempt Registry CompileError (Option β)}
    (hf : ∀ a r o s, f a r = .done o s ↔ step a r o s) :
    Sieve step as r bs t ↔ ∃ os, as.mapM f r = .done os t ∧ os.filterMap id = bs := by
  constructor
  · intro h
    induction h with
    | nil => exact ⟨[], rfl, rfl⟩
    | drop hstep _ ih =>
      obtain ⟨os, hos, rfl⟩ := ih
      exact ⟨none :: os, mapM_cons_eq_done_iff.2 ⟨none, _, os, (hf _ _ _ _).2 hstep, hos, rfl⟩, rfl⟩
    | keep hstep _ ih =>
      obtain ⟨os, hos, rfl⟩ := ih
      exact ⟨some _ :: os, mapM_cons_eq_done_iff.2 ⟨some _, _, os, (hf _ _ _ _).2 hstep, hos, rfl⟩, rfl⟩
  · intro h
    obtain ⟨os, hos, rfl⟩ := h
    induction as generalizing r os with
    | nil =>
      obtain ⟨rfl, rfl⟩ := pure_eq_done_iff.1 hos
      exact .nil
    | cons a as ih =>
      obtain ⟨o, s, os, ha, has, rfl⟩ := mapM_cons_eq_done_iff.1 hos
      have hstep := (hf _ _ _ _).1 ha
      cases o with
      | none => exact .drop hstep (ih os has)
      | some b => exact .keep hstep (ih os has)

theorem along {R : Registry → Registry → Prop} [Std.Refl R] [IsTrans Registry R]
    (hstep : ∀ a r o s, step a r o s → R r s) (h : Sieve step as r bs t) : R r t := by
  induction h with
  | nil => exact refl _
  | drop ha _ ih => exact IsTrans.trans _ _ _ (hstep _ _ _ _ ha) ih
  | keep ha _ ih => exact IsTrans.trans _ _ _ (hstep _ _ _ _ ha) ih

theorem exists_of_mem (hgrows : ∀ a r o s, step a r o s → Grows r s) (h : Sieve step as r bs t)
    {b : β} (hb : b ∈ bs) : ∃ a ∈ as, ∃ s s', Grows r s ∧ step a s (some b) s' ∧ Grows s' t := by
  induction h with
  | nil => cases hb
  | drop hstep _ ih =>
    obtain ⟨a, ha, s, s', hs, found⟩ := ih hb
    exact ⟨a, List.mem_cons_of_mem _ ha, s, s', IsTrans.trans _ _ _ (hgrows _ _ _ _ hstep) hs, found⟩
  | keep hstep hrest ih =>
    rcases List.mem_cons.1 hb with rfl | hb
    · exact ⟨_, List.mem_cons_self, _, _, refl _, hstep, hrest.along hgrows⟩
    · obtain ⟨a, ha, s, s', hs, found⟩ := ih hb
      exact ⟨a, List.mem_cons_of_mem _ ha, s, s', IsTrans.trans _ _ _ (hgrows _ _ _ _ hstep) hs, found⟩

end Sieve

namespace Candidate

variable {c c' : Candidate} {o : Option Candidate} {cs : List Candidate} {fuel : Nat}
  {r r' s : Registry} {receiver : Option Expr} {members : List Method} {typeArgs : List TypeId}
  {args : List Expr}

/-- What becomes of a candidate when the type arguments of the call are bound. -/
inductive Binds (fuel : Nat) (typeArgs : List TypeId) :
    Candidate → Registry → Option Candidate → Registry → Prop
  | absent {c : Candidate} {r : Registry} : typeArgs = [] → Binds fuel typeArgs c r (some c) r
  | miscounted {c : Candidate} {r : Registry} : typeArgs ≠ [] →
      c.method.typeParams.length ≠ typeArgs.length → Binds fuel typeArgs c r none r
  | unsuited {c : Candidate} {r : Registry} : typeArgs ≠ [] →
      c.method.typeParams.length = typeArgs.length →
      (c.method.typeParams.zip typeArgs).allM (fun p ↦ r.satisfies fuel p.1 p.2) = some false →
      Binds fuel typeArgs c r none r
  | bound {c : Candidate} {d : Method} {r s : Registry} : typeArgs ≠ [] →
      c.method.typeParams.length = typeArgs.length →
      (∀ p ∈ c.method.typeParams.zip typeArgs, r.satisfies fuel p.1 p.2 = some true) →
      c.method.specialize fuel (.ofList (c.method.typeParams.zip typeArgs)) r = .done d s →
      Binds fuel typeArgs c r
        (some (c.withSpecialized d (.ofList (c.method.typeParams.zip typeArgs)))) s

/-- What becomes of a candidate when it is tested, its type arguments are inferred if it still lacks
them, and it is tested again with them. -/
inductive Settles (fuel : Nat) : Candidate → Registry → Option Candidate → Registry → Prop
  | inapplicable {c : Candidate} {r : Registry} :
      c.isApplicable fuel r = .done false r → Settles fuel c r none r
  | complete {c : Candidate} {r : Registry} : c.isApplicable fuel r = .done true r →
      c.method.isUnboundGeneric = false → Settles fuel c r (some c) r
  | uninferred {c : Candidate} {r : Registry} : c.isApplicable fuel r = .done true r →
      c.method.isUnboundGeneric = true → c.method.infer r fuel c.args = some none →
      Settles fuel c r none r
  | inferred {c : Candidate} {map : Substitution} {d : Method} {applies : Bool} {r s : Registry} :
      c.isApplicable fuel r = .done true r → c.method.isUnboundGeneric = true →
      c.method.infer r fuel c.args = some (some map) → c.method.specialize fuel map r = .done d s →
      (c.withSpecialized d map).isApplicable fuel s = .done applies s →
      Settles fuel c r (if applies then some (c.withSpecialized d map) else none) s

theorem bindExplicit_eq_done_iff (ht : typeArgs ≠ []) :
    c.bindExplicit fuel typeArgs r = .done o s ↔ Binds fuel typeArgs c r o s := by
  constructor
  · intro h
    unfold bindExplicit at h
    dsimp only at h
    split at h
    · rename_i hlen
      obtain ⟨rfl, rfl⟩ := pure_eq_done_iff.1 h
      exact .miscounted ht hlen
    · rename_i hlen
      have hlen : c.method.typeParams.length = typeArgs.length := by simpa using hlen
      obtain ⟨suits, s₁, hask, h⟩ := bind_eq_done_iff.1 h
      obtain ⟨hsuits, rfl⟩ := ask_eq_done_iff.1 hask
      cases suits with
      | false =>
        obtain ⟨rfl, rfl⟩ := pure_eq_done_iff.1 h
        exact .unsuited ht hlen hsuits
      | true =>
        simp only [if_true, Substitution.ofArgs, hlen, ne_eq, not_true, if_false] at h
        obtain ⟨map, s₂, hmap, h⟩ := bind_eq_done_iff.1 h
        obtain ⟨hmap, rfl⟩ := ofExcept_eq_done_iff.1 hmap
        cases hmap
        obtain ⟨c', s₃, hc', h⟩ := bind_eq_done_iff.1 h
        obtain ⟨rfl, rfl⟩ := pure_eq_done_iff.1 h
        obtain ⟨d, hd, rfl⟩ := specialize_eq_done_iff.1 hc'
        exact .bound ht hlen (allM_eq_some_true_iff.1 hsuits) hd
  · intro h
    unfold bindExplicit
    cases h with
    | absent h => exact absurd h ht
    | miscounted _ hlen => simp only [ne_eq, hlen, not_false_eq_true, if_true, pure_apply]
    | unsuited _ hlen hsuits =>
      simp only [ne_eq, hlen, not_true, if_false]
      exact bind_eq_done_iff.2 ⟨false, r, ask_eq_done_iff.2 ⟨hsuits, rfl⟩, rfl⟩
    | bound _ hlen hsuits hd =>
      simp only [ne_eq, hlen, not_true, if_false, Substitution.ofArgs]
      refine bind_eq_done_iff.2
        ⟨true, r, ask_eq_done_iff.2 ⟨allM_eq_some_true_iff.2 hsuits, rfl⟩, ?_⟩
      exact bind_eq_done_iff.2 ⟨_, r, rfl, bind_eq_done_iff.2
        ⟨_, s, specialize_eq_done_iff.2 ⟨_, hd, rfl⟩, rfl⟩⟩

theorem bindTypeArgs_eq_done_iff {bound : List Candidate} :
    bindTypeArgs fuel typeArgs cs r = .done bound s ↔ Sieve (Binds fuel typeArgs) cs r bound s := by
  unfold bindTypeArgs
  cases typeArgs with
  | nil =>
    have hstep (c : Candidate) (r : Registry) (o : Option Candidate) (s : Registry) :
        (pure (some c) : Attempt Registry CompileError (Option Candidate)) r = .done o s ↔
          Binds fuel [] c r o s := by
      rw [pure_eq_done_iff]
      constructor
      · rintro ⟨rfl, rfl⟩
        exact .absent rfl
      · intro h
        cases h with
        | absent => exact ⟨rfl, rfl⟩
        | miscounted h | unsuited h | bound h => exact absurd rfl h
    have hall : (cs.mapM fun c ↦ (pure (some c) : Attempt Registry CompileError (Option Candidate))) r =
        .done (cs.map some) r := mapM_eq_done_map fun _ _ ↦ rfl
    rw [Sieve.iff_mapM hstep, hall, List.isEmpty_nil, if_pos rfl, pure_eq_done_iff]
    constructor
    · rintro ⟨rfl, rfl⟩
      exact ⟨_, rfl, by simp [List.filterMap_map]⟩
    · rintro ⟨os, hos, rfl⟩
      cases hos
      exact ⟨by simp [List.filterMap_map], rfl⟩
  | cons t ts =>
    rw [Sieve.iff_mapM fun c r o s ↦ bindExplicit_eq_done_iff (List.cons_ne_nil t ts)]
    simp only [List.isEmpty_cons, Bool.false_eq_true, if_false]
    constructor
    · intro h
      obtain ⟨os, s', hos, h⟩ := bind_eq_done_iff.1 h
      obtain ⟨rfl, rfl⟩ := pure_eq_done_iff.1 h
      exact ⟨os, hos, rfl⟩
    · rintro ⟨os, hos, rfl⟩
      exact bind_eq_done_iff.2 ⟨os, s, hos, rfl⟩

theorem settle_eq_done_iff : c.settle fuel r = .done o s ↔ Settles fuel c r o s := by
  constructor
  · intro h
    obtain ⟨applies, s₁, happ, h⟩ := bind_eq_done_iff.1 h
    obtain rfl := (along_isApplicable c).of_done happ
    cases applies with
    | false =>
      obtain ⟨rfl, rfl⟩ := pure_eq_done_iff.1 h
      exact .inapplicable happ
    | true =>
      cases hm : c.method.isUnboundGeneric with
      | false =>
        simp only [hm, if_true, Bool.false_eq_true, if_false] at h
        obtain ⟨rfl, rfl⟩ := pure_eq_done_iff.1 h
        exact .complete happ hm
      | true =>
        simp only [hm, if_true] at h
        obtain ⟨found, s₂, hask, h⟩ := bind_eq_done_iff.1 h
        obtain ⟨hinfer, rfl⟩ := ask_eq_done_iff.1 hask
        cases found with
        | none =>
          obtain ⟨rfl, rfl⟩ := pure_eq_done_iff.1 h
          exact .uninferred happ hm hinfer
        | some map =>
          obtain ⟨c', s₃, hc', h⟩ := bind_eq_done_iff.1 h
          obtain ⟨again, s₄, hagain, h⟩ := bind_eq_done_iff.1 h
          obtain rfl := (along_isApplicable c').of_done hagain
          obtain ⟨rfl, rfl⟩ := pure_eq_done_iff.1 h
          obtain ⟨d, hd, rfl⟩ := specialize_eq_done_iff.1 hc'
          exact .inferred happ hm hinfer hd hagain
  · intro h
    cases h with
    | inapplicable happ => exact settle_of_inapplicable happ
    | complete happ hm =>
      refine bind_eq_done_iff.2 ⟨true, r, happ, ?_⟩
      simp only [hm, if_true, Bool.false_eq_true, if_false, pure_apply]
    | uninferred happ hm hinfer =>
      refine bind_eq_done_iff.2 ⟨true, r, happ, ?_⟩
      simp only [hm, if_true]
      exact bind_eq_done_iff.2 ⟨none, r, ask_eq_done_iff.2 ⟨hinfer, rfl⟩, rfl⟩
    | inferred happ hm hinfer hd hagain =>
      refine bind_eq_done_iff.2 ⟨true, r, happ, ?_⟩
      simp only [hm, if_true]
      refine bind_eq_done_iff.2 ⟨_, r, ask_eq_done_iff.2 ⟨hinfer, rfl⟩, ?_⟩
      exact bind_eq_done_iff.2 ⟨_, s, specialize_eq_done_iff.2 ⟨_, hd, rfl⟩,
        bind_eq_done_iff.2 ⟨_, s, hagain, rfl⟩⟩

theorem Settles.isApplicable (h : Settles fuel c r (some c') s) :
    c'.isApplicable fuel s = .done true s :=
  (settle_eq_some (settle_eq_done_iff.2 h)).1

theorem Settles.grows (h : Settles fuel c r o s) : Grows r s :=
  (along_settle grows_substitute c).of_done (settle_eq_done_iff.2 h)

end Candidate

/-- The candidates `cs` are what is left of the members when their type arguments are bound and each
has been settled. -/
def Survivors (fuel : Nat) (receiver : Option Expr) (members : List Method) (typeArgs : List TypeId)
    (args : List Expr) (r : Registry) (cs : List Candidate) (r' : Registry) : Prop :=
  ∃ bound s, Sieve (Candidate.Binds fuel typeArgs) (members.map (.ofMethod receiver args)) r bound s ∧
    Sieve (Candidate.Settles fuel) bound s cs r'

section Survivors

variable {fuel : Nat} {receiver : Option Expr} {members : List Method} {typeArgs : List TypeId}
  {args : List Expr} {r r' : Registry} {cs : List Candidate} {policy : Ambiguity} {span : Span}

theorem survivors_iff : Survivors fuel receiver members typeArgs args r cs r' ↔
    ∃ bound s settled,
      Candidate.bindTypeArgs fuel typeArgs (members.map (.ofMethod receiver args)) r = .done bound s ∧
      bound.mapM (Candidate.settle fuel) s = .done settled r' ∧ settled.filterMap id = cs := by
  simp only [Survivors, ← Candidate.bindTypeArgs_eq_done_iff,
    Sieve.iff_mapM fun _ _ _ _ ↦ Candidate.settle_eq_done_iff, exists_and_left]

theorem Survivors.exists_pack (h : Survivors fuel receiver members typeArgs args r cs r') :
    ∀ c ∈ cs, ∃ packed, c.pack r' = .done { c with args := packed } r' := by
  intro c hc
  obtain ⟨bound, s, -, hsettled⟩ := h
  obtain ⟨c₀, -, s₀, s₁, -, hstep, hg⟩ :=
    hsettled.exists_of_mem (fun _ _ _ _ hstep ↦ hstep.grows) hc
  exact Candidate.pack_of_grows hstep.isApplicable hg

theorem exists_survivors_of_dispatch {found : Option Expr}
    (h : dispatch fuel policy span receiver members typeArgs args r = .done found r') :
    ∃ cs, Survivors fuel receiver members typeArgs args r cs r' := by
  obtain ⟨bound, s, hbound, h⟩ := bind_eq_done_iff.1 h
  obtain ⟨settled, s', hsettled, h⟩ := bind_eq_done_iff.1 h
  obtain ⟨packed, s₁, hpacked, h⟩ := bind_eq_done_iff.1 h
  obtain rfl := (Along.mapM _ Candidate.along_pack).of_done hpacked
  rw [get_bind] at h
  obtain ⟨best, s₂, hbest, h⟩ := bind_eq_done_iff.1 h
  obtain ⟨-, rfl⟩ := ofExcept_eq_done_iff.1 hbest
  have hstate : s' = r' := by
    cases best with
    | none => exact (pure_eq_done_iff.1 h).2
    | some c => exact (pure_eq_done_iff.1 h).2
  exact ⟨_, survivors_iff.2 ⟨bound, s, settled, hbound, hstate ▸ hsettled, rfl⟩⟩

/-- The best of the survivors is packed and emitted. -/
theorem Survivors.dispatch_eq (h : Survivors fuel receiver members typeArgs args r cs r')
    {packed : List Candidate} (hpacked : cs.mapM Candidate.pack r' = .done packed r') :
    dispatch fuel policy span receiver members typeArgs args r =
      match Candidate.best r' policy span packed with
      | .ok found => .done (found.map (Candidate.emit r')) r'
      | .error e => .failed e r' := by
  obtain ⟨bound, s, settled, hbound, hsettled, rfl⟩ := survivors_iff.1 h
  unfold dispatch
  rw [bind_apply, hbound]
  dsimp only
  rw [bind_apply, hsettled]
  dsimp only
  rw [bind_apply, hpacked]
  dsimp only
  rw [get_bind]
  cases Candidate.best r' policy span packed with
  | error e => rfl
  | ok found => cases found <;> rfl

theorem Survivors.dispatch_nil (h : Survivors fuel receiver members typeArgs args r [] r') :
    dispatch fuel policy span receiver members typeArgs args r = .done none r' :=
  h.dispatch_eq rfl

theorem Survivors.dispatch_of_leading (h : Survivors fuel receiver members typeArgs args r cs r')
    {c : Candidate} {tied : List Candidate} (hleading : Candidate.leading cs = c :: tied)
    (span : Span) :
    ∃ packed, c.pack r' = .done { c with args := packed } r' ∧ ∀ policy,
      dispatch fuel policy span receiver members typeArgs args r =
        if policy = .reject ∧ tied ≠ [] then
          .failed (.ambiguousOverload c.method.name
            (", ".intercalate ((c :: tied).map (Candidate.describe r'))) span) r'
        else .done (some (Candidate.emit r' { c with args := packed })) r' := by
  have hc : c ∈ cs := (List.mem_filter.1 (hleading ▸ List.mem_cons_self)).1
  choose! packed hpack using h.exists_pack
  let g (c : Candidate) : Candidate := { c with args := packed c }
  have hpacked : cs.mapM Candidate.pack r' = .done (cs.map g) r' := mapM_eq_done_map hpack
  have hg : Candidate.leading (cs.map g) = g c :: tied.map g := by
    rw [Candidate.leading_map (f := g) fun _ ↦ rfl, hleading, List.map_cons]
  have hdescribe : (g c :: tied.map g).map (Candidate.describe r') =
      (c :: tied).map (Candidate.describe r') := by
    rw [← List.map_cons, List.map_map]
    rfl
  refine ⟨packed c, hpack c hc, fun policy ↦ ?_⟩
  rw [h.dispatch_eq hpacked, Candidate.best_of_leading hg, hdescribe]
  by_cases htie : policy = .reject ∧ tied ≠ []
  · rw [if_pos htie, if_pos (by simpa using htie)]
  · rw [if_neg htie, if_neg (by simpa using htie)]
    rfl

/-- A call finds nothing exactly if no member survives. Otherwise it is a call to the first of the
survivors of the best rank, unless there are several of them and ties are rejected: then the error
names them all, in order. -/
theorem dispatch_selects (fuel : Nat) (span : Span) (receiver : Option Expr) (members : List Method)
    (typeArgs : List TypeId) (args : List Expr) (r r' : Registry) :
    (∀ policy, dispatch fuel policy span receiver members typeArgs args r = .done none r' ↔
      Survivors fuel receiver members typeArgs args r [] r') ∧
    ∀ cs, Survivors fuel receiver members typeArgs args r cs r' → cs ≠ [] →
      ∃ c tied c', Candidate.leading cs = c :: tied ∧ c.pack r' = .done c' r' ∧
        dispatch fuel .firstWins span receiver members typeArgs args r =
          .done (some (c'.emit r')) r' ∧
        dispatch fuel .reject span receiver members typeArgs args r =
          if tied = [] then .done (some (c'.emit r')) r'
          else .failed (.ambiguousOverload c.method.name
            (", ".intercalate ((c :: tied).map (Candidate.describe r'))) span) r' := by
  refine ⟨fun policy ↦ ⟨fun hnone ↦ ?_, Survivors.dispatch_nil⟩, fun cs h hcs ↦ ?_⟩
  · obtain ⟨cs, h⟩ := exists_survivors_of_dispatch hnone
    by_cases hcs : cs = []
    · rwa [← hcs]
    · obtain ⟨c, tied, hleading⟩ := Candidate.exists_leading hcs
      obtain ⟨packed, -, hrun⟩ := h.dispatch_of_leading hleading span
      rw [hrun policy] at hnone
      split at hnone <;> cases hnone
  · obtain ⟨c, tied, hleading⟩ := Candidate.exists_leading hcs
    obtain ⟨packed, hpack, hrun⟩ := h.dispatch_of_leading hleading span
    refine ⟨c, tied, _, hleading, hpack, ?_, ?_⟩
    · rw [hrun, if_neg (by simp)]
    · rw [hrun]
      by_cases htied : tied = []
      · rw [if_pos htied, if_neg (by simp [htied])]
      · rw [if_neg htied, if_pos ⟨rfl, htied⟩]

end Survivors

theorem Candidate.isApplicable_of_value? {c : Candidate} {fuel : Nat} {r : Registry} {b : Bool}
    (h : (c.isApplicable fuel r).value? = some b) : c.isApplicable fuel r = .done b r := by
  obtain ⟨s, hs⟩ := Outcome.exists_done h
  obtain rfl := (along_isApplicable c).of_done hs
  exact hs

def showTypes : Registry :=
  builtin.insertInstance
    { name := "array<int>", id := .ofInstance .array [.int], kind := .classType,
      base := some .object, template := some .array, typeArgs := [.int] }

/-- A static method `show` of one parameter. -/
def showOf (id : UInt64) (param : TypeId) (isVariadic : Bool) : Method where
  name := "show"
  owner := .object
  id := ⟨id⟩
  kind := .staticMethod
  params := [⟨"value", param⟩]
  result := .void
  isVariadic := isVariadic

def showMethods : List Method :=
  [showOf 81 (.ofInstance .array [.int]) true, showOf 82 .string false, showOf 83 .int false,
    showOf 84 .object false]

/-- The call `show(1)`: of the three methods that take it, the one with a rest parameter is worse than
the other two. -/
theorem dispatch_selects_show :
    dispatch 5 .firstWins .unknown none showMethods [] [.literal (.int 1)] showTypes =
      .done (some (.call none (showOf 83 .int false) [.literal (.int 1)] .void)) showTypes ∧
    dispatch 5 .reject .unknown none showMethods [] [.literal (.int 1)] showTypes =
      .failed (.ambiguousOverload "show" "show(int), show(object)" .unknown) showTypes := by
  let candidate (m : Method) : Candidate := .ofMethod none [.literal (.int 1)] m
  let rest := candidate (showOf 81 (.ofInstance .array [.int]) true)
  let int := candidate (showOf 83 .int false)
  let object := candidate (showOf 84 .object false)
  have happ (c : Candidate) (b : Bool) (h : (c.isApplicable 5 showTypes).value? = some b) :=
    Candidate.isApplicable_of_value? h
  have hsurvive : Survivors 5 none showMethods [] [.literal (.int 1)] showTypes [rest, int, object]
      showTypes := by
    refine ⟨_, showTypes, .keep (.absent rfl) (.keep (.absent rfl) (.keep (.absent rfl)
      (.keep (.absent rfl) .nil))), .keep (.complete (happ _ _ ?_) rfl)
      (.drop (.inapplicable (happ _ _ ?_)) (.keep (.complete (happ _ _ ?_) rfl)
      (.keep (.complete (happ _ _ ?_) rfl) .nil)))⟩
    all_goals decide +kernel
  obtain ⟨c, tied, c', hleading, hpack, hfirst, hreject⟩ :=
    (dispatch_selects 5 .unknown none showMethods [] [.literal (.int 1)] showTypes showTypes).2 _
      hsurvive (List.cons_ne_nil _ _)
  have hbest : Candidate.leading [rest, int, object] = [int, object] := rfl
  cases hbest.symm.trans hleading
  cases hpack
  exact ⟨hfirst, hreject⟩

end CallResolution
