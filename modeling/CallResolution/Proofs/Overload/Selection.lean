import CallResolution.Proofs.Overload.Prefilter

namespace CallResolution

open Attempt Registry

variable {fuel : Nat} {r : Registry} {receiver : Option Expr} {args : List Expr} {span : Span}

theorem Rank.le_refl (a : Rank) : a.le a = true := by simp [le]

namespace Method

/-- The method takes its arguments one by one, and nothing about it is left to infer. -/
structure IsPlain (m : Method) : Prop where
  bound : m.isUnboundGeneric = false
  fixed : m.isVariadic = false
  not_extension : m.isExtension = false

end Method

namespace Candidate

theorem ranked_of_rank_eq {cs : List Candidate} {k : Rank} (h : ∀ c ∈ cs, c.rank = k) :
    ranked cs = cs := by
  induction cs with
  | nil => rfl
  | cons c cs ih =>
    obtain ⟨hc, hcs⟩ := List.forall_mem_cons.1 h
    change insertRanked c (ranked cs) = c :: cs
    rw [ih hcs]
    cases cs with
    | nil => rfl
    | cons d ds =>
      have hle : c.rank.le d.rank = true := by
        rw [hc, hcs d List.mem_cons_self]
        exact Rank.le_refl k
      rw [insertRanked, if_pos hle]

theorem best_firstWins (cs : List Candidate) : best r .firstWins span cs = .ok (ranked cs).head? := by
  unfold best
  cases ranked cs with
  | nil => rfl
  | cons c rest => simp

theorem settle_of_plain {m : Method} (hm : m.IsPlain) {b : Bool}
    (h : (ofMethod receiver args m).isApplicable fuel r = .done b r) :
    (ofMethod receiver args m).settle fuel r =
      .done (if b then some (ofMethod receiver args m) else none) r := by
  refine bind_eq_done_iff.2 ⟨b, r, h, ?_⟩
  simp only [ofMethod_method, hm.bound, Bool.false_eq_true, if_false]
  cases b <;> rfl

theorem pack_of_plain {m : Method} (hm : m.IsPlain) :
    (ofMethod receiver args m).pack r = .done (ofMethod receiver args m) r := by
  simp only [pack, ofMethod_method, hm.fixed, Bool.false_eq_true, if_false, pure_apply]

theorem rank_of_plain {m : Method} (hm : m.IsPlain) :
    (ofMethod receiver args m).rank = ⟨false, false, 0⟩ := by
  simp only [rank, ofMethod, hm.not_extension, hm.fixed, Bool.false_eq_true, if_false]
  rfl

end Candidate

theorem dispatch_of_plain {members : List Method} {applies : Method → Bool}
    (hplain : ∀ m ∈ members, m.IsPlain)
    (happlies : ∀ m ∈ members,
      (Candidate.ofMethod receiver args m).isApplicable fuel r = .done (applies m) r) :
    dispatch fuel .firstWins span receiver members [] args r =
      .done ((members.find? applies).map fun m ↦ (Candidate.ofMethod receiver args m).emit r) r := by
  let candidate := Candidate.ofMethod receiver args
  have hsettled : (members.map candidate).mapM (Candidate.settle fuel) r =
      .done (members.map fun m ↦ if applies m then some (candidate m) else none) r := by
    rw [List.mapM_map]
    exact mapM_eq_done_map fun m hm ↦ Candidate.settle_of_plain (hplain m hm) (happlies m hm)
  have hkept : (members.map fun m ↦ if applies m then some (candidate m) else none).filterMap id =
      (members.filter applies).map candidate := by
    rw [List.filterMap_map, ← List.filterMap_eq_map, ← List.filterMap_eq_filter, List.filterMap_filterMap]
    refine List.filterMap_congr fun m _ ↦ ?_
    cases happ : applies m <;> simp [Option.guard, happ]
  have hpacked : ((members.filter applies).map candidate).mapM Candidate.pack r =
      .done ((members.filter applies).map candidate) r := by
    rw [List.mapM_map]
    exact mapM_eq_done_map fun m hm ↦ Candidate.pack_of_plain (hplain m (List.mem_filter.1 hm).1)
  have hranked : Candidate.ranked ((members.filter applies).map candidate) =
      (members.filter applies).map candidate := by
    refine Candidate.ranked_of_rank_eq (k := ⟨false, false, 0⟩) fun c hc ↦ ?_
    obtain ⟨m, hm, rfl⟩ := List.mem_map.1 hc
    exact Candidate.rank_of_plain (hplain m (List.mem_filter.1 hm).1)
  have hbest : Candidate.best r .firstWins span ((members.filter applies).map candidate) =
      .ok ((members.find? applies).map candidate) := by
    rw [Candidate.best_firstWins, hranked, List.head?_map, List.head?_filter]
  refine bind_eq_done_iff.2 ⟨members.map candidate, r, rfl, ?_⟩
  refine bind_eq_done_iff.2 ⟨_, r, hsettled, ?_⟩
  rw [hkept]
  refine bind_eq_done_iff.2 ⟨_, r, hpacked, ?_⟩
  rw [get_bind, hbest]
  cases members.find? applies <;> rfl

end CallResolution
