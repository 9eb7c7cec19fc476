import CallResolution.Proofs.Conversion.Termination
import Mathlib.Data.List.Induction

namespace CallResolution.Registry

open Relation

variable {r : Registry} {fuel : Nat} {seen cs ls bases contracts chain ts us : List TypeId} {t u : TypeId}

theorem mem_foldl_appendNew : u ∈ ts.foldl appendNew seen ↔ u ∈ seen ∨ u ∈ ts := by
  induction ts generalizing seen with
  | nil => simp
  | cons t ts ih => rw [List.foldl_cons, ih, mem_appendNew, List.mem_cons, or_assoc]

theorem foldl_appendNew_of_subset (h : ∀ u ∈ ts, u ∈ seen) : ts.foldl appendNew seen = seen := by
  induction ts with
  | nil => rfl
  | cons t ts ih =>
    obtain ⟨ht, hts⟩ := List.forall_mem_cons.1 h
    rw [List.foldl_cons, appendNew, if_pos ht, ih hts]

theorem foldl_appendNew_nil (ts : List TypeId) : ts.foldl appendNew [] = ts.eraseDups := by
  induction ts using List.reverseRecOn with
  | nil => rfl
  | append_singleton ts t ih =>
    rw [List.foldl_append, ih, List.foldl_cons, List.foldl_nil, List.eraseDups_append, appendNew]
    by_cases h : t ∈ ts <;> simp [List.removeAll, List.eraseDups_cons, h]

theorem foldl_appendNew_foldl (ts us seen : List TypeId) :
    (ts.foldl appendNew us).foldl appendNew seen = ts.foldl appendNew (us.foldl appendNew seen) := by
  induction ts generalizing us with
  | nil => rfl
  | cons t ts ih =>
    rw [List.foldl_cons, List.foldl_cons, ih]
    congr 1
    by_cases ht : t ∈ us
    · have hmem : t ∈ us.foldl appendNew seen := mem_foldl_appendNew.2 (.inr ht)
      rw [appendNew, if_pos ht, appendNew, if_pos hmem]
    · rw [appendNew, if_neg ht, List.foldl_append, List.foldl_cons, List.foldl_nil]

theorem foldl_appendNew_eraseDups (ts seen : List TypeId) :
    ts.eraseDups.foldl appendNew seen = ts.foldl appendNew seen := by
  rw [← foldl_appendNew_nil, foldl_appendNew_foldl, List.foldl_nil]

theorem withObject_eq (r : Registry) (t : TypeId) (ts : List TypeId) :
    r.withObject t ts = (if r.isInterface t then [.object] else []).foldl appendNew ts := by
  unfold withObject
  split <;> rfl

/-- The bases from `base` on, nearest first. -/
inductive Bases (r : Registry) : (base : Option TypeId) → List TypeId → Prop
  | nil : Bases r none []
  | cons {t : TypeId} {ts : List TypeId} (h : Bases r (r.base? t) ts) : Bases r (some t) (t :: ts)

/-- The contracts in turn, each followed depth first by those that it inherits. -/
inductive Unfolds (r : Registry) : (contracts : List TypeId) → List TypeId → Prop
  | nil : Unfolds r [] []
  | cons {c : TypeId} {cs inherited rest : List TypeId} (hc : Unfolds r (r.interfaces c) inherited)
      (hcs : Unfolds r cs rest) : Unfolds r (c :: cs) (c :: (inherited ++ rest))

/-- The type and its bases, then the contracts of each of them, and `object` after an interface. -/
inductive Lineage (r : Registry) : TypeId → List TypeId → Prop
  | mk {t : TypeId} {bases contracts : List TypeId} (hb : Bases r (r.base? t) bases)
      (hc : Unfolds r ((t :: bases).flatMap r.interfaces) contracts) :
      Lineage r t (t :: bases ++ contracts ++ if r.isInterface t then [.object] else [])

/-- The first occurrences of the lineage, then of what is listed for the template, unless the type is
open. -/
inductive Listed (r : Registry) : TypeId → List TypeId → Prop
  | plain {t : TypeId} {ls : List TypeId} (hl : Lineage r t ls)
      (hopen : ∀ template, r.template? t = some template → r.Open t) : Listed r t ls.eraseDups
  | closed {t template : TypeId} {ls us : List TypeId} (hl : Lineage r t ls)
      (ht : r.template? t = some template) (hclosed : ¬r.Open t) (hu : Listed r template us) :
      Listed r t (ls ++ us).eraseDups

/-- No link leads back, bases are not interfaces, and contracts are. -/
structure Hierarchical (r : Registry) : Prop where
  bases : Noncircular fun t u ↦ r.base? t = some u
  contracts : Noncircular fun t u ↦ u ∈ r.interfaces t
  args : Noncircular fun t a ↦ a ∈ r.typeArgs t
  base_class : ∀ t u, r.base? t = some u → r.isInterface u = false
  contract_interface : ∀ t, ∀ u ∈ r.interfaces t, r.isInterface u = true

theorem exists_bases (h : Noncircular fun t u ↦ r.base? t = some u) (base : Option TypeId) :
    ∃ ts, r.Bases base ts := by
  cases base with
  | none => exact ⟨[], .nil⟩
  | some t =>
    induction t using h.wellFounded.induction with
    | _ t ih =>
      cases hb : r.base? t with
      | none => exact ⟨[t], .cons (by rw [hb]; exact .nil)⟩
      | some u =>
        obtain ⟨ts, hts⟩ := ih u hb
        exact ⟨t :: ts, .cons (by rw [hb]; exact hts)⟩

theorem exists_unfolds (h : Noncircular fun t u ↦ u ∈ r.interfaces t) (cs : List TypeId) :
    ∃ ls, r.Unfolds cs ls := by
  have hall : ∀ {cs}, (∀ c ∈ cs, ∃ ls, r.Unfolds (r.interfaces c) ls) → ∃ ls, r.Unfolds cs ls := by
    intro cs hcs
    induction cs with
    | nil => exact ⟨[], .nil⟩
    | cons c cs ih =>
      obtain ⟨hc, hcs⟩ := List.forall_mem_cons.1 hcs
      obtain ⟨inherited, hc⟩ := hc
      obtain ⟨rest, hrest⟩ := ih hcs
      exact ⟨_, .cons hc hrest⟩
  have hone : ∀ c, ∃ ls, r.Unfolds (r.interfaces c) ls := by
    intro c
    induction c using h.wellFounded.induction with
    | _ c ih => exact hall ih
  exact hall fun c _ ↦ hone c

theorem exists_listed (h : r.Hierarchical) (htemplate : Noncircular fun t u ↦ r.template? t = some u)
    (t : TypeId) : ∃ ts, r.Listed t ts := by
  induction t using htemplate.wellFounded.induction with
  | _ t ih =>
    obtain ⟨bases, hb⟩ := exists_bases h.bases (r.base? t)
    obtain ⟨contracts, hc⟩ := exists_unfolds h.contracts ((t :: bases).flatMap r.interfaces)
    by_cases hopen : ∀ template, r.template? t = some template → r.Open t
    · exact ⟨_, .plain (.mk hb hc) hopen⟩
    · simp only [not_forall] at hopen
      obtain ⟨template, ht, hclosed⟩ := hopen
      obtain ⟨us, hu⟩ := ih template ht
      exact ⟨_, .closed (.mk hb hc) ht hclosed hu⟩

theorem derives_of_mem_bases {base : Option TypeId} (h : r.Bases base ts) (hu : u ∈ ts) :
    ∃ v, base = some v ∧ r.Derives v u := by
  induction h with
  | nil => cases hu
  | @cons t ts _ ih =>
    refine ⟨t, rfl, ?_⟩
    rcases List.mem_cons.1 hu with rfl | hu
    · exact .refl
    · obtain ⟨v, hv, hd⟩ := ih hu
      exact .head hv hd

theorem Hierarchical.not_mem_bases (h : r.Hierarchical) (hb : r.Bases (r.base? t) bases) : t ∉ bases := by
  intro ht
  obtain ⟨v, hv, hd⟩ := derives_of_mem_bases hb ht
  exact h.bases t (.head' hv hd)

theorem Hierarchical.base_of_mem (h : r.Hierarchical) (hb : r.Bases (r.base? t) bases) (hu : u ∈ bases) :
    r.isInterface u = false := by
  obtain ⟨v, hv, hd⟩ := derives_of_mem_bases hb hu
  rcases ReflTransGen.cases_tail hd with rfl | ⟨w, -, hw⟩
  · exact h.base_class t u hv
  · exact h.base_class w u hw

theorem mem_unfolds_iff (h : r.Unfolds cs ls) : u ∈ ls ↔ ∃ c ∈ cs, r.Implements c u := by
  induction h with
  | nil => simp
  | @cons c cs inherited rest hc hcs ihc ihcs =>
    have himplements : r.Implements c u ↔ u = c ∨ ∃ d ∈ r.interfaces c, r.Implements d u := by
      rw [Implements, ReflTransGen.cases_head_iff, eq_comm]
    rw [List.mem_cons, List.mem_append, ihc, ihcs, List.exists_mem_cons_iff, himplements, or_assoc]

theorem Hierarchical.contract_of_mem (h : r.Hierarchical) {ts : List TypeId}
    (hc : r.Unfolds (ts.flatMap r.interfaces) ls) (hu : u ∈ ls) : r.isInterface u = true := by
  obtain ⟨c, hc, hreach⟩ := (mem_unfolds_iff hc).1 hu
  obtain ⟨t, -, hc⟩ := List.mem_flatMap.1 hc
  rcases ReflTransGen.cases_tail hreach with rfl | ⟨w, -, hw⟩
  · exact h.contract_interface t _ hc
  · exact h.contract_interface w u hw

theorem unfolds_append {ds : List TypeId} (h : r.Unfolds (cs ++ ds) ls) :
    ∃ ls₁ ls₂, ls = ls₁ ++ ls₂ ∧ r.Unfolds cs ls₁ ∧ r.Unfolds ds ls₂ := by
  induction cs generalizing ls with
  | nil => exact ⟨[], ls, rfl, .nil, h⟩
  | cons c cs ih =>
    cases h with
    | @cons _ _ inherited rest hc hcs =>
      obtain ⟨ls₁, ls₂, rfl, h₁, h₂⟩ := ih hcs
      exact ⟨c :: (inherited ++ ls₁), ls₂, by simp, .cons hc h₁, h₂⟩

/-- With a contract that was seen all that it inherits was seen, so nothing is lost by passing it over. -/
theorem contracts_eq (h : r.Hierarchical) (hl : r.Unfolds cs ls)
    (hseen : ∀ u ∈ ls, u ∈ seen → ∀ c, r.Implements u c → c ∈ seen)
    (hrun : cs.foldlM (r.visitContract fuel) seen = some ts) : ts = ls.foldl appendNew seen := by
  induction hl generalizing fuel seen ts with
  | nil =>
    cases hrun
    rfl
  | @cons c cs inherited rest hc hcs ihc ihcs =>
    rw [List.foldlM_cons] at hrun
    obtain ⟨us, hus, hrun⟩ := Option.bind_eq_some_iff.1 hrun
    obtain ⟨hseenc, hseen⟩ := List.forall_mem_cons.1 hseen
    have hbelow : ∀ u ∈ inherited, r.Implements c u := by
      intro u hu
      obtain ⟨d, hd, hreach⟩ := (mem_unfolds_iff hc).1 hu
      exact .head hd hreach
    cases fuel with
    | zero => cases hus
    | succ fuel =>
      rw [visitContract] at hus
      split at hus
      · rename_i hmem
        cases hus
        have hinherited : ∀ u ∈ inherited, u ∈ seen := fun u hu ↦ hseenc hmem u (hbelow u hu)
        rw [List.foldl_cons, appendNew, if_pos hmem, List.foldl_append,
          foldl_appendNew_of_subset hinherited]
        exact ihcs (fun u hu ↦ hseen u (List.mem_append_right _ hu)) hrun
      · rename_i hmem
        have hnew : c ∉ inherited := by
          intro hu
          obtain ⟨d, hd, hreach⟩ := (mem_unfolds_iff hc).1 hu
          exact h.contracts c (.head' hd hreach)
        have hus : us = inherited.foldl appendNew (seen ++ [c]) := by
          refine ihc (fun u hu hmem d hd ↦ ?_) hus
          rcases List.mem_append.1 hmem with hmem | hmem
          · exact List.mem_append_left _ (hseen u (List.mem_append_left _ hu) hmem d hd)
          · rw [List.mem_singleton.1 hmem] at hu
            exact absurd hu hnew
        rw [List.foldl_cons, appendNew, if_neg hmem, List.foldl_append, ← hus]
        refine ihcs (fun u hu hmem d hd ↦ ?_) hrun
        rw [hus, mem_foldl_appendNew, List.mem_append, List.mem_singleton] at hmem ⊢
        rcases hmem with (hmem | rfl) | hmem
        · exact .inl (.inl (hseen u (List.mem_append_right _ hu) hmem d hd))
        · rcases ReflTransGen.cases_head hd with rfl | ⟨e, he, hreach⟩
          · exact .inl (.inr rfl)
          · exact .inr ((mem_unfolds_iff hc).2 ⟨e, he, hreach⟩)
        · obtain ⟨e, he, hreach⟩ := (mem_unfolds_iff hc).1 hmem
          exact .inr ((mem_unfolds_iff hc).2 ⟨e, he, hreach.trans hd⟩)

theorem subset_of_bases {base : Option TypeId} (h : r.Bases base bases)
    (hfirst : ∀ u, base = some u → u ∈ seen)
    (hseen : ∀ u ∈ bases, u ∈ seen → ∀ v, r.base? u = some v → v ∈ seen) : ∀ u ∈ bases, u ∈ seen := by
  induction h with
  | nil => simp
  | @cons t ts _ ih =>
    obtain ⟨ht, hseen⟩ := List.forall_mem_cons.1 hseen
    have hmem := hfirst t rfl
    exact List.forall_mem_cons.2 ⟨hmem, ih (ht hmem) hseen⟩

/-- The walk stops at a base that was seen, and the further bases were seen too. -/
theorem baseChain_eq (h : r.Hierarchical) {base : Option TypeId} (hb : r.Bases base bases)
    (hseen : ∀ u ∈ bases, u ∈ seen → ∀ v, r.base? u = some v → v ∈ seen)
    (hrun : r.baseChain fuel seen base = some chain) :
    bases.foldl appendNew seen = seen ++ chain ∧ ∃ rest, bases = chain ++ rest ∧ ∀ u ∈ rest, u ∈ seen := by
  induction hb generalizing fuel seen chain with
  | nil =>
    have hchain : chain = [] := by cases fuel <;> cases hrun <;> rfl
    subst hchain
    exact ⟨by simp, [], rfl, by simp⟩
  | @cons t ts hts ih =>
    cases fuel with
    | zero => cases hrun
    | succ fuel =>
      rw [baseChain] at hrun
      split at hrun
      · rename_i ht
        cases hrun
        have hall : ∀ u ∈ t :: ts, u ∈ seen := by
          refine subset_of_bases (.cons hts) ?_ hseen
          rintro u ⟨⟩
          exact ht
        exact ⟨by rw [foldl_appendNew_of_subset hall, List.append_nil], t :: ts, rfl, hall⟩
      · rename_i ht
        obtain ⟨chain', hchain', hrun⟩ := Option.bind_eq_some_iff.1 hrun
        cases hrun
        have hnew : t ∉ ts := h.not_mem_bases hts
        have hold : ∀ u ∈ ts, u ∈ seen ++ [t] → u ∈ seen := by
          intro u hu hmem
          refine (List.mem_append.1 hmem).resolve_right fun hut ↦ ?_
          rw [List.mem_singleton.1 hut] at hu
          exact hnew hu
        have hclosed : ∀ u ∈ ts, u ∈ seen ++ [t] → ∀ v, r.base? u = some v → v ∈ seen ++ [t] := by
          intro u hu hmem v hv
          exact List.mem_append_left _ (hseen u (List.mem_cons_of_mem t hu) (hold u hu hmem) v hv)
        obtain ⟨hfold, rest, hsplit, hrest⟩ := ih hclosed hchain'
        refine ⟨?_, rest, by rw [hsplit, List.cons_append], fun u hu ↦ hold u ?_ (hrest u hu)⟩
        · rw [List.foldl_cons, appendNew, if_neg ht, hfold, List.append_assoc, List.singleton_append]
        · rw [hsplit]
          exact List.mem_append_right _ hu

theorem Saturated.mem_of_unfolds (h : r.Saturated seen) (hts : ∀ t ∈ ts, t ∈ seen)
    (hl : r.Unfolds (ts.flatMap r.interfaces) ls) : ∀ u ∈ ls, u ∈ seen := by
  intro u hu
  obtain ⟨c, hc, hreach⟩ := (mem_unfolds_iff hl).1 hu
  obtain ⟨t, ht, hc⟩ := List.mem_flatMap.1 hc
  exact h.mem_of_implements (h.contracts t (hts t ht) c hc) hreach

/-- The contracts of `t` come before those of its bases, among which `t` may be met again. -/
theorem contracts_eq_of_bases (h : r.Hierarchical) (hseen : r.Saturated seen)
    (hchain : ∀ u ∈ chain, r.isInterface u = false) {own inherited : List TypeId}
    (hown : r.Unfolds (r.interfaces t) own) (hinherited : r.Unfolds (chain.flatMap r.interfaces) inherited)
    (hrun : ((unseen seen t ++ chain).flatMap r.interfaces).foldlM (r.visitContract fuel)
      (appendNew seen t ++ chain) = some ts) :
    ts = inherited.foldl appendNew (own.foldl appendNew (appendNew seen t ++ chain)) := by
  have hown' : r.Unfolds ([t].flatMap r.interfaces) own := by simpa using hown
  have hold : ∀ {u}, u ∈ seen → u ∈ appendNew seen t ++ chain := fun hu ↦
    List.mem_append_left chain (mem_appendNew.2 (.inl hu))
  have hstart : ∀ {u}, u ∈ appendNew seen t ++ chain → r.isInterface u = true → u ∈ seen ∨ u = t := by
    intro u hu hi
    rw [List.mem_append, mem_appendNew] at hu
    refine hu.resolve_right fun hu ↦ ?_
    rw [hchain u hu] at hi
    cases hi
  have hinherit : ∀ u ∈ inherited, u ∈ own.foldl appendNew (appendNew seen t ++ chain) →
      ∀ c, r.Implements u c → c ∈ own.foldl appendNew (appendNew seen t ++ chain) := by
    intro u hu hmem c hc
    rw [mem_foldl_appendNew] at hmem ⊢
    rcases hmem with hmem | hmem
    · rcases hstart hmem (h.contract_of_mem hinherited hu) with hseenu | rfl
      · exact .inl (hold (hseen.mem_of_implements hseenu hc))
      · rcases ReflTransGen.cases_head hc with rfl | ⟨d, hd, hreach⟩
        · exact .inl hmem
        · exact .inr ((mem_unfolds_iff hown).2 ⟨d, hd, hreach⟩)
    · obtain ⟨d, hd, hreach⟩ := (mem_unfolds_iff hown).1 hmem
      exact .inr ((mem_unfolds_iff hown).2 ⟨d, hd, hreach.trans hc⟩)
  rw [List.flatMap_append, List.foldlM_append] at hrun
  obtain ⟨us, hus, hrun⟩ := Option.bind_eq_some_iff.1 hrun
  have hus : us = own.foldl appendNew (appendNew seen t ++ chain) := by
    by_cases ht : t ∈ seen
    · have hpassed : ∀ u ∈ own, u ∈ appendNew seen t ++ chain := fun u hu ↦
        hold (hseen.mem_of_unfolds (by simpa using ht) hown' u hu)
      rw [unseen, if_pos ht] at hus
      cases hus
      rw [foldl_appendNew_of_subset hpassed]
    · rw [unseen, if_neg ht, List.flatMap_singleton] at hus
      refine contracts_eq h hown (fun u hu hmem c hc ↦ ?_) hus
      rcases hstart hmem (h.contract_of_mem hown' hu) with hseenu | rfl
      · exact hold (hseen.mem_of_implements hseenu hc)
      · obtain ⟨d, hd, hreach⟩ := (mem_unfolds_iff hown).1 hu
        exact absurd (.head' hd hreach) (h.contracts u)
  subst hus
  exact contracts_eq h hinherited hinherit hrun

/-- One round of the walk adds the lineage of `t` to what was seen. What is passed over was seen with
all its bases and contracts. -/
theorem round_eq (h : r.Hierarchical) (hseen : r.Saturated seen) (hb : r.Bases (r.base? t) bases)
    (hc : r.Unfolds ((t :: bases).flatMap r.interfaces) contracts) (hround : r.Round fuel seen t ts) :
    ts = (t :: bases ++ contracts).foldl appendNew seen := by
  obtain ⟨chain, hchain, hrun⟩ := hround
  have hself : ∀ u ∈ bases, u ∈ appendNew seen t → u ∈ seen := by
    intro u hu hmem
    refine (mem_appendNew.1 hmem).resolve_right ?_
    rintro rfl
    exact h.not_mem_bases hb hu
  have hclosed : ∀ u ∈ bases, u ∈ appendNew seen t → ∀ v, r.base? u = some v → v ∈ appendNew seen t := by
    intro u hu hmem v hv
    rcases hseen.base u (hself u hu hmem) v hv with hmem | ⟨w, -, hw⟩
    · exact mem_appendNew.2 (.inl hmem)
    · have hclass := h.base_of_mem hb hu
      rw [h.contract_interface w u hw] at hclass
      cases hclass
  obtain ⟨hfold, rest, rfl, hrest⟩ := baseChain_eq h hb hclosed hchain
  rw [List.flatMap_cons, List.flatMap_append] at hc
  obtain ⟨own, inherited, rfl, hown, hc⟩ := unfolds_append hc
  obtain ⟨taken, passed, rfl, htaken, hpassed⟩ := unfolds_append hc
  have hts := contracts_eq_of_bases h hseen
    (fun u hu ↦ h.base_of_mem hb (List.mem_append_left rest hu)) hown htaken hrun
  have hpassed : ∀ u ∈ passed, u ∈ seen := by
    refine hseen.mem_of_unfolds (fun u hu ↦ ?_) hpassed
    exact hself u (List.mem_append_right chain hu) (hrest u hu)
  rw [List.foldl_append, List.foldl_cons, hfold, List.foldl_append, List.foldl_append, ← hts]
  refine (foldl_appendNew_of_subset fun u hu ↦ ?_).symm
  rw [hts, mem_foldl_appendNew, mem_foldl_appendNew, List.mem_append, mem_appendNew]
  exact .inl (.inl (.inl (.inl (hpassed u hu))))

theorem lineage_eq (h : r.Hierarchical) (hseen : r.Saturated seen) (hl : r.Lineage t ls)
    (hround : r.Round fuel seen t contracts) : r.withObject t contracts = ls.foldl appendNew seen := by
  obtain ⟨hb, hc⟩ := hl
  rw [List.foldl_append, ← round_eq h hseen hb hc hround, withObject_eq]

/-- The walk from `t` adds what is to be listed for `t` to what was seen. -/
theorem visitConvertible_eq (h : r.Hierarchical) (htop : r.ObjectOnTop) (hseen : r.Saturated seen)
    (hl : r.Listed t us) (hrun : r.visitConvertible fuel seen t = some ts) :
    ts = us.foldl appendNew seen := by
  induction fuel generalizing seen t us ts with
  | zero => cases hrun
  | succ fuel ih =>
    obtain ⟨contracts, hround, hrun⟩ := visitConvertible_eq_some_iff.1 hrun
    cases hl with
    | plain hlineage hopen =>
      rw [foldl_appendNew_eraseDups, ← lineage_eq h hseen hlineage hround]
      rcases hrun with ⟨rfl, -⟩ | ⟨template, ht, hclosed, -⟩
      · rfl
      · exact absurd ((isOpen_iff hclosed).2 (hopen template ht)) Bool.false_ne_true
    | closed hlineage ht hclosed hu =>
      rw [foldl_appendNew_eraseDups, List.foldl_append, ← lineage_eq h hseen hlineage hround]
      rcases hrun with ⟨-, hopen⟩ | ⟨template, ht', -, hrun⟩
      · exact absurd ((isOpen_iff (hopen _ ht)).1 rfl) hclosed
      · cases ht.symm.trans ht'
        exact ih ((hseen.round hround).withObject htop t) hu hrun

theorem Listed.foldl_nil (h : r.Listed t us) : us.foldl appendNew [] = us := by
  cases h <;> rw [foldl_appendNew_eraseDups, foldl_appendNew_nil]

theorem Listed.answers (h : r.Hierarchical) (htop : r.ObjectOnTop)
    (htemplate : Noncircular fun t u ↦ r.template? t = some u) (hl : r.Listed t us) :
    Answers (r.convertible · t) us := by
  obtain ⟨ts, hts⟩ := ends_convertible_of_noncircular htemplate h.args t
  obtain ⟨n, hn⟩ := hts.exists_eq
  have heq : ts = us := (visitConvertible_eq h htop .nil hl hn).trans hl.foldl_nil
  rwa [heq] at hts

/-- The types that a value converts to are listed in order: the type and its bases, the contracts of
each of them, `object` after an interface, and what is listed for the template of a closed instance. -/
theorem convertible_listed (hr : ReflTransGen (Step fun d ↦ d.template = none) builtin r)
    (h : r.Hierarchical) (t : TypeId) :
    ∃ ts, Answers (r.convertible · t) ts ∧ (∀ us, r.Listed t us ↔ us = ts) ∧ ts.Nodup ∧
      ts.head? = some t ∧ ∀ template, r.template? t = some template → ¬r.Open t →
        ∃ us, Answers (r.convertible · template) us ∧ us ⊆ ts := by
  have htop := objectOnTop_of_steps hr
  have htemplate := noncircular_template? (fun _ hd ↦ hd) (reachable_of_steps hr)
  obtain ⟨ts, hl⟩ := exists_listed h htemplate t
  have hts := hl.answers h htop htemplate
  obtain ⟨n, hn⟩ := hts.exists_eq
  refine ⟨ts, hts, fun us ↦ ⟨fun hu ↦ (hu.answers h htop htemplate).unique hts, ?_⟩,
    nodup_visitConvertible hn List.nodup_nil, ?_, ?_⟩
  · rintro rfl
    exact hl
  · obtain ⟨m, chain, -, rest, hprefix⟩ := convertible_eq_some hn
    rw [← hprefix]
    rfl
  · intro template ht hclosed
    cases hl with
    | plain _ hopen => exact absurd (hopen template ht) hclosed
    | closed _ ht' _ hu =>
      cases ht.symm.trans ht'
      refine ⟨_, hu.answers h htop htemplate, fun u hu ↦ ?_⟩
      exact List.mem_eraseDups.2 (List.mem_append_right _ hu)

/-- A rank that falls along every link shows that none leads back. -/
theorem hierarchical_of_rank (rank : TypeId → Nat)
    (h : ∀ e ∈ r.types.entries ++ r.instances.entries,
      (∀ u ∈ (r.base? e.1).toList, rank u < rank e.1 ∧ r.isInterface u = false) ∧
      (∀ u ∈ r.interfaces e.1, rank u < rank e.1 ∧ r.isInterface u = true) ∧
      ∀ a ∈ r.typeArgs e.1, rank a < rank e.1) : r.Hierarchical := by
  have hknown : ∀ t, r.find? t = none ∨ ∃ e ∈ r.types.entries ++ r.instances.entries, e.1 = t := by
    intro t
    cases hd : r.find? t with
    | none => exact .inl rfl
    | some d => exact .inr ⟨_, mem_entries_of_find? hd, rfl⟩
  have hbase : ∀ t u, r.base? t = some u → rank u < rank t ∧ r.isInterface u = false := by
    intro t u hu
    rcases hknown t with hnone | ⟨e, he, rfl⟩
    · simp [base?, hnone] at hu
    · exact (h e he).1 u (by simp [hu])
  have hcontract : ∀ t, ∀ u ∈ r.interfaces t, rank u < rank t ∧ r.isInterface u = true := by
    intro t u hu
    rcases hknown t with hnone | ⟨e, he, rfl⟩
    · simp [interfaces, hnone] at hu
    · exact (h e he).2.1 u hu
  have harg : ∀ t, ∀ a ∈ r.typeArgs t, rank a < rank t := by
    intro t a ha
    rcases hknown t with hnone | ⟨e, he, rfl⟩
    · simp [typeArgs, hnone] at ha
    · exact (h e he).2.2 a ha
  exact {
    bases := noncircular_of_lt rank fun t u hu ↦ (hbase t u hu).1
    contracts := noncircular_of_lt rank fun t u hu ↦ (hcontract t u hu).1
    args := noncircular_of_lt rank harg
    base_class := fun t u hu ↦ (hbase t u hu).2
    contract_interface := fun t u hu ↦ (hcontract t u hu).2 }

def seq : TypeId := .ofName "ISeq"
def queue : TypeId := .ofName "IQueue"
def deque : TypeId := .ofName "Deque"
def dequeItem : TypeId := .ofParam "Deque" "T"

/-- Names `ISeq` among its contracts, which it inherits from `IQueue` too. -/
def dequeDecl : TypeDecl where
  name := "Deque"
  id := deque
  kind := .classType
  interfaces := [queue, seq]
  typeParams := [dequeItem]

def makeDeque : Attempt Registry RegistrationError TypeId := do
  let _ ← register { name := "ISeq", id := seq, kind := .interfaceType }
  let _ ← register { name := "IQueue", id := queue, kind := .interfaceType, interfaces := [seq] }
  let _ ← registerParam "T" { owner := "Deque", index := 0 }
  let template ← register dequeDecl
  instantiate 3 template [.int]

def dequeTypes : Registry := (makeDeque builtin).state?.getD {}

theorem steps_dequeTypes : ReflTransGen (Step fun d ↦ d.template = none) builtin dequeTypes := by
  refine steps_getD ?_ (by decide +kernel)
  refine Attempt.Along.bind (fun _ _ h ↦ .single (.register rfl h)) fun _ ↦ ?_
  refine Attempt.Along.bind (fun _ _ h ↦ .single (.register rfl h)) fun _ ↦ ?_
  refine Attempt.Along.bind (fun _ _ h ↦ .single (.registerParam h)) fun _ ↦ ?_
  exact Attempt.Along.bind (fun _ _ h ↦ .single (.register rfl h)) fun _ _ _ h ↦ .single (.instantiate h)

theorem hierarchical_dequeTypes : dequeTypes.Hierarchical :=
  hierarchical_of_rank [.object, .int, seq, queue, deque].idxOf (by decide +kernel)

theorem convertible_listed_deque :
    dequeTypes.Hierarchical ∧
      ∃ ts, Answers (dequeTypes.convertible · (.ofInstance deque [.int])) ts ∧
        dequeTypes.Listed (.ofInstance deque [.int]) ts ∧ ts.Nodup ∧
        ts = [.ofInstance deque [.int], .object, queue, seq, deque] := by
  obtain ⟨ts, hts, hlisted, hnodup, -⟩ :=
    convertible_listed steps_dequeTypes hierarchical_dequeTypes (.ofInstance deque [.int])
  refine ⟨hierarchical_dequeTypes, ts, hts, (hlisted ts).2 rfl, hnodup, hts.unique ?_⟩
  exact .of_eq (dequeTypes.convertible_succ · _) (n := 5) (by decide +kernel)

end CallResolution.Registry
