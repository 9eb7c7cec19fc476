import CallResolution.Conversion
import CallResolution.Proofs.Answer
import Mathlib.Data.List.Chain
import Mathlib.Logic.Relation

namespace CallResolution.Registry

open Relation

variable {r : Registry} {fuel : Nat} {seen chain ts : List TypeId} {t u : TypeId}

/-- A chain of bases leads from the first type to the second. -/
def Derives (r : Registry) : TypeId → TypeId → Prop := ReflTransGen fun t u ↦ r.base? t = some u

instance : IsTrans TypeId r.Derives := ⟨fun _ _ _ ↦ ReflTransGen.trans⟩

theorem isChain_baseChain (h : r.baseChain fuel seen (r.base? t) = some chain) :
    List.IsChain (fun t u ↦ r.base? t = some u) (t :: chain) := by
  induction fuel generalizing seen t chain with
  | zero =>
    cases hb : r.base? t <;> rw [hb] at h <;> cases h
    exact .singleton t
  | succ fuel ih =>
    cases hb : r.base? t with
    | none =>
      rw [hb] at h
      cases h
      exact .singleton t
    | some u =>
      rw [hb, baseChain] at h
      split at h
      · cases h
        exact .singleton t
      · obtain ⟨rest, hrest, h⟩ := Option.bind_eq_some_iff.1 h
        cases h
        exact .cons_cons hb (ih hrest)

/-- The walk along the bases stops only at the end or at a type that it has passed. -/
theorem closed_baseChain {base : Option TypeId} (h : r.baseChain fuel seen base = some chain) :
    (∀ u, base = some u → u ∈ seen ∨ u ∈ chain) ∧
      ∀ t ∈ chain, ∀ u, r.base? t = some u → u ∈ seen ∨ u ∈ chain := by
  induction fuel generalizing seen base chain with
  | zero =>
    cases base with
    | none =>
      cases h
      simp
    | some t => cases h
  | succ fuel ih =>
    cases base with
    | none =>
      cases h
      simp
    | some t =>
      rw [baseChain] at h
      split at h
      · rename_i hseen
        cases h
        simpa using hseen
      · obtain ⟨rest, hrest, h⟩ := Option.bind_eq_some_iff.1 h
        cases h
        obtain ⟨hfirst, hnext⟩ := ih hrest
        have hmem : ∀ u, u ∈ seen ++ [t] ∨ u ∈ rest → u ∈ seen ∨ u ∈ t :: rest := by
          intro u hu
          simp only [List.mem_append, List.mem_cons, List.not_mem_nil, or_false] at hu ⊢
          tauto
        refine ⟨by simp, ?_⟩
        intro v hv u hu
        rcases List.mem_cons.1 hv with rfl | hv
        · exact hmem u (hfirst u hu)
        · exact hmem u (hnext v hv u hu)

theorem mem_of_derives (h : r.baseChain fuel [t] (r.base? t) = some chain) (hd : r.Derives t u) :
    u ∈ t :: chain := by
  obtain ⟨hfirst, hnext⟩ := closed_baseChain h
  induction hd with
  | refl => exact List.mem_cons_self
  | @tail v w _ hbase ih =>
    have hw : w ∈ [t] ∨ w ∈ chain := by
      rcases List.mem_cons.1 ih with rfl | hv
      · exact hfirst w hbase
      · exact hnext v hv w hbase
    rwa [List.mem_singleton, ← List.mem_cons] at hw

theorem prefix_visitContract (h : r.visitContract fuel seen t = some ts) : seen <+: ts := by
  induction fuel generalizing seen t ts with
  | zero => cases h
  | succ fuel ih =>
    rw [visitContract] at h
    split at h
    · cases h
      exact List.prefix_rfl
    · exact (List.prefix_append seen [t]).trans (prefix_foldlM (fun _ _ _ ↦ ih) h)

theorem prefix_appendNew (seen : List TypeId) (t : TypeId) : seen <+: appendNew seen t := by
  unfold appendNew
  split
  · exact List.prefix_rfl
  · exact List.prefix_append seen [t]

/-- An interface converts to `object`. -/
def withObject (r : Registry) (t : TypeId) (ts : List TypeId) : List TypeId :=
  if r.isInterface t then appendNew ts .object else ts

theorem prefix_withObject (r : Registry) (t : TypeId) (ts : List TypeId) : ts <+: r.withObject t ts := by
  unfold withObject
  split
  · exact prefix_appendNew ts .object
  · exact List.prefix_rfl

/-- The type itself, unless it was seen. -/
def unseen (seen : List TypeId) (t : TypeId) : List TypeId := if t ∈ seen then [] else [t]

theorem appendNew_eq (seen : List TypeId) (t : TypeId) : appendNew seen t = seen ++ unseen seen t := by
  unfold appendNew unseen
  split <;> simp

/-- What was seen is followed by `t`, unless it is there, and by the bases and the contracts of `t`. -/
inductive Round (r : Registry) (fuel : Nat) (seen : List TypeId) (t : TypeId) : List TypeId → Prop
  | mk {contracts : List TypeId} (chain : List TypeId)
      (hchain : r.baseChain fuel (appendNew seen t) (r.base? t) = some chain)
      (hcontracts : ((unseen seen t ++ chain).flatMap r.interfaces).foldlM (r.visitContract fuel)
        (appendNew seen t ++ chain) = some contracts) : Round r fuel seen t contracts

theorem Round.isPrefix (h : r.Round fuel seen t ts) : seen <+: ts := by
  obtain ⟨chain, -, hcontracts⟩ := h
  have hprefix := prefix_foldlM (fun _ _ _ hstep ↦ prefix_visitContract hstep) hcontracts
  exact (prefix_appendNew seen t).trans ((List.prefix_append _ _).trans hprefix)

/-- After the round `object` is added to an interface, and the types of the template come last. -/
theorem visitConvertible_eq_some_iff : r.visitConvertible (fuel + 1) seen t = some ts ↔
    ∃ contracts, r.Round fuel seen t contracts ∧
      ((ts = r.withObject t contracts ∧
          ∀ template, r.template? t = some template → r.isOpen fuel t = some true) ∨
        ∃ template, r.template? t = some template ∧ r.isOpen fuel t = some false ∧
          r.visitConvertible fuel (r.withObject t contracts) template = some ts) := by
  have hround : ∀ contracts, r.Round fuel seen t contracts ↔ ∃ chain,
      r.baseChain fuel (seen ++ unseen seen t) (r.base? t) = some chain ∧
        ((unseen seen t ++ chain).flatMap r.interfaces).foldlM (r.visitContract fuel)
          (seen ++ (unseen seen t ++ chain)) = some contracts := by
    intro contracts
    simp only [← List.append_assoc, ← appendNew_eq]
    constructor <;> exact fun ⟨chain, hchain, hcontracts⟩ ↦ ⟨chain, hchain, hcontracts⟩
  rw [visitConvertible]
  simp only [Option.bind_eq_bind, Option.bind_eq_some_iff]
  constructor
  · rintro ⟨chain, hchain, contracts, hcontracts, h⟩
    refine ⟨contracts, (hround contracts).2 ⟨chain, hchain, hcontracts⟩, ?_⟩
    cases htemplate : r.template? t with
    | none =>
      rw [htemplate] at h
      cases h
      exact .inl ⟨rfl, by simp⟩
    | some template =>
      rw [htemplate] at h
      obtain ⟨isOpen, hopen, h⟩ := Option.bind_eq_some_iff.1 h
      cases isOpen with
      | true =>
        cases h
        exact .inl ⟨rfl, fun _ _ ↦ hopen⟩
      | false => exact .inr ⟨template, rfl, hopen, h⟩
  · rintro ⟨contracts, hcontracts, h⟩
    obtain ⟨chain, hchain, hcontracts⟩ := (hround contracts).1 hcontracts
    refine ⟨chain, hchain, contracts, hcontracts, ?_⟩
    rcases h with ⟨rfl, hopen⟩ | ⟨template, htemplate, hopen, h⟩
    · cases htemplate : r.template? t with
      | none => rfl
      | some template => exact Option.bind_eq_some_iff.2 ⟨true, hopen template htemplate, rfl⟩
    · rw [htemplate]
      exact Option.bind_eq_some_iff.2 ⟨false, hopen, h⟩

theorem prefix_visitConvertible (h : r.visitConvertible fuel seen t = some ts) : seen <+: ts := by
  induction fuel generalizing seen t ts with
  | zero => cases h
  | succ fuel ih =>
    obtain ⟨contracts, hround, h⟩ := visitConvertible_eq_some_iff.1 h
    have hobject := hround.isPrefix.trans (prefix_withObject r t contracts)
    rcases h with ⟨rfl, -⟩ | ⟨template, -, -, h⟩
    · exact hobject
    · exact hobject.trans (ih h)

theorem convertible_eq_some (h : r.convertible fuel t = some ts) :
    ∃ n chain, r.baseChain n [t] (r.base? t) = some chain ∧ t :: chain <+: ts := by
  cases fuel with
  | zero => cases h
  | succ fuel =>
    obtain ⟨contracts, ⟨chain, hchain, hcontracts⟩, h⟩ := visitConvertible_eq_some_iff.1 h
    have hprefix : t :: chain <+: contracts :=
      prefix_foldlM (fun _ _ _ hstep ↦ prefix_visitContract hstep) hcontracts
    have hobject := hprefix.trans (prefix_withObject r t contracts)
    refine ⟨fuel, chain, hchain, ?_⟩
    rcases h with ⟨rfl, -⟩ | ⟨template, -, -, h⟩
    · exact hobject
    · exact hobject.trans (prefix_visitConvertible h)

theorem mem_convertible_of_derives (hd : r.Derives t u) (h : r.convertible fuel t = some ts) : u ∈ ts := by
  obtain ⟨n, chain, hchain, hprefix⟩ := convertible_eq_some h
  exact hprefix.subset (mem_of_derives hchain hd)

/-- What stands before a base of `t` among the types that `t` converts to derives that base too. -/
theorem derives_of_idxOf_lt {v : TypeId} (h : r.convertible fuel t = some ts) (hd : r.Derives t u)
    (hlt : ts.idxOf v < ts.idxOf u) : r.Derives v u := by
  obtain ⟨n, chain, hchain, rest, hrest⟩ := convertible_eq_some h
  subst hrest
  have hu : u ∈ t :: chain := mem_of_derives hchain hd
  have hiu : (t :: chain).idxOf u < (t :: chain).length := List.idxOf_lt_length_iff.2 hu
  rw [List.idxOf_append_of_mem hu] at hlt
  have hv : v ∈ t :: chain := by
    by_contra hv
    rw [List.idxOf_append_of_notMem hv] at hlt
    omega
  rw [List.idxOf_append_of_mem hv] at hlt
  have hstep : List.IsChain r.Derives (t :: chain) :=
    (isChain_baseChain hchain).imp fun a b hab ↦ ReflTransGen.single hab
  have hpair := List.pairwise_iff_getElem.1 hstep.pairwise _ _ (hlt.trans hiu) hiu hlt
  rwa [List.getElem_idxOf, List.getElem_idxOf] at hpair

/-- A type that is listed is found without any further test. -/
theorem position_eq (r : Registry) (fuel : Nat) (ts : List TypeId) (t u : TypeId) :
    r.position fuel ts t u = if u ∈ ts then some (some (ts.idxOf u))
      else do return if ← r.accepts fuel u t then some ts.length else none := by
  unfold position
  split
  · rename_i i hi
    have hmem : u ∈ ts := List.isSome_idxOf?.1 (by rw [hi]; rfl)
    rw [if_pos hmem, List.idxOf_eq_getD_idxOf?, hi, Option.getD_some]
  · rename_i hi
    rw [if_neg (List.idxOf?_eq_none_iff.1 hi)]

end CallResolution.Registry
