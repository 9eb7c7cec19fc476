import CallResolution.Proofs.Conversion.Depth
import CallResolution.Proofs.Conversion.Order
import CallResolution.Proofs.Registry.Failure

namespace CallResolution

namespace Registry

open Relation

variable {r : Registry} {fuel : Nat} {seen chain cs ts us : List TypeId} {t u c p : TypeId}

/-- The type is a type parameter or mentions one, however deep among its arguments. -/
inductive Open (r : Registry) : TypeId → Prop
  | param {t : TypeId} (h : r.isParam t = true) : Open r t
  | arg {t a : TypeId} (ha : a ∈ r.typeArgs t) (h : Open r a) : Open r t

theorem isOpen_iff {b : Bool} (h : r.isOpen fuel t = some b) : b = true ↔ r.Open t := by
  induction fuel generalizing t b with
  | zero => cases h
  | succ fuel ih =>
    rw [isOpen] at h
    split at h
    · rename_i hparam
      cases h
      exact iff_of_true rfl (.param hparam)
    · rename_i hparam
      cases b with
      | true =>
        obtain ⟨a, ha, hopen⟩ := exists_of_anyM h
        exact iff_of_true rfl (.arg ha ((ih hopen).1 rfl))
      | false =>
        refine iff_of_false Bool.false_ne_true fun hopen ↦ ?_
        cases hopen with
        | param h => exact hparam h
        | arg ha hopen => exact Bool.false_ne_true ((ih (anyM_eq_some_false_iff.1 h _ ha)).2 hopen)

/-- An open instance stands for its template, every other type for itself. -/
inductive StandsFor (r : Registry) : TypeId → TypeId → Prop
  | template {t template : TypeId} (ht : r.template? t = some template) (h : r.Open t) :
      StandsFor r t template
  | self {t : TypeId} (h : ∀ template, r.template? t = some template → ¬r.Open t) : StandsFor r t t

theorem StandsFor.unique {v : TypeId} (h : r.StandsFor t u) (h' : r.StandsFor t v) : u = v := by
  cases h with
  | template ht ho =>
    cases h' with
    | template ht' _ => exact Option.some.inj (ht.symm.trans ht')
    | self h' => exact absurd ho (h' _ ht)
  | self h =>
    cases h' with
    | template ht' ho' => exact absurd ho' (h _ ht')
    | self _ => rfl

theorem standsFor_of_normalize (h : r.normalize fuel t = some u) : r.StandsFor t u := by
  unfold normalize at h
  cases ht : r.template? t with
  | none =>
    rw [ht] at h
    cases h
    exact .self (by simp [ht])
  | some template =>
    rw [ht] at h
    obtain ⟨b, hb, h⟩ := Option.bind_eq_some_iff.1 h
    cases b with
    | true =>
      cases h
      exact .template ht ((isOpen_iff hb).1 rfl)
    | false =>
      cases h
      exact .self fun _ _ ho ↦ Bool.false_ne_true ((isOpen_iff hb).2 ho)

/-- `t` is `p`, or both stand for the same type. -/
def Matches (r : Registry) (p t : TypeId) : Prop := t = p ∨ ∃ u, r.StandsFor t u ∧ r.StandsFor p u

/-- The test to which the types are put that an argument converts to. -/
def tells (r : Registry) (fuel : Nat) (p target t : TypeId) : Option Bool :=
  if t = p then some true else do return (← r.normalize fuel t) == target

theorem tells_iff {target : TypeId} {b : Bool} (hp : r.normalize fuel p = some target)
    (h : r.tells fuel p target t = some b) : b = true ↔ r.Matches p t := by
  unfold tells at h
  split at h
  · rename_i htp
    cases h
    exact iff_of_true rfl (.inl htp)
  · rename_i htp
    obtain ⟨v, hv, h⟩ := Option.bind_eq_some_iff.1 h
    have hp := standsFor_of_normalize hp
    have hv := standsFor_of_normalize hv
    have hb : b = (v == target) := (Option.some.inj h).symm
    rw [hb, beq_iff_eq]
    constructor
    · rintro rfl
      exact .inr ⟨v, hv, hp⟩
    · rintro (htp' | ⟨w, hw, hpw⟩)
      · exact absurd htp' htp
      · exact (hv.unique hw).trans (hpw.unique hp)

theorem accepts_of_ne {a : TypeId} (hne : p ≠ a) (hp : r.isParam p = false) :
    r.accepts (fuel + 1) p a = (do
      let target ← r.normalize fuel p
      let types ← r.convertible fuel a
      types.anyM (r.tells fuel p target)) := by
  rw [accepts, if_neg hne, hp]
  rfl

/-- A chain of contracts leads from the first type to the second. -/
def Implements (r : Registry) : TypeId → TypeId → Prop := ReflTransGen fun t u ↦ u ∈ r.interfaces t

/-- Bases lead from the first type to one whose contracts lead to the second. -/
def Inherits (r : Registry) (t u : TypeId) : Prop := ∃ a, r.Derives t a ∧ r.Implements a u

/-- What a value of a type converts to: the hierarchy of the type, `object` if it is an interface, and
what its template converts to if it is an instance that is not open. -/
inductive Converts (r : Registry) : TypeId → TypeId → Prop
  | inherited {t u : TypeId} (h : r.Inherits t u) : Converts r t u
  | object {t : TypeId} (h : r.isInterface t = true) : Converts r t .object
  | template {t template u : TypeId} (ht : r.template? t = some template) (hopen : ¬r.Open t)
      (h : Converts r template u) : Converts r t u

theorem nodup_append_new (hseen : seen.Nodup) (ht : t ∉ seen) : (seen ++ [t]).Nodup := by
  refine List.nodup_append.2 ⟨hseen, by simp, ?_⟩
  rintro x hx y hy rfl
  rw [List.mem_singleton.1 hy] at hx
  exact ht hx

/-- What a walk over the contracts `cs` adds to the types that were seen. -/
structure Explores (r : Registry) (cs seen ts : List TypeId) : Prop where
  seen_prefix : seen <+: ts
  found : ∀ c ∈ cs, c ∈ ts
  reached : ∀ u ∈ ts, u ∈ seen ∨ ∃ c ∈ cs, r.Implements c u
  listed : ∀ u ∈ ts, u ∈ seen ∨ u ∈ cs ∨ ∃ w ∈ ts, u ∈ r.interfaces w
  closed : ∀ u ∈ ts, u ∈ seen ∨ ∀ c ∈ r.interfaces u, c ∈ ts
  nodup : seen.Nodup → ts.Nodup

namespace Explores

theorem nil (seen : List TypeId) : r.Explores [] seen seen where
  seen_prefix := List.prefix_rfl
  found := by simp
  reached _ h := .inl h
  listed _ h := .inl h
  closed _ h := .inl h
  nodup h := h

theorem pass (h : c ∈ seen) : r.Explores [c] seen seen where
  seen_prefix := List.prefix_rfl
  found := by simpa using h
  reached _ h := .inl h
  listed _ h := .inl h
  closed _ h := .inl h
  nodup h := h

theorem cons (h : r.Explores [c] seen us) (h' : r.Explores cs us ts) : r.Explores (c :: cs) seen ts where
  seen_prefix := h.seen_prefix.trans h'.seen_prefix
  found := by
    refine List.forall_mem_cons.2 ⟨?_, h'.found⟩
    exact h'.seen_prefix.subset (h.found c List.mem_cons_self)
  reached u hu := by
    rcases h'.reached u hu with hu | ⟨d, hd, hreach⟩
    · refine (h.reached u hu).imp_right ?_
      rintro ⟨d, hd, hreach⟩
      rw [List.mem_singleton.1 hd] at hreach
      exact ⟨c, List.mem_cons_self, hreach⟩
    · exact .inr ⟨d, List.mem_cons_of_mem c hd, hreach⟩
  listed u hu := by
    rcases h'.listed u hu with hu | hu | hu
    · rcases h.listed u hu with hu | hu | ⟨w, hw, hu⟩
      · exact .inl hu
      · exact .inr (.inl (by rw [List.mem_singleton.1 hu]; exact List.mem_cons_self))
      · exact .inr (.inr ⟨w, h'.seen_prefix.subset hw, hu⟩)
    · exact .inr (.inl (List.mem_cons_of_mem c hu))
    · exact .inr (.inr hu)
  closed u hu := by
    rcases h'.closed u hu with hu | hu
    · exact (h.closed u hu).imp_right fun hall d hd ↦ h'.seen_prefix.subset (hall d hd)
    · exact .inr hu
  nodup hseen := h'.nodup (h.nodup hseen)

/-- A contract that is new comes before those that it inherits. -/
theorem enter (hc : c ∉ seen) (h : r.Explores (r.interfaces c) (seen ++ [c]) ts) :
    r.Explores [c] seen ts where
  seen_prefix := (List.prefix_append seen [c]).trans h.seen_prefix
  found := by simpa using h.seen_prefix.subset (List.mem_append_right seen List.mem_cons_self)
  reached u hu := by
    rcases h.reached u hu with hu | ⟨d, hd, hreach⟩
    · refine (List.mem_append.1 hu).imp_right fun hu ↦ ?_
      rw [List.mem_singleton.1 hu]
      exact ⟨c, List.mem_cons_self, .refl⟩
    · exact .inr ⟨c, List.mem_cons_self, .head hd hreach⟩
  listed u hu := by
    have hcts := h.seen_prefix.subset (List.mem_append_right seen List.mem_cons_self)
    rcases h.listed u hu with hu | hu | hu
    · exact (List.mem_append.1 hu).imp_right .inl
    · exact .inr (.inr ⟨c, hcts, hu⟩)
    · exact .inr (.inr hu)
  closed u hu := by
    rcases h.closed u hu with hu | hu
    · refine (List.mem_append.1 hu).imp_right fun hu d hd ↦ h.found d ?_
      rwa [List.mem_singleton.1 hu] at hd
    · exact .inr hu
  nodup hseen := h.nodup (nodup_append_new hseen hc)

end Explores

theorem explores_foldlM_of (hstep : ∀ seen c ts, r.visitContract fuel seen c = some ts →
    r.Explores [c] seen ts) (h : cs.foldlM (r.visitContract fuel) seen = some ts) :
    r.Explores cs seen ts := by
  induction cs generalizing seen with
  | nil =>
    cases h
    exact .nil _
  | cons c cs ih =>
    rw [List.foldlM_cons] at h
    obtain ⟨us, hus, h⟩ := Option.bind_eq_some_iff.1 h
    exact (hstep _ _ _ hus).cons (ih h)

theorem explores_visitContract (h : r.visitContract fuel seen c = some ts) : r.Explores [c] seen ts := by
  induction fuel generalizing seen c ts with
  | zero => cases h
  | succ fuel ih =>
    rw [visitContract] at h
    split at h
    · rename_i hc
      cases h
      exact .pass hc
    · rename_i hc
      exact .enter hc (explores_foldlM_of (fun _ _ _ ↦ ih) h)

theorem explores_foldlM (h : cs.foldlM (r.visitContract fuel) seen = some ts) : r.Explores cs seen ts :=
  explores_foldlM_of (fun _ _ _ ↦ explores_visitContract) h

theorem derives_of_mem_baseChain (h : r.baseChain fuel seen (r.base? t) = some chain) (hu : u ∈ chain) :
    r.Derives t u := by
  have hstep : List.IsChain r.Derives (t :: chain) :=
    (isChain_baseChain h).imp fun _ _ hab ↦ ReflTransGen.single hab
  exact (List.pairwise_cons.1 hstep.pairwise).1 u hu

theorem nodup_baseChain {base : Option TypeId} (h : r.baseChain fuel seen base = some chain)
    (hseen : seen.Nodup) : (seen ++ chain).Nodup := by
  induction fuel generalizing seen base chain with
  | zero =>
    cases base <;> cases h
    simpa using hseen
  | succ fuel ih =>
    cases base with
    | none =>
      cases h
      simpa using hseen
    | some t =>
      rw [baseChain] at h
      split at h
      · cases h
        simpa using hseen
      · rename_i ht
        obtain ⟨rest, hrest, h⟩ := Option.bind_eq_some_iff.1 h
        cases h
        simpa using ih hrest (nodup_append_new hseen ht)

theorem nodup_appendNew (hseen : seen.Nodup) (t : TypeId) : (appendNew seen t).Nodup := by
  unfold appendNew
  split
  · exact hseen
  · rename_i ht
    exact nodup_append_new hseen ht

theorem mem_appendNew : u ∈ appendNew seen t ↔ u ∈ seen ∨ u = t := by
  unfold appendNew
  split
  · rename_i ht
    constructor
    · exact .inl
    · rintro (hu | rfl)
      · exact hu
      · exact ht
  · simp

theorem mem_withObject : u ∈ r.withObject t ts ↔ u ∈ ts ∨ (r.isInterface t = true ∧ u = .object) := by
  unfold withObject
  split
  · rename_i hi
    simp [mem_appendNew, hi]
  · rename_i hi
    simp [hi]

theorem Round.nodup (h : r.Round fuel seen t ts) (hseen : seen.Nodup) : ts.Nodup := by
  obtain ⟨chain, hchain, hcontracts⟩ := h
  exact (explores_foldlM hcontracts).nodup (nodup_baseChain hchain (nodup_appendNew hseen t))

/-- No type is listed twice. -/
theorem nodup_visitConvertible (h : r.visitConvertible fuel seen t = some ts) (hseen : seen.Nodup) :
    ts.Nodup := by
  induction fuel generalizing seen t ts with
  | zero => cases h
  | succ fuel ih =>
    obtain ⟨contracts, hround, h⟩ := visitConvertible_eq_some_iff.1 h
    have hobject : (r.withObject t contracts).Nodup := by
      unfold withObject
      split
      · exact nodup_appendNew (hround.nodup hseen) .object
      · exact hround.nodup hseen
    rcases h with ⟨rfl, -⟩ | ⟨template, -, -, h⟩
    · exact hobject
    · exact ih h hobject

theorem mem_unseen (h : u ∈ unseen seen t) : u = t := by
  unfold unseen at h
  split at h
  · cases h
  · exact List.mem_singleton.1 h

theorem Round.inherits_of_mem (h : r.Round fuel seen t ts) (hu : u ∈ ts) : u ∈ seen ∨ r.Inherits t u := by
  obtain ⟨chain, hchain, hcontracts⟩ := h
  have hderives : ∀ a ∈ unseen seen t ++ chain, r.Derives t a := by
    intro a ha
    rcases List.mem_append.1 ha with ha | ha
    · rw [mem_unseen ha]
      exact .refl
    · exact derives_of_mem_baseChain hchain ha
  rcases (explores_foldlM hcontracts).reached u hu with hu | ⟨c, hc, hreach⟩
  · rw [appendNew_eq, List.append_assoc] at hu
    exact (List.mem_append.1 hu).imp_right fun hu ↦ ⟨u, hderives u hu, .refl⟩
  · obtain ⟨a, ha, hc⟩ := List.mem_flatMap.1 hc
    exact .inr ⟨a, hderives a ha, .head hc hreach⟩

/-- With every type that the round adds come its contracts. -/
theorem Round.contracts (h : r.Round fuel seen t ts) (hu : u ∈ ts) :
    u ∈ seen ∨ ∀ c ∈ r.interfaces u, c ∈ ts := by
  obtain ⟨chain, -, hcontracts⟩ := h
  have hexplores := explores_foldlM hcontracts
  rcases hexplores.closed u hu with hu | hall
  · rw [appendNew_eq, List.append_assoc] at hu
    exact (List.mem_append.1 hu).imp_right fun hu c hc ↦ hexplores.found c (List.mem_flatMap.2 ⟨u, hu, hc⟩)
  · exact .inr hall

theorem converts_of_mem (h : r.visitConvertible fuel seen t = some ts) (hu : u ∈ ts) :
    u ∈ seen ∨ r.Converts t u := by
  induction fuel generalizing seen t ts with
  | zero => cases h
  | succ fuel ih =>
    obtain ⟨contracts, hround, h⟩ := visitConvertible_eq_some_iff.1 h
    have hobject : u ∈ r.withObject t contracts → u ∈ seen ∨ r.Converts t u := by
      intro hu
      rcases mem_withObject.1 hu with hu | ⟨hi, rfl⟩
      · exact (hround.inherits_of_mem hu).imp_right .inherited
      · exact .inr (.object hi)
    rcases h with ⟨rfl, -⟩ | ⟨template, ht, hopen, h⟩
    · exact hobject hu
    · rcases ih h hu with hu | hu
      · exact hobject hu
      · refine .inr (.template ht (fun ho ↦ ?_) hu)
        exact Bool.false_ne_true ((isOpen_iff hopen).2 ho)

/-- With a type come its contracts, and with a type that is no contract of another comes its base. -/
structure Saturated (r : Registry) (ts : List TypeId) : Prop where
  contracts : ∀ t ∈ ts, ∀ c ∈ r.interfaces t, c ∈ ts
  base : ∀ t ∈ ts, ∀ b, r.base? t = some b → b ∈ ts ∨ ∃ w ∈ ts, t ∈ r.interfaces w

/-- Nothing is above `object`. -/
structure ObjectOnTop (r : Registry) : Prop where
  base? : r.base? .object = none
  interfaces : r.interfaces .object = []

theorem objectOnTop_of_steps {admitted : TypeDecl → Prop} (h : ReflTransGen (Step admitted) builtin r) :
    r.ObjectOnTop := by
  have hfind : r.find? .object = some objectDecl := by
    unfold find?
    rw [keepsTypes_of_steps h .object objectDecl (by decide +kernel), Option.some_or]
  constructor
  · rw [Registry.base?, hfind]
    rfl
  · rw [Registry.interfaces, hfind]
    rfl

namespace Saturated

theorem nil : r.Saturated [] := ⟨by simp, by simp⟩

theorem withObject (htop : r.ObjectOnTop) (h : r.Saturated ts) (t : TypeId) :
    r.Saturated (r.withObject t ts) := by
  refine ⟨fun u hu c hc ↦ ?_, fun u hu b hb ↦ ?_⟩
  · rcases mem_withObject.1 hu with hu | ⟨-, rfl⟩
    · exact mem_withObject.2 (.inl (h.contracts u hu c hc))
    · rw [htop.interfaces] at hc
      cases hc
  · rcases mem_withObject.1 hu with hu | ⟨-, rfl⟩
    · rcases h.base u hu b hb with hb | ⟨w, hw, huw⟩
      · exact .inl (mem_withObject.2 (.inl hb))
      · exact .inr ⟨w, mem_withObject.2 (.inl hw), huw⟩
    · rw [htop.base?] at hb
      cases hb

/-- The walk along the bases of `t` stops at a type that was seen, and then only the bases of a
contract may be left out. -/
theorem round (hseen : r.Saturated seen) (h : r.Round fuel seen t ts) : r.Saturated ts := by
  have hcomplete : ∀ u ∈ ts, u ∈ seen ∨ ∀ c ∈ r.interfaces u, c ∈ ts := fun u hu ↦ h.contracts hu
  obtain ⟨chain, hchain, hcontracts⟩ := h
  have hexplores := explores_foldlM hcontracts
  obtain ⟨hfirst, hnext⟩ := closed_baseChain hchain
  have hstart : ∀ {u}, u ∈ appendNew seen t ++ chain → u ∈ ts := fun hu ↦
    hexplores.seen_prefix.subset hu
  have hold : ∀ {u}, u ∈ seen → u ∈ ts := fun hu ↦
    hstart (List.mem_append_left chain (mem_appendNew.2 (.inl hu)))
  have hnew : ∀ {u}, u ∈ unseen seen t ++ chain → u ∈ ts := by
    intro u hu
    refine hstart ?_
    rw [appendNew_eq, List.append_assoc]
    exact List.mem_append_right seen hu
  refine ⟨fun u hu c hc ↦ ?_, fun u hu b hb ↦ ?_⟩
  · rcases hcomplete u hu with hu | hall
    · exact hold (hseen.contracts u hu c hc)
    · exact hall c hc
  · rcases hexplores.listed u hu with hu | hu | hw
    · rw [appendNew_eq, List.append_assoc] at hu
      rcases List.mem_append.1 hu with hu | hu
      · rcases hseen.base u hu b hb with hb | ⟨w, hw, huw⟩
        · exact .inl (hold hb)
        · exact .inr ⟨w, hold hw, huw⟩
      · rcases List.mem_append.1 hu with hu | hu
        · rw [mem_unseen hu] at hb
          exact .inl (hstart (List.mem_append.2 (hfirst b hb)))
        · exact .inl (hstart (List.mem_append.2 (hnext u hu b hb)))
    · obtain ⟨w, hw, huw⟩ := List.mem_flatMap.1 hu
      exact .inr ⟨w, hnew hw, huw⟩
    · exact .inr hw

theorem visitConvertible (htop : r.ObjectOnTop) (hseen : r.Saturated seen)
    (h : r.visitConvertible fuel seen t = some ts) : r.Saturated ts := by
  induction fuel generalizing seen t ts with
  | zero => cases h
  | succ fuel ih =>
    obtain ⟨contracts, hround, h⟩ := visitConvertible_eq_some_iff.1 h
    have hobject := (hseen.round hround).withObject htop t
    rcases h with ⟨rfl, -⟩ | ⟨template, -, -, h⟩
    · exact hobject
    · exact ih hobject h

theorem mem_of_implements (h : r.Saturated ts) (ht : t ∈ ts) (hu : r.Implements t u) : u ∈ ts := by
  induction hu with
  | refl => exact ht
  | tail _ hc ih => exact h.contracts _ ih _ hc

end Saturated

end Registry

end CallResolution
