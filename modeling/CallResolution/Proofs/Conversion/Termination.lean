import CallResolution.Proofs.Conversion.Hierarchy
import CallResolution.Proofs.Registry.Termination
import Mathlib.Data.Finite.Prod

namespace CallResolution.Registry

open Attempt Relation

variable {r : Registry} {fuel : Nat} {seen ts : List TypeId} {t p a : TypeId}

/-! Bases and contracts are not entered twice, and there are only so many types: the walks along them
come to an end whatever the links are. -/

theorem ssubset_append_new (ht : t ∉ seen) : {u | u ∈ seen} ⊂ {u | u ∈ seen ++ [t]} := by
  refine (Set.ssubset_iff_of_subset fun u hu ↦ List.mem_append_left [t] hu).2 ?_
  exact ⟨t, List.mem_append_right seen List.mem_cons_self, ht⟩

theorem exists_baseChain (r : Registry) (seen : List TypeId) (base : Option TypeId) :
    ∃ chain, Answers (r.baseChain · seen base) chain := by
  induction hK : {u | u ∈ seen} using WellFoundedGT.induction generalizing seen base with
  | ind K ih =>
  cases base with
  | none => exact ⟨[], .succ (by simp only [baseChain]; exact .const [])⟩
  | some t =>
    by_cases ht : t ∈ seen
    · exact ⟨[], .succ (by simp only [baseChain, if_pos ht]; exact .const [])⟩
    · obtain ⟨chain, hchain⟩ := ih _ (hK ▸ ssubset_append_new ht) (seen ++ [t]) (r.base? t) rfl
      refine ⟨t :: chain, .succ ?_⟩
      simp only [baseChain, if_neg ht]
      exact hchain.bind (.const _)

theorem exists_contracts (r : Registry) (cs seen : List TypeId) :
    ∃ ts, Answers (fun n ↦ cs.foldlM (r.visitContract n) seen) ts := by
  induction hK : {u | u ∈ seen} using WellFoundedGT.induction generalizing cs seen with
  | ind K ih =>
  induction cs with
  | nil => exact ⟨seen, .const seen⟩
  | cons c cs ihcs =>
    simp only [List.foldlM_cons]
    by_cases hc : c ∈ seen
    · have hpass : Answers (r.visitContract · seen c) seen := by
        refine .succ ?_
        simp only [visitContract, if_pos hc]
        exact .const seen
      obtain ⟨ts, hts⟩ := ihcs
      exact ⟨ts, hpass.bind hts⟩
    · have hnew : K ⊂ {u | u ∈ seen ++ [c]} := hK ▸ ssubset_append_new hc
      obtain ⟨us, hus⟩ := ih _ hnew (r.interfaces c) (seen ++ [c]) rfl
      have hmore : K ⊂ {u | u ∈ us} := by
        obtain ⟨n, hn⟩ := hus.exists_eq
        exact hnew.trans_subset (prefix_foldlM (fun _ _ _ h ↦ prefix_visitContract h) hn).subset
      have hvisit : Answers (r.visitContract · seen c) us := by
        refine .succ ?_
        simp only [visitContract, if_neg hc]
        exact hus
      obtain ⟨ts, hts⟩ := ih _ hmore cs us rfl
      exact ⟨ts, hvisit.bind hts⟩

/-- Only the template is left to be looked into, and only of an instance that is not open. -/
theorem exists_visitConvertible_of (seen : List TypeId)
    (h : ∀ template, r.template? t = some template → ∃ b, Answers (r.isOpen · t) b ∧
      (b = false → ∀ seen, ∃ ts, Answers (r.visitConvertible · seen template) ts)) :
    ∃ ts, Answers (r.visitConvertible · seen t) ts := by
  obtain ⟨chain, hchain⟩ := r.exists_baseChain (seen ++ unseen seen t) (r.base? t)
  obtain ⟨contracts, hcontracts⟩ := r.exists_contracts ((unseen seen t ++ chain).flatMap r.interfaces)
    (seen ++ (unseen seen t ++ chain))
  cases ht : r.template? t with
  | none =>
    refine ⟨r.withObject t contracts, .succ ?_⟩
    simp only [visitConvertible, ht]
    exact hchain.bind (hcontracts.bind (.const _))
  | some template =>
    obtain ⟨b, hb, hnext⟩ := h template ht
    cases b with
    | true =>
      refine ⟨r.withObject t contracts, .succ ?_⟩
      simp only [visitConvertible, ht]
      exact hchain.bind (hcontracts.bind (hb.bind (.const _)))
    | false =>
      obtain ⟨ts, hts⟩ := hnext rfl (r.withObject t contracts)
      refine ⟨ts, .succ ?_⟩
      simp only [visitConvertible, ht]
      exact hchain.bind (hcontracts.bind (hb.bind hts))

/-- Whether the walk ends does not depend on what was seen before. -/
theorem exists_visitConvertible (h : r.visitConvertible fuel seen t = some ts) (seen' : List TypeId) :
    ∃ ts, Answers (r.visitConvertible · seen' t) ts := by
  induction fuel generalizing seen seen' t ts with
  | zero => cases h
  | succ fuel ih =>
    obtain ⟨contracts, -, h⟩ := visitConvertible_eq_some_iff.1 h
    refine exists_visitConvertible_of seen' fun template ht ↦ ?_
    rcases h with ⟨-, hopen⟩ | ⟨template', ht', hopen, h⟩
    · exact ⟨true, .of_eq (r.isOpen_succ · t) (hopen template ht), by simp⟩
    · rw [ht'] at ht
      cases ht
      exact ⟨false, .of_eq (r.isOpen_succ · t) hopen, fun _ ↦ ih h⟩

inductive Query
  | isOpen (t : TypeId)
  | convertible (t : TypeId)
  | satisfies (param arg : TypeId)
  | accepts (param arg : TypeId)

instance : Finite Query := by
  let query : Fin 4 × TypeId × TypeId → Query
    | (0, t, _) => .isOpen t
    | (1, t, _) => .convertible t
    | (2, p, a) => .satisfies p a
    | (3, p, a) => .accepts p a
  refine Finite.of_surjective query ?_
  rintro (t | t | ⟨p, a⟩ | ⟨p, a⟩)
  · exact ⟨(0, t, t), rfl⟩
  · exact ⟨(1, t, t), rfl⟩
  · exact ⟨(2, p, a), rfl⟩
  · exact ⟨(3, p, a), rfl⟩

/-- To every sufficient depth the query has an answer. -/
def Query.Ends (r : Registry) : Query → Prop
  | isOpen t => ∃ b, Answers (r.isOpen · t) b
  | convertible t => ∃ ts, Answers (r.convertible · t) ts
  | satisfies p a => ∃ b, Answers (r.satisfies · p a) b
  | accepts p a => ∃ b, Answers (r.accepts · p a) b

theorem tells_succ (r : Registry) (fuel : Nat) (p target t : TypeId) :
    Refines (r.tells fuel p target t) (r.tells (fuel + 1) p target t) := by
  unfold tells
  split
  · exact .refl _
  · exact (r.normalize_succ fuel t).bind fun _ ↦ .refl _

theorem accepts_succ (r : Registry) (fuel : Nat) (p a : TypeId) :
    Refines (r.accepts fuel p a) (r.accepts (fuel + 1) p a) := (r.satisfies_accepts_succ fuel p a).2

/-- Each query leads to those whose answers it waits for. Of several it asks one after the other, up to
the first that decides. -/
inductive Asks (r : Registry) : Query → Query → Prop
  | argument {t a : TypeId} {before after : List TypeId} (ht : r.isParam t = false)
      (hargs : r.typeArgs t = before ++ a :: after)
      (hbefore : ∀ b ∈ before, Answers (r.isOpen · b) false) : Asks r (.isOpen t) (.isOpen a)
  | openness {t template : TypeId} (ht : r.template? t = some template) :
      Asks r (.convertible t) (.isOpen t)
  | template {t template : TypeId} (ht : r.template? t = some template)
      (hopen : Answers (r.isOpen · t) false) : Asks r (.convertible t) (.convertible template)
  | bound {p a b : TypeId} {info : TypeParam} {before after : List TypeId}
      (hp : r.paramInfo? p = some info) (hc : r.meetsConstraints info.constraints a = true)
      (hbounds : info.bounds.filter (· ≠ p) = before ++ b :: after)
      (hbefore : ∀ b ∈ before, Answers (r.accepts · b a) true) : Asks r (.satisfies p a) (.accepts b a)
  | constraints {p a : TypeId} (hne : p ≠ a) (hp : r.isParam p = true) :
      Asks r (.accepts p a) (.satisfies p a)
  | target {p a template : TypeId} (hne : p ≠ a) (hp : r.isParam p = false)
      (ht : r.template? p = some template) : Asks r (.accepts p a) (.isOpen p)
  | types {p a target : TypeId} (hne : p ≠ a) (hp : r.isParam p = false)
      (htarget : Answers (r.normalize · p) target) : Asks r (.accepts p a) (.convertible a)
  | listed {p a t target template : TypeId} {before after : List TypeId} (hne : p ≠ a)
      (hp : r.isParam p = false) (htarget : Answers (r.normalize · p) target)
      (htypes : Answers (r.convertible · a) (before ++ t :: after))
      (hbefore : ∀ u ∈ before, Answers (r.tells · p target u) false) (htp : t ≠ p)
      (ht : r.template? t = some template) : Asks r (.accepts p a) (.isOpen t)

theorem exists_normalize (h : ∀ template, r.template? t = some template → Query.Ends r (.isOpen t)) :
    ∃ u, Answers (r.normalize · t) u := by
  unfold normalize
  cases ht : r.template? t with
  | none => exact ⟨t, .const t⟩
  | some template =>
    obtain ⟨b, hb⟩ := h template ht
    exact ⟨if b then template else t, hb.bind (.const _)⟩

theorem ends_isOpen (h : ∀ q, r.Asks (.isOpen t) q → q.Ends r) : Query.Ends r (.isOpen t) := by
  cases hp : r.isParam t with
  | true =>
    refine ⟨true, .succ ?_⟩
    simp only [isOpen, hp, if_true]
    exact .const true
  | false =>
    obtain ⟨b, hb⟩ : ∃ b, Answers (fun n ↦ (r.typeArgs t).anyM (r.isOpen n)) b :=
      exists_answers_anyM fun _ _ _ hsplit hbefore ↦ h _ (.argument hp hsplit hbefore)
    refine ⟨b, .succ ?_⟩
    simpa only [isOpen, hp, Bool.false_eq_true, if_false] using hb

theorem ends_convertible (h : ∀ q, r.Asks (.convertible t) q → q.Ends r) :
    Query.Ends r (.convertible t) := by
  refine exists_visitConvertible_of [] fun template ht ↦ ?_
  obtain ⟨b, hb⟩ := h _ (.openness ht)
  refine ⟨b, hb, ?_⟩
  rintro rfl seen
  obtain ⟨ts, hts⟩ := h _ (.template ht hb)
  obtain ⟨n, hn⟩ := hts.exists_eq
  exact exists_visitConvertible hn seen

theorem ends_satisfies (h : ∀ q, r.Asks (.satisfies p a) q → q.Ends r) :
    Query.Ends r (.satisfies p a) := by
  cases hp : r.paramInfo? p with
  | none =>
    refine ⟨false, .succ ?_⟩
    simp only [satisfies, hp]
    exact .const false
  | some info =>
    cases hc : r.meetsConstraints info.constraints a with
    | false =>
      refine ⟨false, .succ ?_⟩
      simp only [satisfies, hp, hc, Bool.false_eq_true, if_false]
      exact .const false
    | true =>
      obtain ⟨b, hb⟩ : ∃ b, Answers (fun n ↦ (info.bounds.filter (· ≠ p)).allM (r.accepts n · a)) b :=
        exists_answers_allM fun _ _ _ hsplit hbefore ↦ h _ (.bound hp hc hsplit hbefore)
      refine ⟨b, .succ ?_⟩
      simpa only [satisfies, hp, hc, if_true] using hb

theorem ends_accepts (h : ∀ q, r.Asks (.accepts p a) q → q.Ends r) : Query.Ends r (.accepts p a) := by
  by_cases hne : p = a
  · refine ⟨true, .succ ?_⟩
    simp only [accepts, if_pos hne]
    exact .const true
  cases hp : r.isParam p with
  | true =>
    obtain ⟨b, hb⟩ := h _ (.constraints hne hp)
    refine ⟨b, .succ ?_⟩
    simpa only [accepts, if_neg hne, if_pos hp] using hb
  | false =>
    obtain ⟨target, htarget⟩ := exists_normalize fun _ ht ↦ h _ (.target hne hp ht)
    obtain ⟨types, htypes⟩ := h _ (.types hne hp htarget)
    obtain ⟨b, hb⟩ : ∃ b, Answers (fun n ↦ types.anyM (r.tells n p target)) b := by
      refine exists_answers_anyM fun before t after hsplit hbefore ↦ ?_
      unfold tells
      by_cases htp : t = p
      · simp only [if_pos htp]
        exact ⟨true, .const true⟩
      · simp only [if_neg htp]
        obtain ⟨u, hu⟩ := exists_normalize (t := t) fun _ ht ↦
          h _ (.listed hne hp htarget (hsplit ▸ htypes) hbefore htp ht)
        exact ⟨u == target, hu.bind (.const _)⟩
    refine ⟨b, .succ ?_⟩
    simp only [accepts_of_ne hne hp]
    exact htarget.bind (htypes.bind hb)

/-- A query ends if all do that it asks. -/
theorem Query.ends_of_asks {q : Query} (h : ∀ q', r.Asks q q' → q'.Ends r) : q.Ends r := by
  cases q with
  | isOpen t => exact ends_isOpen h
  | convertible t => exact ends_convertible h
  | satisfies p a => exact ends_satisfies h
  | accepts p a => exact ends_accepts h

theorem Query.ends_of_acc {q : Query} (h : Acc (fun q' q ↦ r.Asks q q') q) : q.Ends r := by
  induction h with
  | intro q _ ih => exact ends_of_asks ih

theorem isOpen_ne_true {n : Nat} (h : Answers (r.isOpen · t) false) : r.isOpen n t ≠ some true :=
  fun hn ↦ Bool.false_ne_true (h.unique (.of_eq (r.isOpen_succ · t) hn))

theorem exists_isOpen_of_normalize {u template : TypeId} (ht : r.template? t = some template)
    (h : r.normalize fuel t = some u) : ∃ b, r.isOpen fuel t = some b := by
  rw [normalize, ht] at h
  obtain ⟨b, hb, -⟩ := Option.bind_eq_some_iff.1 h
  exact ⟨b, hb⟩

theorem acc_isOpen {b : Bool} (h : r.isOpen fuel t = some b) :
    Acc (fun q' q ↦ r.Asks q q') (.isOpen t) := by
  induction fuel generalizing t b with
  | zero => cases h
  | succ fuel ih =>
    refine .intro _ fun q hq ↦ ?_
    cases hq with
    | argument hp hargs hbefore =>
      simp only [isOpen, hp, Bool.false_eq_true, if_false, hargs] at h
      obtain ⟨c, hc⟩ := exists_eq_some_of_anyM h fun u hu ↦ isOpen_ne_true (hbefore u hu)
      exact ih hc

theorem acc_convertible (h : r.visitConvertible fuel seen t = some ts) :
    Acc (fun q' q ↦ r.Asks q q') (.convertible t) := by
  induction fuel generalizing seen t ts with
  | zero => cases h
  | succ fuel ih =>
    obtain ⟨contracts, -, h⟩ := visitConvertible_eq_some_iff.1 h
    refine .intro _ fun q hq ↦ ?_
    cases hq with
    | openness ht =>
      rcases h with ⟨-, hopen⟩ | ⟨template, -, hopen, -⟩
      · exact acc_isOpen (hopen _ ht)
      · exact acc_isOpen hopen
    | template ht hclosed =>
      rcases h with ⟨-, hopen⟩ | ⟨template, ht', -, h⟩
      · exact absurd (hopen _ ht) (isOpen_ne_true hclosed)
      · cases ht.symm.trans ht'
        exact ih h

theorem acc_satisfies_accepts (fuel : Nat) (p a : TypeId) :
    (∀ b, r.satisfies fuel p a = some b → Acc (fun q' q ↦ r.Asks q q') (.satisfies p a)) ∧
      ∀ b, r.accepts fuel p a = some b → Acc (fun q' q ↦ r.Asks q q') (.accepts p a) := by
  induction fuel generalizing p with
  | zero => exact ⟨nofun, nofun⟩
  | succ fuel ih =>
    refine ⟨fun b h ↦ .intro _ fun q hq ↦ ?_, fun b h ↦ .intro _ fun q hq ↦ ?_⟩
    · cases hq with
      | bound hp hc hbounds hbefore =>
        simp only [satisfies, hp, hc, if_true, hbounds] at h
        obtain ⟨c, hc⟩ := exists_eq_some_of_allM h fun u hu hfalse ↦
          Bool.false_ne_true ((Answers.of_eq (r.accepts_succ · u a) hfalse).unique (hbefore u hu))
        exact (ih _).2 c hc
    · have hlist : p ≠ a → r.isParam p = false → ∃ target types, r.normalize fuel p = some target ∧
          r.convertible fuel a = some types ∧ types.anyM (r.tells fuel p target) = some b := by
        intro hne hp
        rw [accepts_of_ne hne hp] at h
        obtain ⟨target, htarget, h⟩ := Option.bind_eq_some_iff.1 h
        obtain ⟨types, htypes, h⟩ := Option.bind_eq_some_iff.1 h
        exact ⟨target, types, htarget, htypes, h⟩
      cases hq with
      | constraints hne hp =>
        rw [accepts, if_neg hne, if_pos hp] at h
        exact (ih p).1 b h
      | target hne hp ht =>
        obtain ⟨target, types, htarget, -, -⟩ := hlist hne hp
        obtain ⟨c, hc⟩ := exists_isOpen_of_normalize ht htarget
        exact acc_isOpen hc
      | types hne hp =>
        obtain ⟨target, types, -, htypes, -⟩ := hlist hne hp
        exact acc_convertible htypes
      | listed hne hp htarget htypes hbefore htp ht =>
        obtain ⟨target, types, htarget', htypes', h⟩ := hlist hne hp
        cases htarget.unique (.of_eq (r.normalize_succ · p) htarget')
        cases htypes.unique (.of_eq (r.convertible_succ · a) htypes')
        obtain ⟨c, hc⟩ := exists_eq_some_of_anyM h fun u hu htrue ↦
          Bool.false_ne_true ((hbefore u hu).unique (.of_eq (r.tells_succ · p _ u) htrue))
        rw [tells, if_neg htp] at hc
        obtain ⟨u, hu, -⟩ := Option.bind_eq_some_iff.1 hc
        obtain ⟨d, hd⟩ := exists_isOpen_of_normalize ht hu
        exact acc_isOpen hd

theorem Query.acc_of_ends {q : Query} (h : q.Ends r) : Acc (fun q' q ↦ r.Asks q q') q := by
  cases q with
  | isOpen t =>
    obtain ⟨b, hb⟩ := h
    obtain ⟨n, hn⟩ := hb.exists_eq
    exact acc_isOpen hn
  | convertible t =>
    obtain ⟨ts, hts⟩ := h
    obtain ⟨n, hn⟩ := hts.exists_eq
    exact acc_convertible hn
  | satisfies p a =>
    obtain ⟨b, hb⟩ := h
    obtain ⟨n, hn⟩ := hb.exists_eq
    exact (acc_satisfies_accepts n p a).1 b hn
  | accepts p a =>
    obtain ⟨b, hb⟩ := h
    obtain ⟨n, hn⟩ := hb.exists_eq
    exact (acc_satisfies_accepts n p a).2 b hn

/-- The query leads to one that waits for its own answer. -/
def Query.Circular (r : Registry) (q : Query) : Prop :=
  ∃ q', ReflTransGen r.Asks q q' ∧ TransGen r.Asks q' q'

theorem Query.ends_iff {q : Query} : q.Ends r ↔ ¬q.Circular r := by
  have hacyclic : Acc (fun q' q ↦ r.Asks q q') q ↔ ¬q.Circular r := by
    rw [acc_iff_acyclic, Circular]
    simp only [not_exists, not_and]
  exact ⟨fun h ↦ hacyclic.1 (acc_of_ends h), fun h ↦ ends_of_acc (hacyclic.2 h)⟩

/-- No chain of links leads from a type back to itself. -/
def Noncircular (link : TypeId → TypeId → Prop) : Prop := ∀ t, ¬TransGen link t t

theorem Noncircular.wellFounded {link : TypeId → TypeId → Prop} (h : Noncircular link) :
    WellFounded fun u t ↦ link t u := by
  refine wellFounded_of_acyclic fun t ht ↦ h t ?_
  exact transGen_swap.1 ht

theorem noncircular_of_lt {link : TypeId → TypeId → Prop} (rank : TypeId → Nat)
    (h : ∀ t u, link t u → rank u < rank t) : Noncircular link := by
  have hlt : ∀ t u, TransGen link t u → rank u < rank t := by
    intro t u htu
    induction htu with
    | single hlink => exact h _ _ hlink
    | tail _ hlink ih => exact (h _ _ hlink).trans ih
  exact fun t ht ↦ Nat.lt_irrefl _ (hlt t t ht)

theorem ends_isOpen_of_noncircular (hargs : Noncircular fun t a ↦ a ∈ r.typeArgs t) (t : TypeId) :
    Query.Ends r (.isOpen t) := by
  induction t using hargs.wellFounded.induction with
  | _ t ih =>
    refine ends_isOpen fun q hq ↦ ?_
    cases hq with
    | argument _ hsplit _ => exact ih _ (by simp [hsplit])

/-- Circles of bases or contracts do not matter. -/
theorem ends_convertible_of_noncircular (htemplate : Noncircular fun t u ↦ r.template? t = some u)
    (hargs : Noncircular fun t a ↦ a ∈ r.typeArgs t) (t : TypeId) : Query.Ends r (.convertible t) := by
  induction t using htemplate.wellFounded.induction with
  | _ t ih =>
    refine ends_convertible fun q hq ↦ ?_
    cases hq with
    | openness _ => exact ends_isOpen_of_noncircular hargs t
    | template ht _ => exact ih _ ht

/-- The walk comes to an end exactly if nothing on its way waits for its own answer, which only circles of
templates or of type arguments can bring about. No type is listed twice. -/
theorem convertible_ends_iff (r : Registry) (t : TypeId) :
    ((∃ ts, Answers (r.convertible · t) ts) ↔ ¬Query.Circular r (.convertible t)) ∧
      ((Noncircular fun t u ↦ r.template? t = some u) → (Noncircular fun t a ↦ a ∈ r.typeArgs t) →
        ¬Query.Circular r (.convertible t)) ∧
      ∀ fuel ts, r.convertible fuel t = some ts → ts.Nodup := by
  refine ⟨Query.ends_iff (q := .convertible t), fun htemplate hargs ↦ ?_, fun fuel ts h ↦ ?_⟩
  · exact Query.ends_iff.1 (ends_convertible_of_noncircular htemplate hargs t)
  · exact nodup_visitConvertible h List.nodup_nil

theorem noncircular_typeArgs_of_entries
    (h : ∀ e ∈ r.types.entries ++ r.instances.entries, e.2.typeArgs = []) :
    Noncircular fun t a ↦ a ∈ r.typeArgs t := by
  refine noncircular_of_lt (fun _ ↦ 0) fun t a ha ↦ ?_
  unfold typeArgs at ha
  cases hd : r.find? t with
  | none => simp [hd] at ha
  | some d =>
    have hargs : d.typeArgs = [] := h _ (mem_entries_of_find? hd)
    simp [hd, hargs] at ha

def knot : TypeId := .ofName "Knot"

/-- The array of itself. -/
def knotDecl : TypeDecl :=
  { name := "Knot", id := knot, kind := .classType, template := some .array, typeArgs := [knot] }

def ring : TypeId := .ofName "Ring"

/-- The instance of itself. -/
def ringDecl : TypeDecl := { name := "Ring", id := ring, kind := .classType, template := some ring }

def makeKnot : Attempt Registry RegistrationError TypeId := do
  let _ ← register knotDecl
  register ringDecl

def knotTypes : Registry := (makeKnot builtin).state?.getD {}

def leftParam : TypeId := .ofParam "swap" "T"

def rightParam : TypeId := .ofParam "swap" "U"

/-- Each of two type parameters bounds the other. -/
def makeSwap : Attempt Registry RegistrationError TypeId := do
  let _ ← registerParam "T" { owner := "swap", index := 0, bounds := [rightParam] }
  registerParam "U" { owner := "swap", index := 1, bounds := [leftParam] }

def swapTypes : Registry := (makeSwap builtin).state?.getD {}

theorem reachable_swapTypes : Reachable TypeDecl.IsDeclaration swapTypes :=
  reachable_getD ((keeps_registerParam _ _).bind fun _ ↦ keeps_registerParam _ _)

theorem convertible_ends_iff_knot :
    Reachable (fun _ ↦ True) knotTypes ∧ (∀ fuel, knotTypes.convertible fuel knot = none) ∧
      (∀ fuel, knotTypes.convertible fuel ring = none) ∧
      ∃ ts, Answers (swapTypes.convertible · leftParam) ts := by
  have hnone : ∀ t, Query.Circular knotTypes (.convertible t) →
      ∀ fuel, knotTypes.convertible fuel t = none := by
    intro t hcircular fuel
    cases h : knotTypes.convertible fuel t with
    | none => rfl
    | some ts =>
      have hends : ∃ ts, Answers (knotTypes.convertible · t) ts :=
        ⟨ts, .of_eq (knotTypes.convertible_succ · t) h⟩
      exact absurd hcircular ((convertible_ends_iff knotTypes t).1.1 hends)
  refine ⟨reachable_getD ((keeps_register trivial).bind fun _ ↦ keeps_register trivial), ?_, ?_, ?_⟩
  · have htemplate : knotTypes.template? knot = some .array := by decide +kernel
    have hargs : knotTypes.typeArgs knot = [] ++ knot :: [] := by decide +kernel
    have hcircle : knotTypes.Asks (.isOpen knot) (.isOpen knot) :=
      .argument (by decide +kernel) hargs (by simp)
    exact hnone knot ⟨_, .single (.openness htemplate), .single hcircle⟩
  · have htemplate : knotTypes.template? ring = some ring := by decide +kernel
    have hclosed : Answers (knotTypes.isOpen · ring) false :=
      .of_eq (knotTypes.isOpen_succ · ring) (n := 1) (by decide +kernel)
    exact hnone ring ⟨_, .refl, .single (.template htemplate hclosed)⟩
  · have hall : ∀ e ∈ swapTypes.types.entries ++ swapTypes.instances.entries,
        e.2.template = none ∧ e.2.typeArgs = [] := by decide +kernel
    have htemplate : Noncircular fun t u ↦ swapTypes.template? t = some u := by
      refine noncircular_of_lt (fun _ ↦ 0) fun t u h ↦ ?_
      obtain ⟨d, hd, hdu⟩ := Option.bind_eq_some_iff.1 h
      rw [(hall _ (mem_entries_of_find? hd)).1] at hdu
      cases hdu
    have hargs := noncircular_typeArgs_of_entries fun e he ↦ (hall e he).2
    exact (convertible_ends_iff swapTypes leftParam).1.2
      ((convertible_ends_iff swapTypes leftParam).2.1 htemplate hargs)

/-- `b` is among the other types that bound the type parameter `p`. -/
def BoundedBy (r : Registry) (p b : TypeId) : Prop :=
  ∃ info, r.paramInfo? p = some info ∧ b ∈ info.bounds ∧ b ≠ p

theorem ends_accepts_of_satisfies (htemplate : Noncircular fun t u ↦ r.template? t = some u)
    (hargs : Noncircular fun t a ↦ a ∈ r.typeArgs t) (h : Query.Ends r (.satisfies p a)) :
    Query.Ends r (.accepts p a) := by
  refine ends_accepts fun q hq ↦ ?_
  cases hq with
  | constraints _ _ => exact h
  | target _ _ _ => exact ends_isOpen_of_noncircular hargs p
  | types _ _ _ => exact ends_convertible_of_noncircular htemplate hargs a
  | listed _ _ _ _ _ _ _ => exact ends_isOpen_of_noncircular hargs _

theorem ends_satisfies_of_noncircular (htemplate : Noncircular fun t u ↦ r.template? t = some u)
    (hargs : Noncircular fun t a ↦ a ∈ r.typeArgs t) (hbounds : Noncircular r.BoundedBy)
    (p a : TypeId) : Query.Ends r (.satisfies p a) := by
  induction p using hbounds.wellFounded.induction with
  | _ p ih =>
    refine ends_satisfies fun q hq ↦ ?_
    cases hq with
    | @bound _ _ b info before after hp _ hsplit _ =>
      have hb : b ∈ info.bounds.filter (· ≠ p) := by
        rw [hsplit]
        exact List.mem_append_right before List.mem_cons_self
      rw [List.mem_filter, decide_eq_true_eq] at hb
      exact ends_accepts_of_satisfies htemplate hargs (ih b ⟨info, hp, hb⟩)

theorem noncircular_template? {admitted : TypeDecl → Prop} (hadmitted : ∀ d, admitted d → d.template = none)
    (h : Reachable admitted r) : Noncircular fun t u ↦ r.template? t = some u := by
  refine noncircular_of_lt (fun t ↦ if (r.template? t).isSome then 1 else 0) fun t u ht ↦ ?_
  simp [ht, h.template?_template hadmitted ht]

/-- The tests of an argument come to an end exactly if nothing on their way waits for its own answer. Where
instances are made by instantiation alone, only circles of bounds or of type arguments bring that about. -/
theorem satisfies_ends_iff (r : Registry) (p a : TypeId) :
    ((∃ b, Answers (r.satisfies · p a) b) ↔ ¬Query.Circular r (.satisfies p a)) ∧
      ((∃ b, Answers (r.accepts · p a) b) ↔ ¬Query.Circular r (.accepts p a)) ∧
      (Reachable TypeDecl.IsDeclaration r → (Noncircular fun t a ↦ a ∈ r.typeArgs t) →
        Noncircular r.BoundedBy → ¬Query.Circular r (.satisfies p a) ∧ ¬Query.Circular r (.accepts p a)) := by
  refine ⟨Query.ends_iff (q := .satisfies p a), Query.ends_iff (q := .accepts p a), ?_⟩
  intro hreach hargs hbounds
  have htemplate := noncircular_template? (fun _ hd ↦ hd.template) hreach
  have hsatisfies := ends_satisfies_of_noncircular htemplate hargs hbounds p a
  exact ⟨Query.ends_iff.1 hsatisfies,
    Query.ends_iff.1 (ends_accepts_of_satisfies htemplate hargs hsatisfies)⟩

/-- The first of the two type parameters is bounded by itself and by the second. -/
def makeLadder : Attempt Registry RegistrationError TypeId := do
  let _ ← registerParam "T" { owner := "swap", index := 0, bounds := [leftParam, rightParam] }
  registerParam "U" { owner := "swap", index := 1 }

def ladderTypes : Registry := (makeLadder builtin).state?.getD {}

theorem noncircular_boundedBy_ladderTypes : Noncircular ladderTypes.BoundedBy := by
  have hall : ∀ e ∈ ladderTypes.types.entries ++ ladderTypes.instances.entries,
      ∀ b ∈ (e.2.paramInfo.map (·.bounds)).getD [], b ≠ e.1 → b = rightParam ∧ e.1 = leftParam := by
    decide +kernel
  refine noncircular_of_lt (fun t ↦ if t = leftParam then 1 else 0) fun p b h ↦ ?_
  obtain ⟨info, hinfo, hb, hne⟩ := h
  obtain ⟨d, hd, hdinfo⟩ := Option.bind_eq_some_iff.1 hinfo
  obtain ⟨rfl, rfl⟩ := hall (p, d) (mem_entries_of_find? hd) b (by rw [hdinfo]; exact hb) hne
  decide +kernel

theorem satisfies_ends_iff_swap :
    Reachable TypeDecl.IsDeclaration swapTypes ∧
      (∀ fuel, swapTypes.satisfies fuel leftParam .int = none ∧
        swapTypes.accepts fuel leftParam .int = none) ∧
      ∃ b, Answers (ladderTypes.satisfies · leftParam .int) b := by
  have hleft : swapTypes.paramInfo? leftParam =
      some { owner := "swap", index := 0, bounds := [rightParam] } := by decide +kernel
  have hright : swapTypes.paramInfo? rightParam =
      some { owner := "swap", index := 1, bounds := [leftParam] } := by decide +kernel
  have hbound : swapTypes.Asks (.satisfies leftParam .int) (.accepts rightParam .int) :=
    .bound hleft (by decide +kernel) (show _ = [] ++ rightParam :: [] by decide +kernel) (by simp)
  have hback : swapTypes.Asks (.satisfies rightParam .int) (.accepts leftParam .int) :=
    .bound hright (by decide +kernel) (show _ = [] ++ leftParam :: [] by decide +kernel) (by simp)
  have hdown : swapTypes.Asks (.accepts leftParam .int) (.satisfies leftParam .int) :=
    .constraints (by decide +kernel) (by decide +kernel)
  have hcircle : TransGen swapTypes.Asks (.satisfies leftParam .int) (.satisfies leftParam .int) := by
    have hother : swapTypes.Asks (.accepts rightParam .int) (.satisfies rightParam .int) :=
      .constraints (by decide +kernel) (by decide +kernel)
    exact .head hbound (.head hother (.head hback (.single hdown)))
  obtain ⟨hsatisfies, haccepts, -⟩ := satisfies_ends_iff swapTypes leftParam .int
  refine ⟨reachable_swapTypes, fun fuel ↦ ⟨?_, ?_⟩, ?_⟩
  · cases h : swapTypes.satisfies fuel leftParam .int with
    | none => rfl
    | some b =>
      exact absurd ⟨_, .refl, hcircle⟩ (hsatisfies.1 ⟨b, .of_eq (swapTypes.satisfies_succ · _ _) h⟩)
  · cases h : swapTypes.accepts fuel leftParam .int with
    | none => rfl
    | some b =>
      exact absurd ⟨_, .single hdown, hcircle⟩ (haccepts.1 ⟨b, .of_eq (swapTypes.accepts_succ · _ _) h⟩)
  · obtain ⟨hladder, -, hends⟩ := satisfies_ends_iff ladderTypes leftParam .int
    have hreach : Reachable TypeDecl.IsDeclaration ladderTypes :=
      reachable_getD ((keeps_registerParam _ _).bind fun _ ↦ keeps_registerParam _ _)
    have hargs := noncircular_typeArgs_of_entries (r := ladderTypes) (by decide +kernel)
    exact hladder.2 (hends hreach hargs noncircular_boundedBy_ladderTypes).1

end CallResolution.Registry
