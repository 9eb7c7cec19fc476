import CallResolution.Proofs.Conversion.Termination

namespace CallResolution.Registry

open Relation

variable {r : Registry} {fuel : Nat} {ts : List TypeId} {t u p a b : TypeId}

theorem exists_tells {target : TypeId} (h : Query.Ends r (.isOpen t)) :
    ∃ b, Answers (r.tells · p target t) b := by
  unfold tells
  by_cases htp : t = p
  · simp only [if_pos htp]
    exact ⟨true, .const true⟩
  · simp only [if_neg htp]
    obtain ⟨u, hu⟩ := exists_normalize fun _ _ ↦ h
    exact ⟨u == target, hu.bind (.const _)⟩

/-- An argument is accepted if one of the types that it converts to is matched. -/
theorem accepts_of_matches (hp : r.isParam p = false) (ha : Answers (r.convertible · a) ts) (hu : u ∈ ts)
    (hm : r.Matches p u) (hends : ∀ t ∈ p :: ts, Query.Ends r (.isOpen t)) :
    Answers (r.accepts · p a) true := by
  by_cases hne : p = a
  · refine .succ ?_
    simp only [accepts, if_pos hne]
    exact .const true
  obtain ⟨hpends, hends⟩ := List.forall_mem_cons.1 hends
  obtain ⟨target, htarget⟩ := exists_normalize fun _ _ ↦ hpends
  obtain ⟨b, hb⟩ : ∃ b, Answers (fun n ↦ ts.anyM (r.tells n p target)) b := by
    refine exists_answers_anyM fun before t after hsplit _ ↦ exists_tells (hends t ?_)
    rw [hsplit]
    exact List.mem_append_right before List.mem_cons_self
  have htrue : b = true := by
    obtain ⟨m, hm'⟩ := htarget
    obtain ⟨n, hn⟩ := hb
    have hanswer := hn (max m n) (Nat.le_max_right m n)
    cases b with
    | true => rfl
    | false =>
      have hfalse := anyM_eq_some_false_iff.1 hanswer u hu
      exact (tells_iff (hm' (max m n) (Nat.le_max_left m n)) hfalse).2 hm
  refine .succ ?_
  simp only [accepts_of_ne hne hp]
  rw [htrue] at hb
  exact htarget.bind (ha.bind hb)

theorem exists_matches (hne : p ≠ a) (hp : r.isParam p = false) (h : r.accepts fuel p a = some true) :
    ∃ n us, r.convertible n a = some us ∧ ∃ u ∈ us, r.Matches p u := by
  cases fuel with
  | zero => cases h
  | succ fuel =>
    rw [accepts_of_ne hne hp] at h
    obtain ⟨target, htarget, h⟩ := Option.bind_eq_some_iff.1 h
    obtain ⟨us, hus, h⟩ := Option.bind_eq_some_iff.1 h
    obtain ⟨u, hu, htells⟩ := exists_of_anyM h
    exact ⟨fuel, us, hus, u, hu, (tells_iff htarget htells).1 rfl⟩

/-- The ways in which a type that `t` converts to can be missing among types `ts` that hold `t`: the
template of `t` was not looked into, a base of a contract was not followed, or `object` was added to
no interface. -/
inductive Astray (r : Registry) (ts : List TypeId) (t : TypeId) : TypeId → Prop
  | template {template u : TypeId} (ht : r.template? t = some template) (hclosed : ¬r.Open t)
      (h : r.Converts template u) : Astray r ts t u
  | base {c v w u : TypeId} (hd : r.Derives t c) (hw : w ∈ ts) (hc : c ∈ r.interfaces w)
      (hv : r.base? c = some v) (hnew : v ∉ ts) (h : r.Inherits v u) : Astray r ts t u
  | object (hi : r.isInterface t = true) (hnew : .object ∉ ts) : Astray r ts t .object

theorem exists_leaving (hd : r.Derives t a) (ht : t ∈ ts) (ha : a ∉ ts) :
    ∃ c v, r.Derives t c ∧ c ∈ ts ∧ r.base? c = some v ∧ v ∉ ts ∧ r.Derives v a := by
  induction hd using ReflTransGen.head_induction_on with
  | refl => exact absurd ht ha
  | @head t v hv hd ih =>
    by_cases hmem : v ∈ ts
    · obtain ⟨c, w, hvc, h⟩ := ih hmem
      exact ⟨c, w, .head hv hvc, h⟩
    · exact ⟨t, v, .refl, ht, hv, hmem, hd⟩

/-- Of the bases of `t` the first that is missing is the base of a contract. -/
theorem Saturated.astray_of_inherits (h : r.Saturated ts) (ht : t ∈ ts) (hi : r.Inherits t u)
    (hu : u ∉ ts) : r.Astray ts t u := by
  obtain ⟨a, hd, hreach⟩ := hi
  have ha : a ∉ ts := fun ha ↦ hu (h.mem_of_implements ha hreach)
  obtain ⟨c, v, hd, hc, hv, hnew, hva⟩ := exists_leaving hd ht ha
  rcases h.base c hc v hv with hmem | ⟨w, hw, hcw⟩
  · exact absurd hmem hnew
  · exact .base hd hw hcw hv hnew ⟨a, hva, hreach⟩

theorem Saturated.astray (h : r.Saturated ts) (ht : t ∈ ts) (hc : r.Converts t u) (hu : u ∉ ts) :
    r.Astray ts t u := by
  cases hc with
  | inherited hi => exact h.astray_of_inherits ht hi hu
  | object hi => exact .object hi hu
  | template htemplate hclosed hc => exact .template htemplate hclosed hc

/-- What accepts `b` accepts `a`, which converts to `b`, unless all that is matched among the types that
`b` converts to has gone astray on the way from `a`. -/
theorem accepts_of_mem_convertible (hr : ReflTransGen (Step fun _ ↦ True) builtin r)
    (hp : r.isParam p = false) (ha : Answers (r.convertible · a) ts) (hb : b ∈ ts)
    (hacc : Answers (r.accepts · p b) true) (hends : ∀ t ∈ p :: ts, Query.Ends r (.isOpen t)) :
    Answers (r.accepts · p a) true ∨ b ≠ a ∧ ∃ us, Answers (r.convertible · b) us ∧
      (∃ u ∈ us, r.Matches p u) ∧ ∀ u ∈ us, r.Matches p u → u ∉ ts ∧ r.Astray ts b u := by
  by_cases hpb : p = b
  · exact .inl (accepts_of_matches hp ha hb (.inl hpb.symm) hends)
  obtain ⟨n, hn⟩ := hacc.exists_eq
  obtain ⟨m, us, hus, u, hu, hm⟩ := exists_matches hpb hp hn
  by_cases hfound : ∃ u ∈ us, r.Matches p u ∧ u ∈ ts
  · obtain ⟨u, -, hm, hu⟩ := hfound
    exact .inl (accepts_of_matches hp ha hu hm hends)
  · have hlost : ∀ u ∈ us, r.Matches p u → u ∉ ts := fun u hu hm hmem ↦ hfound ⟨u, hu, hm, hmem⟩
    have hus' : Answers (r.convertible · b) us := .of_eq (r.convertible_succ · b) hus
    have hsaturated : r.Saturated ts := by
      obtain ⟨k, hk⟩ := ha.exists_eq
      exact Saturated.nil.visitConvertible (objectOnTop_of_steps hr) hk
    refine .inr ⟨?_, us, hus', ⟨u, hu, hm⟩, fun u hu hm ↦ ⟨hlost u hu hm, ?_⟩⟩
    · rintro rfl
      rw [hus'.unique ha] at hu
      exact hlost u (by rwa [hus'.unique ha]) hm hu
    · rcases converts_of_mem hus hu with hnil | hconverts
      · cases hnil
      · exact hsaturated.astray hb hconverts (hlost u hu hm)

def listOf : TypeId := .ofName "List"
def listItem : TypeId := .ofParam "List" "T"
def openList : TypeId := .ofInstance listOf [listItem]
def intList : TypeId := .ofInstance listOf [.int]
def numberList : TypeId := .ofName "Numbers"
def figure : TypeId := .ofName "Shape"
def gadget : TypeId := .ofName "Widget"
def paintItem : TypeId := .ofParam "paint" "T"
def mark : TypeId := .ofName "IMark"
def stamp : TypeId := .ofName "Stamp"

/-- A class that derives from an instance, a type parameter that is bounded by a class, and a class that
derives from an interface. -/
def makeCatalog : Attempt Registry RegistrationError TypeId := do
  let _ ← registerParam "T" { owner := "List", index := 0 }
  let _ ← register { name := "List", id := listOf, kind := .classType, typeParams := [listItem] }
  let _ ← instantiate 3 listOf [listItem]
  let _ ← instantiate 3 listOf [.int]
  let _ ← register { name := "Numbers", id := numberList, kind := .classType, base := some intList }
  let _ ← register { name := "Shape", id := figure, kind := .classType }
  let _ ← register { name := "Widget", id := gadget, kind := .classType, base := some figure }
  let _ ← registerParam "T" { owner := "paint", index := 0, bounds := [gadget] }
  let _ ← register { name := "IMark", id := mark, kind := .interfaceType }
  register { name := "Stamp", id := stamp, kind := .classType, base := some mark }

def catalogTypes : Registry := (makeCatalog builtin).state?.getD {}

theorem steps_catalogTypes : ReflTransGen (Step fun _ ↦ True) builtin catalogTypes := by
  have hparam : ∀ name info, Attempt.Along (ReflTransGen (Step fun _ ↦ True)) (registerParam name info) :=
    fun _ _ _ _ h ↦ .single (.registerParam h)
  have hregister : ∀ d, Attempt.Along (ReflTransGen (Step fun _ ↦ True)) (register d) :=
    fun _ _ _ h ↦ .single (.register trivial h)
  have hmake : ∀ n template args,
      Attempt.Along (ReflTransGen (Step fun _ ↦ True)) (instantiate n template args) :=
    fun _ _ _ _ _ h ↦ .single (.instantiate h)
  refine steps_getD ?_ (by decide +kernel)
  refine (hparam _ _).bind fun _ ↦ (hregister _).bind fun _ ↦ (hmake _ _ _).bind fun _ ↦ ?_
  refine (hmake _ _ _).bind fun _ ↦ (hregister _).bind fun _ ↦ (hregister _).bind fun _ ↦ ?_
  refine (hregister _).bind fun _ ↦ (hparam _ _).bind fun _ ↦ (hregister _).bind fun _ ↦ hregister _

/-- An open list takes a list of integers and not the class that derives from it, a class takes a class
that derives from it and not a type parameter bounded by that one, and `object` takes an interface and
not the class that derives from it. -/
theorem accepts_not_inherited :
    ReflTransGen (Step fun _ ↦ True) builtin catalogTypes ∧
      ∀ e ∈ [(openList, numberList, intList), (figure, paintItem, gadget), (.object, stamp, mark)],
        catalogTypes.isParam e.1 = false ∧ (catalogTypes.convertible 6 e.2.1).any (e.2.2 ∈ ·) = true ∧
          catalogTypes.accepts 6 e.1 e.2.2 = some true ∧ catalogTypes.accepts 6 e.1 e.2.1 = some false :=
  ⟨steps_catalogTypes, by decide +kernel⟩

theorem accepts_of_mem_convertible_list :
    Answers (catalogTypes.convertible · intList) [intList, .object, listOf] ∧
      Answers (catalogTypes.accepts · openList listOf) true ∧
      Answers (catalogTypes.accepts · openList intList) true := by
  have htypes : Answers (catalogTypes.convertible · intList) [intList, .object, listOf] :=
    .of_eq (catalogTypes.convertible_succ · intList) (n := 5) (by decide +kernel)
  have hacc : Answers (catalogTypes.accepts · openList listOf) true :=
    .of_eq (catalogTypes.accepts_succ · openList listOf) (n := 5) (by decide +kernel)
  have hopen : ∀ t ∈ [openList, intList, .object, listOf], (catalogTypes.isOpen 4 t).isSome = true := by
    decide +kernel
  have hends : ∀ t ∈ [openList, intList, .object, listOf], Query.Ends catalogTypes (.isOpen t) := by
    intro t ht
    obtain ⟨b, hb⟩ := Option.isSome_iff_exists.1 (hopen t ht)
    exact ⟨b, .of_eq (catalogTypes.isOpen_succ · t) hb⟩
  refine ⟨htypes, hacc, ?_⟩
  rcases accepts_of_mem_convertible steps_catalogTypes (by decide +kernel) htypes (by decide +kernel) hacc
    hends with haccepts | ⟨-, us, hus, ⟨u, hu, hm⟩, hlost⟩
  · exact haccepts
  · have hbelow : Answers (catalogTypes.convertible · listOf) [listOf, .object] :=
      .of_eq (catalogTypes.convertible_succ · listOf) (n := 5) (by decide +kernel)
    obtain ⟨hnew, -⟩ := hlost u hu hm
    rw [hus.unique hbelow] at hu
    simp only [List.mem_cons, List.not_mem_nil, or_false] at hu hnew
    tauto

end CallResolution.Registry
