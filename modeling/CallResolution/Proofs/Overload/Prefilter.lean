import CallResolution.Proofs.Generic.Inference
import CallResolution.Proofs.Overload.Soundness

namespace CallResolution

open Attempt Registry

variable {fuel : Nat} {r r' s : Registry} {receiver : Option Expr} {args : List Expr}
  {m d : Method} {map : Substitution} {types : List TypeId} {ambiguity : Ambiguity} {span : Span}

namespace Registry

/-- The type `p` is an instance of `template` with a type parameter among its arguments. -/
structure OpenInstance (r : Registry) (fuel : Nat) (p template : TypeId) : Prop where
  template : r.template? p = some template
  not_param : r.isParam p = false
  isOpen : r.isOpen fuel p = some true

/-- A value of type `t` is a `p`, or converts to the template of `p` or to an open instance of it. -/
def ReachesOpen (r : Registry) (fuel : Nat) (p template t : TypeId) : Prop :=
  t = p ∨ ∃ ts, r.convertible fuel t = some ts ∧ ∃ u ∈ ts, u = p ∨ r.normalize fuel u = some template

theorem reachesOpen_of_accepts {p template t : TypeId} (hp : r.OpenInstance fuel p template)
    (h : r.accepts (fuel + 1) p t = some true) : r.ReachesOpen fuel p template t := by
  rw [accepts] at h
  by_cases ht : p = t
  · exact .inl ht.symm
  · simp only [ht, if_false, hp.not_param, Bool.false_eq_true] at h
    obtain ⟨target, htarget, h⟩ := Option.bind_eq_some_iff.1 h
    obtain ⟨ts, hts, h⟩ := Option.bind_eq_some_iff.1 h
    have hnormal : r.normalize fuel p = some template := by simp [normalize, hp.template, hp.isOpen]
    obtain rfl : template = target := Option.some.inj (hnormal.symm.trans htarget)
    obtain ⟨u, hu, h⟩ := exists_of_anyM h
    refine .inr ⟨ts, hts, u, hu, ?_⟩
    by_cases hup : u = p
    · exact .inl hup
    · rw [if_neg hup] at h
      obtain ⟨v, hv, h⟩ := Option.bind_eq_some_iff.1 h
      have hvt : v = template := by simpa using h
      exact .inr (hvt ▸ hv)

theorem acceptsExpr_of_not_lambda {p : TypeId} {a : Expr} (ha : a.isLambda = false) :
    r.acceptsExpr fuel p a = r.accepts fuel p a.type := by
  cases a with
  | lambda params body t => cases ha
  | _ => rfl

end Registry

namespace Candidate

variable {c c' : Candidate}

def withSpecialized (c : Candidate) (d : Method) (map : Substitution) : Candidate :=
  { c with method := d, substitution := map }

theorem settle_of_inferred (hm : c.method.isUnboundGeneric = true)
    (hpre : c.isApplicable fuel r = .done true r)
    (hinfer : c.method.infer r fuel c.args = some (some map))
    (hspec : c.specialize fuel map r = .done c' s) (happ : c'.isApplicable fuel s = .done true s) :
    c.settle fuel r = .done (some c') s := by
  refine bind_eq_done_iff.2 ⟨true, r, hpre, ?_⟩
  simp only [if_true, hm]
  refine bind_eq_done_iff.2 ⟨some map, r, ask_eq_done_iff.2 ⟨hinfer, rfl⟩, ?_⟩
  exact bind_eq_done_iff.2 ⟨c', s, hspec, bind_eq_done_iff.2 ⟨true, s, happ, rfl⟩⟩

theorem settle_of_inapplicable (hpre : c.isApplicable fuel r = .done false r) :
    c.settle fuel r = .done none r := bind_eq_done_iff.2 ⟨false, r, hpre, rfl⟩

theorem settle_of_exhausted (hpre : c.isApplicable fuel r = .exhausted) :
    c.settle fuel r = .exhausted := by
  unfold settle
  rw [bind_apply, hpre]

/-- A candidate that was applicable can be packed later on. -/
theorem pack_of_grows (happ : c.isApplicable fuel s = .done true s) (hg : Grows s r) :
    ∃ args, c.pack r = .done { c with args := args } r := by
  unfold pack
  cases hv : c.method.isVariadic with
  | false => exact ⟨c.args, rfl⟩
  | true =>
    obtain ⟨-, -, types, htypes, -, -⟩ := isApplicable_eq_true_iff.1 happ
    obtain ⟨rest, element, hl, he, hle, -⟩ := Method.expectedTypes_eq_some_of_variadic hv htypes
    have hrest : c.method.restElement r = .ok (rest.type, element) :=
      Method.restElement_eq_ok_iff.2 ⟨rest, hl, rfl, hg.elementType? he⟩
    have hle' : ¬c.args.length < c.method.params.length - 1 := by
      simpa [Method.fixedParams, hv] using hle
    have hpacked : ∃ packed, c.method.packRest r c.args = .ok packed := by
      simp only [Method.packRest, hrest, bind, Except.bind, hle', if_false]
      exact ⟨_, rfl⟩
    obtain ⟨packed, hpacked⟩ := hpacked
    simp only [if_true, get_bind]
    exact ⟨packed, bind_eq_done_iff.2 ⟨packed, r, ofExcept_eq_done_iff.2 ⟨hpacked, rfl⟩, rfl⟩⟩

theorem pack_of_isApplicable (happ : c.isApplicable fuel r = .done true r) :
    ∃ args, c.pack r = .done { c with args := args } r :=
  pack_of_grows happ (refl r)

theorem best_singleton (c : Candidate) : best r ambiguity span [c] = .ok (some c) := by
  simp [best, ranked, insertRanked]

end Candidate

theorem dispatch_singleton (m : Method) (receiver : Option Expr) (args : List Expr) (r : Registry) :
    dispatch fuel ambiguity span receiver [m] [] args r =
      ((do
        let settled ← (Candidate.ofMethod receiver args m).settle fuel
        match settled with
        | none => return none
        | some c => do
          let packed ← c.pack
          return some (packed.emit (← .get))) : Attempt Registry CompileError (Option Expr)) r := by
  unfold dispatch Candidate.bindTypeArgs
  simp only [List.isEmpty_nil, if_true, List.map_cons, List.map_nil, pure_bind, List.mapM_cons,
    List.mapM_nil, bind_assoc]
  rw [bind_apply, bind_apply]
  cases (Candidate.ofMethod receiver args m).settle fuel r with
  | done settled s =>
    cases settled with
    | none => rfl
    | some c =>
      simp only [List.filterMap_cons, id, List.filterMap_nil, List.mapM_cons, List.mapM_nil, pure_bind,
        bind_assoc]
      rw [bind_apply, bind_apply]
      cases c.pack s with
      | done packed s' =>
        simp only [get_bind, Candidate.best_singleton]
        rfl
      | failed e s' => rfl
      | exhausted => rfl
  | failed e s => rfl
  | exhausted => rfl

theorem dispatch_of_settle {c c' : Candidate}
    (hsettle : (Candidate.ofMethod receiver args m).settle fuel r = .done (some c) s)
    (hpack : c.pack s = .done c' s) :
    dispatch fuel ambiguity span receiver [m] [] args r = .done (some (c'.emit s)) s := by
  rw [dispatch_singleton]
  exact bind_eq_done_iff.2 ⟨some c, s, hsettle, bind_eq_done_iff.2 ⟨c', s, hpack, rfl⟩⟩

theorem dispatch_of_inapplicable
    (h : (Candidate.ofMethod receiver args m).isApplicable fuel r = .done false r) :
    dispatch fuel ambiguity span receiver [m] [] args r = .done none r := by
  rw [dispatch_singleton]
  exact bind_eq_done_iff.2 ⟨none, r, Candidate.settle_of_inapplicable h, rfl⟩

theorem dispatch_of_exhausted
    (h : (Candidate.ofMethod receiver args m).isApplicable fuel r = .exhausted) :
    dispatch fuel ambiguity span receiver [m] [] args r = .exhausted := by
  rw [dispatch_singleton, bind_apply, Candidate.settle_of_exhausted h]

namespace Method

theorem Specializes.length_expectedTypes (h : m.Specializes d) {count : Nat} {types' : List TypeId}
    (ht : m.expectedTypes r count = some types) (ht' : d.expectedTypes s count = some types') :
    types.length = types'.length := by
  cases hv : m.isVariadic with
  | false =>
    rw [expectedTypes_of_fixed hv] at ht
    rw [expectedTypes_of_fixed (h.isVariadic.trans hv)] at ht'
    cases ht
    cases ht'
    simp [paramTypes, h.params_length]
  | true =>
    have hv' := h.isVariadic.trans hv
    obtain ⟨-, -, -, -, hle, rfl⟩ := expectedTypes_eq_some_of_variadic hv ht
    obtain ⟨-, -, -, -, hle', rfl⟩ := expectedTypes_eq_some_of_variadic hv' ht'
    simp only [List.length_append, List.length_map, List.length_replicate]
    omega

end Method

/-- If the specialization takes the receiver and the arguments, the declared method takes them as soon
as its declared types do. -/
theorem Method.Specializes.isApplicable (h : m.Specializes d)
    (happ : ((Candidate.ofMethod receiver args m).withSpecialized d map).isApplicable fuel s =
      .done true s)
    (ht : m.expectedTypes r (m.supplied receiver args).length = some types) :
    types.length = (m.supplied receiver args).length ∧
      (Candidate.ofMethod receiver args m).isApplicable fuel r = (ask
        (·.acceptsAll fuel types (m.supplied receiver args)) : Attempt Registry CompileError Bool) r := by
  have hmethod := Candidate.ofMethod_method receiver args m
  have hargs := Candidate.ofMethod_args receiver args m
  obtain ⟨-, hfit', types', ht', hlen', -⟩ := Candidate.isApplicable_eq_true_iff.1 happ
  simp only [Candidate.withSpecialized, hargs] at ht' hlen'
  have hlen := (h.length_expectedTypes ht ht').trans hlen'
  have hfit : (Candidate.ofMethod receiver args m).receiverFits = true := by
    unfold Candidate.receiverFits at hfit' ⊢
    rwa [hmethod, ← h.kind]
  refine ⟨hlen, ?_⟩
  rw [Candidate.isApplicable_eq_ask hfit (by rwa [hmethod, hargs]) (by rwa [hargs]), hargs]

/-- A generic method whose type arguments can be inferred, and whose specialization then takes the
receiver and the arguments, is called exactly if its declared parameter types, with their type
parameters, take the arguments too. A type parameter refuses no argument there. An open instance
takes one only if that converts to the template or to an open instance of it: the closed instances
from which the type arguments are inferred do not count. -/
theorem dispatch_inferred (ambiguity : Ambiguity) (span : Span) (hm : m.isUnboundGeneric = true)
    (hinfer : m.infer r fuel (m.supplied receiver args) = some (some map))
    (hspec : m.specialize fuel map r = .done d s)
    (happ : ((Candidate.ofMethod receiver args m).withSpecialized d map).isApplicable fuel s =
      .done true s) :
    ∃ types e on emitted, m.expectedTypes r (m.supplied receiver args).length = some types ∧
      types.length = (m.supplied receiver args).length ∧ e.call? = some (on, d, emitted) ∧
      (r.acceptsAll fuel types (m.supplied receiver args) = some true →
        dispatch fuel ambiguity span receiver [m] [] args r = .done (some e) s) ∧
      (r.acceptsAll fuel types (m.supplied receiver args) = some false →
        dispatch fuel ambiguity span receiver [m] [] args r = .done none r) ∧
      (r.acceptsAll fuel types (m.supplied receiver args) = none →
        dispatch fuel ambiguity span receiver [m] [] args r = .exhausted) ∧
      (∀ p a, (p, a) ∈ types.zip (m.supplied receiver args) → p ∈ m.typeParams →
        r.acceptsExpr fuel p a ≠ some false) ∧
      ∀ n p template a, fuel = n + 1 → (p, a) ∈ types.zip (m.supplied receiver args) →
        r.OpenInstance n p template → a.isLambda = false → ¬r.ReachesOpen n p template a.type →
        ∀ e' s', dispatch fuel ambiguity span receiver [m] [] args r ≠ .done (some e') s' := by
  obtain ⟨types, -, ht, -⟩ := Method.infer_eq_some hinfer
  have hmethod := Candidate.ofMethod_method receiver args m
  have hargs := Candidate.ofMethod_args receiver args m
  obtain ⟨hlen, hpre⟩ := (Method.specialize_eq_done hspec).1.isApplicable happ ht
  obtain ⟨packed, hpack⟩ := Candidate.pack_of_isApplicable happ
  obtain ⟨on, hcall⟩ := Candidate.exists_call?_emit s
    { (Candidate.ofMethod receiver args m).withSpecialized d map with args := packed }
  have htrue (h : r.acceptsAll fuel types (m.supplied receiver args) = some true) :
      (Candidate.ofMethod receiver args m).settle fuel r =
        .done (some ((Candidate.ofMethod receiver args m).withSpecialized d map)) s := by
    refine Candidate.settle_of_inferred (by rwa [hmethod]) ?_ (by rwa [hmethod, hargs])
      (Candidate.specialize_eq_done_iff.2 ⟨d, by rwa [hmethod], rfl⟩) happ
    exact hpre.trans (ask_eq_done_iff.2 ⟨h, rfl⟩)
  have hfalse (h : r.acceptsAll fuel types (m.supplied receiver args) = some false) :
      dispatch fuel ambiguity span receiver [m] [] args r = .done none r :=
    dispatch_of_inapplicable (hpre.trans (ask_eq_done_iff.2 ⟨h, rfl⟩))
  have hnone (h : r.acceptsAll fuel types (m.supplied receiver args) = none) :
      dispatch fuel ambiguity span receiver [m] [] args r = .exhausted :=
    dispatch_of_exhausted (by rw [hpre, ask, h])
  refine ⟨types, _, on, _, ht, hlen, hcall, fun h ↦ dispatch_of_settle (htrue h) hpack, hfalse, hnone,
    fun p a ha hp ↦ Method.acceptsExpr_ne_false_of_infer hinfer ht hp ha, ?_⟩
  rintro n p template a rfl hmem hopen hlambda hreaches e' s' hfound
  cases hall : r.acceptsAll (n + 1) types (m.supplied receiver args) with
  | none => rw [hnone hall] at hfound; cases hfound
  | some b =>
    cases b with
    | false => rw [hfalse hall] at hfound; cases hfound
    | true =>
      have haccept := acceptsAll_eq_some_true_iff.1 hall (p, a) hmem
      rw [acceptsExpr_of_not_lambda hlambda] at haccept
      exact hreaches (reachesOpen_of_accepts hopen haccept)

/-- The types of `gather` with the array of integers, and a class `Numbers` derived from it. -/
def numbersTypes : Registry :=
  (gatherTypes.insertInstance
    { name := "array<int>", id := .ofInstance .array [.int], kind := .classType,
      base := some .object, template := some .array, typeArgs := [.int] }).insert
    { name := "Numbers", id := ⟨79⟩, kind := .classType, base := some (.ofInstance .array [.int]) }

def first : Method where
  name := "first"
  owner := .object
  id := ⟨80⟩
  kind := .staticMethod
  params := [⟨"items", .ofInstance .array [gatherItem]⟩]
  result := gatherItem
  typeParams := [gatherItem]

/-- The call `first(numbers)`: `int` is inferred and `first<int>` takes the argument, but the call
is not found. -/
theorem dispatch_inferred_numbers :
    ∃ map d s, first.infer numbersTypes 5 [.parameter "numbers" ⟨79⟩] = some (some map) ∧
      first.specialize 5 map numbersTypes = .done d s ∧
      ((Candidate.ofMethod none [.parameter "numbers" ⟨79⟩] first).withSpecialized d map).isApplicable
        5 s = .done true s ∧
      dispatch 5 .firstWins .unknown none [first] [] [.parameter "numbers" ⟨79⟩] numbersTypes =
        .done none numbersTypes := by
  have hrun : (first.infer numbersTypes 5 [.parameter "numbers" ⟨79⟩]).join.any (fun map ↦
      ((do
        let d ← first.specialize 5 map
        ((Candidate.ofMethod none [.parameter "numbers" ⟨79⟩] first).withSpecialized d map).isApplicable
          5) numbersTypes).value? == some true) = true := by
    decide +kernel
  obtain ⟨map, hinfer, hrun⟩ := (Option.any_eq_true _ _).1 hrun
  have hinfer := Option.join_eq_some_iff.1 hinfer
  obtain ⟨s', hrun⟩ := Outcome.exists_done (beq_iff_eq.1 hrun)
  obtain ⟨d, s, hspec, happ⟩ := bind_eq_done_iff.1 hrun
  obtain rfl := (Candidate.along_isApplicable _).of_done happ
  obtain ⟨types, -, -, -, ht, -, -, -, hrefused, -⟩ :=
    dispatch_inferred .firstWins .unknown (by decide) hinfer hspec happ
  have htypes : first.expectedTypes numbersTypes 1 = some first.paramTypes := rfl
  obtain rfl : first.paramTypes = types := Option.some.inj (htypes.symm.trans ht)
  exact ⟨map, d, s, hinfer, hspec, happ, hrefused (by decide +kernel)⟩

example : (dispatch 5 .firstWins .unknown none [first] []
    [.parameter "numbers" (.ofInstance .array [.int])] numbersTypes).value?.join.isSome = true := by
  decide +kernel

end CallResolution
