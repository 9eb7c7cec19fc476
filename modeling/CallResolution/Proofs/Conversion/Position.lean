import CallResolution.Proofs.Conversion.CommonGround
import CallResolution.Proofs.Conversion.Termination

namespace CallResolution.Registry

variable {r : Registry} {fuel : Nat} {seen types ts : List TypeId} {t p target : TypeId} {info : TypeParam}

/-! A type that is listed among those that `t` converts to is found by its position alone. Whether it takes
a value of `t` is another question if it is a type parameter. -/

/-- With every listed type come its contracts, except for `object`, which is added after the contracts. -/
theorem contracts_listed (hseen : ∀ u ∈ seen, u ≠ .object → ∀ c ∈ r.interfaces u, c ∈ seen)
    (h : r.visitConvertible fuel seen t = some ts) :
    ∀ u ∈ ts, u ≠ .object → ∀ c ∈ r.interfaces u, c ∈ ts := by
  induction fuel generalizing seen t ts with
  | zero => cases h
  | succ fuel ih =>
    obtain ⟨contracts, hround, h⟩ := visitConvertible_eq_some_iff.1 h
    have hobject : ∀ u ∈ r.withObject t contracts, u ≠ .object →
        ∀ c ∈ r.interfaces u, c ∈ r.withObject t contracts := by
      intro u hu hne c hc
      have hu : u ∈ contracts := (mem_withObject.1 hu).resolve_right fun hobject ↦ hne hobject.2
      refine mem_withObject.2 (.inl ?_)
      rcases hround.contracts hu with hold | hall
      · exact hround.isPrefix.subset (hseen u hold hne c hc)
      · exact hall c hc
    rcases h with ⟨rfl, -⟩ | ⟨template, -, -, h⟩
    · exact hobject
    · exact ih hobject h

theorem isParam_of_paramInfo? (hp : r.paramInfo? p = some info) : r.isParam p = true := by
  rw [isParam, hp, Option.isSome_some]

theorem BoundedBy.isParam {b : TypeId} (h : r.BoundedBy p b) : r.isParam p = true := by
  obtain ⟨info, hinfo, -⟩ := h
  exact isParam_of_paramInfo? hinfo

theorem bound_listed {b : TypeId} (htypes : Answers (r.convertible · t) types) (hp : p ∈ types)
    (hne : p ≠ .object) (hb : r.BoundedBy p b) : b ∈ types := by
  obtain ⟨n, hn⟩ := htypes.exists_eq
  obtain ⟨info, hinfo, hb, -⟩ := hb
  refine contracts_listed (by simp) hn p hp hne b ?_
  rwa [interfaces_of_paramInfo? hinfo]

/-- `t` does not meet the constraints of the type parameter `p` or of one that bounds it. The bounds of
`object` are not listed with it, so that they are asked themselves should it be a type parameter. -/
inductive FallsShort (r : Registry) (t : TypeId) : TypeId → Prop
  | constraints {p : TypeId} {info : TypeParam} (hne : p ≠ t) (hp : r.paramInfo? p = some info)
      (hc : r.meetsConstraints info.constraints t = false) : FallsShort r t p
  | bound {p b : TypeId} (hne : p ≠ t) (hobject : p ≠ .object) (hb : r.BoundedBy p b)
      (h : FallsShort r t b) : FallsShort r t p
  | object {b : TypeId} (hne : .object ≠ t) (hb : r.BoundedBy .object b)
      (h : Answers (r.accepts · b t) false) : FallsShort r t .object

theorem FallsShort.ne (h : r.FallsShort t p) : p ≠ t := by
  cases h with
  | constraints hne _ _ => exact hne
  | bound hne _ _ _ => exact hne
  | object hne _ _ => exact hne

theorem FallsShort.isParam (h : r.FallsShort t p) : r.isParam p = true := by
  cases h with
  | constraints _ hp _ => exact isParam_of_paramInfo? hp
  | bound _ _ hb _ => exact hb.isParam
  | object _ hb _ => exact hb.isParam

/-- A listed type that is no type parameter is found when the list is searched. -/
theorem accepts_of_listed {b : Bool} (htypes : Answers (r.convertible · t) types) (hmem : p ∈ types)
    (hne : p ≠ t) (hp : r.isParam p = false) (h : r.accepts fuel p t = some b) : b = true := by
  cases fuel with
  | zero => cases h
  | succ fuel =>
    rw [accepts_of_ne hne hp] at h
    obtain ⟨target, -, h⟩ := Option.bind_eq_some_iff.1 h
    obtain ⟨us, hus, h⟩ := Option.bind_eq_some_iff.1 h
    rw [htypes.unique (.of_eq (r.convertible_succ · t) hus)] at hmem
    cases b with
    | true => rfl
    | false =>
      have hself := anyM_eq_some_false_iff.1 h p hmem
      rw [tells, if_pos rfl] at hself
      cases hself

/-- A type parameter asks for its constraints first and then each of its bounds. -/
theorem accepts_param_cases {b : Bool} (hne : p ≠ t) (hp : r.paramInfo? p = some info)
    (h : r.accepts fuel p t = some b) : ∃ n < fuel,
      (b = true ∧ r.meetsConstraints info.constraints t = true ∧
          ∀ c, r.BoundedBy p c → r.accepts n c t = some true) ∨
        (b = false ∧ (r.meetsConstraints info.constraints t = false ∨
          ∃ c, r.BoundedBy p c ∧ r.accepts n c t = some false)) := by
  have hparam := isParam_of_paramInfo? hp
  have hbound : ∀ c, c ∈ info.bounds.filter (· ≠ p) ↔ r.BoundedBy p c := by
    intro c
    rw [List.mem_filter, decide_eq_true_eq, BoundedBy, hp]
    simp
  obtain _ | _ | n := fuel
  · cases h
  · rw [accepts, if_neg hne, if_pos hparam] at h
    cases h
  · rw [accepts, if_neg hne, if_pos hparam, satisfies, hp] at h
    dsimp only at h
    refine ⟨n, by omega, ?_⟩
    split at h
    · rename_i hc
      cases b with
      | true => exact .inl ⟨rfl, hc, fun c hb ↦ allM_eq_some_true_iff.1 h c ((hbound c).2 hb)⟩
      | false =>
        obtain ⟨c, hb, hno⟩ := exists_of_allM h
        exact .inr ⟨rfl, .inr ⟨c, (hbound c).1 hb, hno⟩⟩
    · rename_i hc
      cases h
      exact .inr ⟨rfl, .inl (Bool.eq_false_iff.2 hc)⟩

/-- A listed type takes `t` unless `t` falls short of it: the bounds of a listed type parameter are listed
too, so that only constraints can stand in the way. -/
theorem accepts_iff_of_listed (htypes : Answers (r.convertible · t) types) (hmem : p ∈ types) {b : Bool}
    (h : r.accepts fuel p t = some b) : b = true ↔ ¬r.FallsShort t p := by
  -- from a type parameter to its bounds the depth goes down by two
  induction fuel using Nat.strongRecOn generalizing p b with
  | ind fuel ih =>
  by_cases hne : p = t
  · refine iff_of_true ?_ fun hshort ↦ hshort.ne hne
    cases fuel with
    | zero => cases h
    | succ fuel =>
      rw [accepts, if_pos hne] at h
      exact (Option.some.inj h).symm
  cases hp : r.paramInfo? p with
  | none =>
    have hparam : r.isParam p = false := by rw [isParam, hp, Option.isSome_none]
    refine iff_of_true (accepts_of_listed htypes hmem hne hparam h) fun hshort ↦ ?_
    exact Bool.false_ne_true (hparam.symm.trans hshort.isParam)
  | some info =>
    obtain ⟨n, hn, ⟨rfl, hc, hbounds⟩ | ⟨rfl, hno⟩⟩ := accepts_param_cases hne hp h
    · refine iff_of_true rfl fun hshort ↦ ?_
      cases hshort with
      | constraints _ hp' hc' =>
        cases hp.symm.trans hp'
        exact Bool.false_ne_true (hc'.symm.trans hc)
      | bound _ hobject hb hshort =>
        exact (ih n hn (bound_listed htypes hmem hobject hb) (hbounds _ hb)).1 rfl hshort
      | object _ hb hno =>
        exact Bool.false_ne_true (hno.unique (.of_eq (r.accepts_succ · _ t) (hbounds _ hb)))
    · refine iff_of_false Bool.false_ne_true (not_not.2 ?_)
      rcases hno with hc | ⟨c, hb, hno⟩
      · exact .constraints hne hp hc
      · by_cases hobject : p = .object
        · subst hobject
          exact .object hne hb (.of_eq (r.accepts_succ · c t) hno)
        · refine .bound hne hobject hb (not_not.1 fun hshort ↦ ?_)
          exact Bool.false_ne_true ((ih n hn (bound_listed htypes hmem hobject hb) hno).2 hshort)

theorem position_of_listed (hmem : target ∈ types) :
    Answers (r.position · types t target) (some (types.idxOf target)) := by
  simp only [position_eq, if_pos hmem]
  exact .const _

theorem position_of_not_listed {b : Bool} (hmem : target ∉ types) (hb : Answers (r.accepts · target t) b) :
    Answers (r.position · types t target) (if b then some types.length else none) := by
  simp only [position_eq, if_neg hmem]
  exact hb.bind (.const _)

theorem accepts_of_position {i : Nat} (hmem : target ∉ types)
    (h : Answers (r.position · types t target) (some i)) : Answers (r.accepts · target t) true := by
  obtain ⟨n, hn⟩ := h.exists_eq
  rw [position_eq, if_neg hmem] at hn
  obtain ⟨b, hb, hn⟩ := Option.bind_eq_some_iff.1 hn
  cases b with
  | true => exact .of_eq (r.accepts_succ · target t) hb
  | false => cases hn

/-- That a type has a position says exactly that it takes a value of `t`, unless it is listed and `t` falls
short of it or the question whether it takes one has no answer. -/
theorem position_agrees_iff (htypes : Answers (r.convertible · t) types) (target : TypeId) :
    (target ∈ types → Answers (r.position · types t target) (some (types.idxOf target))) ∧
      (target ∉ types → ∀ b, Answers (r.accepts · target t) b →
        Answers (r.position · types t target) (if b then some types.length else none)) ∧
      (((∃ i, Answers (r.position · types t target) (some i)) ↔ Answers (r.accepts · target t) true) ↔
        (target ∈ types → Query.Ends r (.accepts target t) ∧ ¬r.FallsShort t target)) ∧
      (r.FallsShort t target → r.isParam target = true ∧ target ≠ t) := by
  refine ⟨position_of_listed, fun hmem _ ↦ position_of_not_listed hmem, ?_,
    fun hshort ↦ ⟨hshort.isParam, hshort.ne⟩⟩
  by_cases hmem : target ∈ types
  · have hanswers : ∀ b, Answers (r.accepts · target t) b → (b = true ↔ ¬r.FallsShort t target) := by
      intro b hb
      obtain ⟨n, hn⟩ := hb.exists_eq
      exact accepts_iff_of_listed htypes hmem hn
    have hfound : ∃ i, Answers (r.position · types t target) (some i) := ⟨_, position_of_listed hmem⟩
    rw [iff_true_left hfound, imp_iff_right hmem]
    constructor
    · exact fun hyes ↦ ⟨⟨true, hyes⟩, (hanswers true hyes).1 rfl⟩
    · rintro ⟨⟨b, hb⟩, hshort⟩
      exact (hanswers b hb).2 hshort ▸ hb
  · refine iff_of_true ⟨?_, fun hyes ↦ ⟨_, position_of_not_listed hmem hyes⟩⟩ fun h ↦ absurd h hmem
    rintro ⟨i, hi⟩
    exact accepts_of_position hmem hi

def madeParam : TypeId := .ofParam "pair" "T"
def looseParam : TypeId := .ofParam "pair" "U"
def strictParam : TypeId := .ofParam "pair" "V"

/-- A type parameter that asks for a default constructor bounds two others, one that asks for it as well and
one that does not. -/
def makeBounded : Attempt Registry RegistrationError TypeId := do
  let constraints : Constraints := { defaultConstructor := true }
  let _ ← registerParam "T" { owner := "pair", index := 0, constraints := constraints }
  let _ ← registerParam "U" { owner := "pair", index := 1, bounds := [madeParam] }
  registerParam "V" { owner := "pair", index := 2, constraints := constraints, bounds := [madeParam] }

def boundedTypes : Registry := (makeBounded builtin).state?.getD {}

theorem position_agrees_iff_pair :
    Reachable TypeDecl.IsDeclaration boundedTypes ∧
      (∃ types, Answers (boundedTypes.convertible · looseParam) types ∧
        Answers (boundedTypes.position · types looseParam madeParam) (some 2) ∧
        ¬((∃ i, Answers (boundedTypes.position · types looseParam madeParam) (some i)) ↔
          Answers (boundedTypes.accepts · madeParam looseParam) true)) ∧
      ∃ types, Answers (boundedTypes.convertible · strictParam) types ∧
        ((∃ i, Answers (boundedTypes.position · types strictParam madeParam) (some i)) ↔
          Answers (boundedTypes.accepts · madeParam strictParam) true) := by
  have hreach : Reachable TypeDecl.IsDeclaration boundedTypes :=
    reachable_getD ((keeps_registerParam _ _).bind fun _ ↦ (keeps_registerParam _ _).bind fun _ ↦
      keeps_registerParam _ _)
  have hloose : Answers (boundedTypes.convertible · looseParam) [looseParam, .object, madeParam] :=
    .of_eq (boundedTypes.convertible_succ · looseParam) (n := 4) (by decide +kernel)
  have hstrict : Answers (boundedTypes.convertible · strictParam) [strictParam, .object, madeParam] :=
    .of_eq (boundedTypes.convertible_succ · strictParam) (n := 4) (by decide +kernel)
  have hinfo : boundedTypes.paramInfo? madeParam =
      some { owner := "pair", index := 0, constraints := { defaultConstructor := true } } := by decide +kernel
  have hshort : boundedTypes.FallsShort looseParam madeParam :=
    .constraints (by decide +kernel) hinfo (by decide +kernel)
  have hmeets : boundedTypes.accepts 4 madeParam strictParam = some true := by decide +kernel
  obtain ⟨hplace, -, hdiffer, -⟩ := position_agrees_iff hloose madeParam
  obtain ⟨-, -, hagree, -⟩ := position_agrees_iff hstrict madeParam
  refine ⟨hreach, ⟨_, hloose, hplace (by decide +kernel), fun h ↦ ?_⟩, _, hstrict, hagree.2 fun hmem ↦ ?_⟩
  · exact (hdiffer.1 h (by decide +kernel)).2 hshort
  · refine ⟨⟨true, .of_eq (boundedTypes.accepts_succ · _ _) hmeets⟩, ?_⟩
    exact (accepts_iff_of_listed hstrict hmem hmeets).1 rfl

end CallResolution.Registry
