import CallResolution.Proofs.Overload.Stages
import CallResolution.Registry.Builtin
import Mathlib.Data.List.Forall2

namespace CallResolution

open Attempt Registry

variable {fuel : Nat} {r r' s : Registry} {receiver : Option Expr} {members : List Method}
  {typeArgs : List TypeId} {args : List Expr}

namespace Expr

/-- The first expression is the second, up to the delegate type of a lambda and a conversion. -/
inductive Carries : Expr → Expr → Prop
  | same (a : Expr) : Carries a a
  | bound (params : List Param) (body : Expr) (t t' : TypeId) :
      Carries (.lambda params body t') (.lambda params body t)
  | converted {e a : Expr} (t : TypeId) : Carries e a → Carries (.convert e t) a

def call? : Expr → Option (Option Expr × Method × List Expr)
  | call on d args _ => some (on, d, args)
  | new d args _ => some (none, d, args)
  | _ => none

def isNew : Expr → Bool
  | new _ _ _ => true
  | _ => false

/-- The arguments of a call, with the items of an array that ends them in its place. -/
def spread (args : List Expr) : List Expr :=
  match args.getLast? with
  | some (newArray _ items _) => args.dropLast ++ items
  | _ => args

theorem carries_coerce (r : Registry) (t : TypeId) (a : Expr) : Carries (r.coerce t a) a := by
  unfold Registry.coerce
  split
  · cases a with
    | lambda params body u => exact .bound params body u t
    | _ => exact .same _
  · exact .same a

theorem carries_convertTo {e a : Expr} (h : Carries e a) (t : TypeId) : Carries (e.convertTo t) a := by
  unfold convertTo
  split
  · exact h
  · exact .converted t h

end Expr

/-- What is supplied to a method: an extension method takes the receiver first. -/
def Method.supplied (d : Method) (receiver : Option Expr) (args : List Expr) : List Expr :=
  if d.isExtension then receiver.toList ++ args else args

/-- `d` is the member `m`, or `m` with a type for each of its type parameters, specialized on the
way from `r` to `r'`. -/
def Method.IsVersion (fuel : Nat) (r r' : Registry) (m d : Method) : Prop :=
  d = m ∨ ∃ map s s', (∀ p ∈ m.typeParams, (map.find? p).isSome = true) ∧
    m.specialize fuel map s = .done d s' ∧ Grows r s ∧ Grows s' r'

theorem Method.IsVersion.specializes {m d : Method} (h : m.IsVersion fuel r r' d) :
    m.Specializes d := by
  rcases h with rfl | ⟨map, s, s', -, hd, -, -⟩
  · exact ⟨rfl, rfl, rfl, rfl, rfl, rfl, rfl⟩
  · exact (Method.specialize_eq_done hd).1

/-- The candidates of a call are settled one after another, and `s` is the registry when `c` has
come out of it. The last step of that is the check that `c` applies. -/
def SettledIn (fuel : Nat) (r : Registry) (receiver : Option Expr) (members : List Method)
    (typeArgs : List TypeId) (args : List Expr) (c : Candidate) (s : Registry) : Prop :=
  ∃ r₁ before c₀ after settled s₀,
    Candidate.bindTypeArgs fuel typeArgs (members.map (.ofMethod receiver args)) r =
      .done (before ++ c₀ :: after) r₁ ∧
    before.mapM (Candidate.settle fuel) r₁ = .done settled s₀ ∧
    c₀.settle fuel s₀ = .done (some c) s ∧ c.isApplicable fuel s = .done true s

/-- What a call `e` to the method `d` with the arguments `emitted` owes to what was supplied to it
and checked in the registry `s`, if it is emitted in `r'`. -/
structure SoundCall (fuel : Nat) (s r' : Registry) (receiver : Option Expr) (d : Method)
    (supplied : List Expr) (e : Expr) (emitted : List Expr) : Prop where
  callee : ∃ on, e.call? = some (on, d, emitted) ∧
    (on.isSome = true ↔ d.kind = .instanceMethod) ∧ (on.isSome = true → on = receiver)
  constructs : e.isNew = true ↔ d.kind = .constructor
  type : e.type = d.result
  arity : emitted.length = d.params.length
  fixed_le : d.fixedParams.length ≤ supplied.length
  fixed_accepted : ∀ p ∈ d.fixedParams.zip supplied, s.acceptsExpr fuel p.1.type p.2 = some true
  fixed_emitted : emitted.take d.fixedParams.length =
    List.zipWith (fun p a ↦ r'.coerce p.type a) d.fixedParams supplied
  no_rest : d.isVariadic = false → supplied.length = d.params.length
  packed : d.isVariadic = true → ∃ rest element items, d.params.getLast? = some rest ∧
    s.elementType? rest.type = some element ∧
    (∀ a ∈ supplied.drop d.fixedParams.length, s.acceptsExpr fuel element a = some true) ∧
    emitted.getLast? = some (.newArray element items rest.type) ∧ ∀ i ∈ items, i.type = element
  in_order : List.Forall₂ Expr.Carries (if d.isVariadic then Expr.spread emitted else emitted)
    supplied

theorem Expr.spread_concat (front : List Expr) (element t : TypeId) (items : List Expr) :
    spread (front ++ [.newArray element items t]) = front ++ items := by
  simp [spread]

theorem zipWith_take_length {α β γ : Type} (f : α → β → γ) (xs : List α) (ys : List β) :
    List.zipWith f xs (ys.take xs.length) = List.zipWith f xs ys := by
  induction xs generalizing ys with
  | nil => rfl
  | cons x xs ih =>
    cases ys with
    | nil => rfl
    | cons y ys => simp [ih]

theorem acceptsAll_eq_some_true_iff {types : List TypeId} {args : List Expr} :
    r.acceptsAll fuel types args = some true ↔
      ∀ p ∈ types.zip args, r.acceptsExpr fuel p.1 p.2 = some true :=
  allM_eq_some_true_iff

theorem acceptsAll_append_replicate_iff {ps : List Param} {element : TypeId} {args : List Expr}
    (hle : ps.length ≤ args.length) :
    r.acceptsAll fuel (ps.map Param.type ++ List.replicate (args.length - ps.length) element) args =
        some true ↔
      (∀ p ∈ ps.zip args, r.acceptsExpr fuel p.1.type p.2 = some true) ∧
        ∀ a ∈ args.drop ps.length, r.acceptsExpr fuel element a = some true := by
  rw [acceptsAll_eq_some_true_iff]
  induction ps generalizing args with
  | nil =>
    induction args with
    | nil => simp
    | cons a as ih => simpa [List.replicate_succ] using fun _ ↦ ih
  | cons p ps ih =>
    cases args with
    | nil => simp at hle
    | cons a as =>
      have hih := ih (by simpa using hle)
      simp only [List.map_cons, List.cons_append, List.length_cons, Nat.add_sub_add_right,
        List.zip_cons_cons, List.forall_mem_cons, List.drop_succ_cons, hih, and_assoc]

theorem Registry.Grows.elementType? (h : Grows r r') {t element : TypeId}
    (he : r.elementType? t = some element) : r'.elementType? t = some element := by
  unfold Registry.elementType? template? typeArgs at he ⊢
  cases hd : r.find? t with
  | none => simp [hd] at he
  | some d => simpa [hd, h.find? hd] using he

theorem forall₂_carries_zipWith (ps : List Param) (as : List Expr) (h : ps.length = as.length) :
    List.Forall₂ Expr.Carries (List.zipWith (fun p a ↦ r.coerce p.type a) ps as) as := by
  induction ps generalizing as with
  | nil =>
    cases as with
    | nil => exact .nil
    | cons a as => simp at h
  | cons p ps ih =>
    cases as with
    | nil => simp at h
    | cons a as => exact .cons (Expr.carries_coerce r p.type a) (ih as (by simpa using h))

theorem forall₂_carries_items (element : TypeId) (as : List Expr) :
    List.Forall₂ Expr.Carries (as.map fun a ↦ (r.coerce element a).convertTo element) as := by
  rw [List.forall₂_map_left_iff]
  exact List.forall₂_same.2 fun a _ ↦ Expr.carries_convertTo (Expr.carries_coerce r element a) element

namespace Candidate

def emitted (r : Registry) (c : Candidate) : List Expr :=
  List.zipWith (fun p a ↦ r.coerce p.type a) c.method.params c.args

theorem emit_eq (r : Registry) (c : Candidate) :
    c.emit r = if c.method.isConstructor then .new c.method (c.emitted r) c.method.result
      else .call c.receiver c.method (c.emitted r) c.method.result := by
  unfold emit emitted
  rw [List.zipWith_comm, List.zip, List.map_zipWith]

theorem callee_emit {c : Candidate} (hc : c.receiverFits = true)
    (hr : c.receiver.isSome = true → c.receiver = receiver) :
    (∃ on, (c.emit r).call? = some (on, c.method, c.emitted r) ∧
      (on.isSome = true ↔ c.method.kind = .instanceMethod) ∧ (on.isSome = true → on = receiver)) ∧
    ((c.emit r).isNew = true ↔ c.method.kind = .constructor) ∧
    (c.emit r).type = c.method.result := by
  rw [emit_eq]
  unfold receiverFits at hc
  cases hk : c.method.kind with
  | instanceMethod =>
    rw [hk] at hc
    simpa [Method.isConstructor, hk, Expr.call?, Expr.isNew, Expr.type, hc] using hr
  | staticMethod =>
    rw [hk] at hc
    have hn : c.receiver = none := by simpa using hc
    simp [Method.isConstructor, hk, Expr.call?, Expr.isNew, Expr.type, hn]
  | constructor => simp [Method.isConstructor, hk, Expr.call?, Expr.isNew, Expr.type]

theorem exists_call?_emit (r : Registry) (c : Candidate) :
    ∃ on, (c.emit r).call? = some (on, c.method, c.emitted r) := by
  rw [emit_eq]
  split
  · exact ⟨none, rfl⟩
  · exact ⟨c.receiver, rfl⟩

theorem soundCall_of_fixed {c : Candidate} (hv : c.method.isVariadic = false)
    (ha : c.isApplicable fuel s = .done true s)
    (hr : c.receiver.isSome = true → c.receiver = receiver) :
    SoundCall fuel s r receiver c.method c.args (c.emit r) (c.emitted r) := by
  obtain ⟨-, hfit, types, htypes, hlen, haccept⟩ := isApplicable_eq_true_iff.1 ha
  rw [Method.expectedTypes_of_fixed hv] at htypes
  cases htypes
  have hlen' : c.method.params.length = c.args.length := by simpa [Method.paramTypes] using hlen
  have hfixed : c.method.fixedParams = c.method.params := by simp [Method.fixedParams, hv]
  have hemitted : (c.emitted r).length = c.method.params.length := by
    simp [emitted, ← hlen']
  obtain ⟨callee, constructs, type⟩ := callee_emit hfit hr (r := r)
  refine ⟨callee, constructs, type, hemitted, by rw [hfixed]; omega, ?_, ?_, fun _ ↦ hlen'.symm,
    by simp [hv], ?_⟩
  · rw [hfixed]
    intro p hp
    refine acceptsAll_eq_some_true_iff.1 haccept (p.1.type, p.2) ?_
    rw [Method.paramTypes, List.zip_map_left]
    exact List.mem_map.2 ⟨p, hp, rfl⟩
  · rw [hfixed, ← hemitted, List.take_length]
    rfl
  · simp only [hv, Bool.false_eq_true, if_false]
    exact forall₂_carries_zipWith _ _ hlen'

theorem emitted_packed (r : Registry) (c : Candidate) {rest : Param} (element : TypeId)
    (items : List Expr) (hv : c.method.isVariadic = true) (hl : c.method.params.getLast? = some rest)
    (hle : c.method.fixedParams.length ≤ c.args.length) :
    emitted r { c with args := c.args.take c.method.fixedParams.length ++
        [.newArray element items rest.type] } =
      List.zipWith (fun p a ↦ r.coerce p.type a) c.method.fixedParams
        (c.args.take c.method.fixedParams.length) ++ [.newArray element items rest.type] := by
  have hparams : c.method.params = c.method.fixedParams ++ [rest] := by
    simp only [Method.fixedParams, hv, if_true]
    exact (List.dropLast_append_getLast? rest hl).symm
  have htake : c.method.fixedParams.length =
      (c.args.take c.method.fixedParams.length).length := by simp [hle]
  unfold emitted
  dsimp only
  conv_lhs => rw [hparams]
  rw [List.zipWith_append htake]
  simp [coerce, Expr.isLambda]

theorem soundCall_of_variadic {c c' : Candidate} (hv : c.method.isVariadic = true)
    (ha : c.isApplicable fuel s = .done true s) (hp : c.pack r = .done c' r') (hg : Grows s r)
    (hr : c.receiver.isSome = true → c.receiver = receiver) :
    SoundCall fuel s r receiver c.method c.args (c'.emit r) (c'.emitted r) := by
  obtain ⟨-, hfit, types, htypes, -, haccept⟩ := isApplicable_eq_true_iff.1 ha
  obtain ⟨rest, element, hl, he, hle, hc'⟩ := pack_of_variadic hv hp
  have hes : s.elementType? rest.type = some element := by
    obtain ⟨rest', element', hl', he', -⟩ := Method.expectedTypes_eq_some_of_variadic hv htypes
    obtain rfl : rest = rest' := Option.some.inj (hl.symm.trans hl')
    rw [hg.elementType? he'] at he
    rwa [← Option.some.inj he]
  rw [Method.expectedTypes_of_variadic hv hl hes, if_neg (by omega)] at htypes
  cases htypes
  obtain ⟨hfixed, hrest⟩ := acceptsAll_append_replicate_iff hle |>.1 haccept
  have hemitted := emitted_packed r c element ((c.args.drop c.method.fixedParams.length).map
    fun item ↦ (r.coerce element item).convertTo element) hv hl hle
  rw [← hc'] at hemitted
  have htake : (c.args.take c.method.fixedParams.length).length = c.method.fixedParams.length := by
    simp [hle]
  have hzip : (List.zipWith (fun p a ↦ r.coerce p.type a) c.method.fixedParams
      (c.args.take c.method.fixedParams.length)).length = c.method.fixedParams.length := by
    simp [hle]
  have hlength : c.method.params.length = c.method.fixedParams.length + 1 := by
    have hpos := List.length_pos_of_mem (List.mem_of_getLast? hl)
    simp only [Method.fixedParams, hv, if_true, List.length_dropLast]
    omega
  have hmethod : c'.method = c.method := by rw [hc']
  have hreceiver : c'.receiver = c.receiver := by rw [hc']
  have hfit' : c'.receiverFits = true := by rwa [receiverFits, hmethod, hreceiver]
  obtain ⟨callee, constructs, type⟩ := callee_emit (r := r) hfit' (by rwa [hreceiver])
  rw [hmethod] at callee constructs type
  refine ⟨callee, constructs, type, ?_, hle, hfixed, ?_, by simp [hv], fun _ ↦ ?_, ?_⟩
  · rw [hemitted, List.length_append, hzip, hlength]
    rfl
  · rw [hemitted, List.take_append_of_le_length (by omega), List.take_of_length_le (by omega)]
    exact zipWith_take_length _ _ _
  · refine ⟨rest, element, _, hl, hes, hrest, by rw [hemitted, List.getLast?_concat], ?_⟩
    intro i hi
    obtain ⟨a, -, rfl⟩ := List.mem_map.1 hi
    exact Expr.type_convertTo _ _
  · rw [if_pos hv, hemitted, Expr.spread_concat]
    conv_rhs => rw [← List.take_append_drop c.method.fixedParams.length c.args]
    exact List.rel_append (forall₂_carries_zipWith _ _ htake.symm) (forall₂_carries_items element _)

end Candidate

namespace Candidate

theorem ofMethod_args (receiver : Option Expr) (args : List Expr) (m : Method) :
    (ofMethod receiver args m).args = m.supplied receiver args := by
  unfold ofMethod Method.supplied
  split <;> rfl

theorem ofMethod_method (receiver : Option Expr) (args : List Expr) (m : Method) :
    (ofMethod receiver args m).method = m := by
  unfold ofMethod
  split <;> rfl

theorem ofMethod_receiver {m : Method} (h : (ofMethod receiver args m).receiver.isSome = true) :
    (ofMethod receiver args m).receiver = receiver := by
  unfold ofMethod at h ⊢
  split <;> simp_all

end Candidate

/-- A candidate that comes out of settling is a version of one of the members, with what was supplied
to it as its arguments. -/
theorem exists_member_of_settledIn {c : Candidate}
    (h : SettledIn fuel r receiver members typeArgs args c s) :
    ∃ m ∈ members, m.IsVersion fuel r s c.method ∧ c.args = m.supplied receiver args ∧
      (c.receiver.isSome = true → c.receiver = receiver) ∧ Grows r s := by
  obtain ⟨r₁, before, c₀, after, settled, s₀, hbound, hbefore, hsettle, -⟩ := h
  have hr₁ : Grows r r₁ := (Candidate.along_bindTypeArgs grows_substitute typeArgs _).of_done hbound
  have hs₀ : Grows r₁ s₀ :=
    (Along.mapM before (Candidate.along_settle grows_substitute)).of_done hbefore
  have hs : Grows s₀ s := (Candidate.along_settle grows_substitute c₀).of_done hsettle
  have hrs₀ := IsTrans.trans _ _ _ hr₁ hs₀
  have hrs := IsTrans.trans _ _ _ hrs₀ hs
  have hc₀ : c₀ ∈ before ++ c₀ :: after := List.mem_append_right before List.mem_cons_self
  obtain ⟨c₁, hc₁, horigin⟩ := Candidate.mem_bindTypeArgs hbound hc₀
  obtain ⟨m, hm, rfl⟩ := List.mem_map.1 hc₁
  have hargs := Candidate.ofMethod_args receiver args m
  have hreceiver := @Candidate.ofMethod_receiver receiver args m
  have hmethod := Candidate.ofMethod_method receiver args m
  obtain ⟨-, ⟨hbound, rfl, rfl⟩ | ⟨hunbound, -, map, -, hmap⟩⟩ := Candidate.settle_eq_some hsettle
  · rcases horigin with ⟨-, rfl⟩ | ⟨-, -, map, t, t', hmap, hrt, htr⟩
    · exact ⟨m, hm, .inl hmethod, hargs, hreceiver, hrs⟩
    · obtain ⟨d, hd, rfl⟩ := Candidate.specialize_eq_done_iff.1 hmap
      rw [hmethod] at hd
      exact ⟨m, hm, .inr ⟨map, t, t', fun p hp ↦ Method.isSome_find?_of_specialize hd hp, hd, hrt,
        IsTrans.trans _ _ _ htr hs₀⟩, hargs, hreceiver, hrs⟩
  · rcases horigin with ⟨-, rfl⟩ | ⟨hne, hlen, map', t, t', hmap', -, -⟩
    · obtain ⟨d, hd, rfl⟩ := Candidate.specialize_eq_done_iff.1 hmap
      rw [hmethod] at hd
      exact ⟨m, hm, .inr ⟨map, s₀, s, fun p hp ↦ Method.isSome_find?_of_specialize hd hp, hd, hrs₀,
        refl s⟩, hargs, hreceiver, hrs⟩
    · obtain ⟨d, hd, rfl⟩ := Candidate.specialize_eq_done_iff.1 hmap'
      have htypeArgs := length_eq_of_mapM_eq_some (Method.specialize_eq_done hd).2
      rw [hlen] at htypeArgs
      have hempty : d.typeArgs = [] := by
        simpa [Method.isUnboundGeneric] using (Bool.and_eq_true_iff.1 hunbound).2
      rw [hempty] at htypeArgs
      exact absurd (List.length_eq_zero_iff.1 htypeArgs) hne

theorem exists_settledIn_of_dispatch {ambiguity : Ambiguity} {span : Span} {e : Expr}
    (h : dispatch fuel ambiguity span receiver members typeArgs args r = .done (some e) r') :
    ∃ c s c', SettledIn fuel r receiver members typeArgs args c s ∧ Grows s r' ∧
      c.pack r' = .done c' r' ∧ e = c'.emit r' := by
  obtain ⟨bound, r₁, settled, packed, c', hbound, hsettled, hpacked, hbest, rfl⟩ := dispatch_eq_some h
  obtain ⟨front, c, back, fs, r₂, r₃, bs, hsplit, hpre, hpack, -⟩ :=
    exists_split_of_mem_mapM hpacked (Candidate.mem_of_best hbest)
  obtain rfl := (Along.mapM _ Candidate.along_pack).of_done hpre
  obtain rfl := (Candidate.along_pack c).of_done hpack
  have hc : some c ∈ settled := by
    have hmem : c ∈ settled.filterMap id := by
      rw [hsplit]
      simp
    simpa using hmem
  obtain ⟨before, c₀, after, zs, s₀, s, ws, rfl, hbefore, hsettle, hafter⟩ :=
    exists_split_of_mem_mapM hsettled hc
  have happ := (Candidate.settle_eq_some hsettle).1
  have hgrows : Grows s r' :=
    (Along.mapM after (Candidate.along_settle grows_substitute)).of_done hafter
  exact ⟨c, s, c', ⟨r₁, before, c₀, after, zs, s₀, hbound, hbefore, hsettle, happ⟩, hgrows, hpack, rfl⟩

/-- A call that is selected is a call to one of the members or to a version of it, made as its kind
asks, with one argument for each parameter. Each argument was accepted when the candidate was last
checked, and read in order the arguments are the supplied ones. -/
theorem dispatch_sound {ambiguity : Ambiguity} {span : Span} {e : Expr}
    (h : dispatch fuel ambiguity span receiver members typeArgs args r = .done (some e) r') :
    ∃ m ∈ members, ∃ c s emitted, SettledIn fuel r receiver members typeArgs args c s ∧
      Grows r s ∧ Grows s r' ∧ m.IsVersion fuel r s c.method ∧
      SoundCall fuel s r' receiver c.method (m.supplied receiver args) e emitted := by
  obtain ⟨c, s, c', hin, hgrows, hpack, rfl⟩ := exists_settledIn_of_dispatch h
  obtain ⟨m, hm, hversion, hargs, hreceiver, hrs⟩ := exists_member_of_settledIn hin
  refine ⟨m, hm, c, s, c'.emitted r', hin, hrs, hgrows, hversion, ?_⟩
  obtain ⟨-, -, -, -, -, -, -, -, -, happ⟩ := hin
  rw [← hargs]
  cases hv : c.method.isVariadic with
  | false =>
    obtain rfl := Candidate.pack_of_fixed hv hpack
    exact Candidate.soundCall_of_fixed hv happ hreceiver
  | true => exact Candidate.soundCall_of_variadic hv happ hpack hgrows hreceiver

def gatherItem : TypeId := ⟨77⟩

def gatherTypes : Registry :=
  (builtin.insertParam
    { name := "T", id := gatherItem, kind := .parameter { owner := "gather", index := 0 } }).insertInstance
    { name := "array<T>", id := .ofInstance .array [gatherItem], kind := .classType,
      base := some .object, template := some .array, typeArgs := [gatherItem] }

def gather : Method where
  name := "gather"
  owner := .object
  id := ⟨78⟩
  kind := .staticMethod
  params := [⟨"first", gatherItem⟩, ⟨"rest", .ofInstance .array [gatherItem]⟩]
  result := gatherItem
  isExtension := true
  isVariadic := true
  typeParams := [gatherItem]

/-- The call `1.gather(2, 3)`, whose receiver comes first and whose arguments go into an array. -/
theorem dispatch_sound_gather :
    ∃ e r', dispatch 6 .firstWins .unknown (some (.literal (.int 1))) [gather] []
        [.literal (.int 2), .literal (.int 3)] gatherTypes = .done (some e) r' ∧
      ∃ m ∈ [gather], ∃ c s emitted, SettledIn 6 gatherTypes (some (.literal (.int 1))) [gather] []
          [.literal (.int 2), .literal (.int 3)] c s ∧
        Grows gatherTypes s ∧ Grows s r' ∧ m.IsVersion 6 gatherTypes s c.method ∧
        SoundCall 6 s r' (some (.literal (.int 1))) c.method
          (m.supplied (some (.literal (.int 1))) [.literal (.int 2), .literal (.int 3)]) e emitted := by
  have hsome : (dispatch 6 .firstWins .unknown (some (.literal (.int 1))) [gather] []
      [.literal (.int 2), .literal (.int 3)] gatherTypes).value?.join.isSome = true := by
    decide +kernel
  obtain ⟨e, he⟩ := Option.isSome_iff_exists.1 hsome
  obtain ⟨r', hr'⟩ := Outcome.exists_done (Option.join_eq_some_iff.1 he)
  exact ⟨e, r', hr', dispatch_sound hr'⟩

end CallResolution
