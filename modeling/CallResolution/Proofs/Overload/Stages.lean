import CallResolution.Overload.Dispatch
import CallResolution.Proofs.Answer
import CallResolution.Proofs.Registry.Growth

namespace CallResolution

open Attempt Registry

variable {fuel : Nat} {r r' : Registry}

namespace Method

theorem restElement_eq_ok_iff {d : Method} {array element : TypeId} :
    d.restElement r = .ok (array, element) ↔
      ∃ rest, d.params.getLast? = some rest ∧ rest.type = array ∧
        r.elementType? rest.type = some element := by
  unfold restElement
  cases d.params.getLast? with
  | none => simp
  | some rest =>
    cases he : r.elementType? rest.type with
    | none => simp [he]
    | some element' => simp [he]

/-- The parameters that take one argument each. -/
def fixedParams (d : Method) : List Param := if d.isVariadic then d.params.dropLast else d.params

theorem expectedTypes_of_fixed {d : Method} (hv : d.isVariadic = false) (count : Nat) :
    d.expectedTypes r count = some d.paramTypes := by
  simp [expectedTypes, hv]

theorem expectedTypes_of_variadic {d : Method} {rest : Param} {element : TypeId} {count : Nat}
    (hv : d.isVariadic = true) (hl : d.params.getLast? = some rest)
    (he : r.elementType? rest.type = some element) :
    d.expectedTypes r count =
      if count < d.fixedParams.length then none
      else some (d.fixedParams.map Param.type ++
        List.replicate (count - d.fixedParams.length) element) := by
  simp [expectedTypes, fixedParams, paramTypes, hv, hl, he, List.map_dropLast]

/-- A rest parameter is an array, and stands for as many parameters of its element type as there
are arguments left. -/
theorem expectedTypes_eq_some_of_variadic {d : Method} {count : Nat} {types : List TypeId}
    (hv : d.isVariadic = true) (h : d.expectedTypes r count = some types) :
    ∃ rest element, d.params.getLast? = some rest ∧ r.elementType? rest.type = some element ∧
      d.fixedParams.length ≤ count ∧ types = d.fixedParams.map Param.type ++
        List.replicate (count - d.fixedParams.length) element := by
  have hunfold := h
  simp only [expectedTypes, hv, if_true, Option.bind_eq_bind, Option.bind_eq_some_iff, paramTypes,
    List.getLast?_map, Option.map_eq_some_iff] at hunfold
  obtain ⟨_, ⟨rest, hl, rfl⟩, element, he, -⟩ := hunfold
  rw [expectedTypes_of_variadic hv hl he] at h
  split at h
  · cases h
  · rename_i hlt
    cases h
    exact ⟨rest, element, hl, he, Nat.not_lt.1 hlt, rfl⟩

/-- What a choice of type arguments leaves as it is. -/
structure Specializes (m d : Method) : Prop where
  name : d.name = m.name
  owner : d.owner = m.owner
  kind : d.kind = m.kind
  isExtension : d.isExtension = m.isExtension
  isVariadic : d.isVariadic = m.isVariadic
  typeParams : d.typeParams = m.typeParams
  params_length : d.params.length = m.params.length

theorem length_eq_of_mapM {α β ε : Type} {f : α → Attempt Registry ε β} {xs : List α} {ys : List β}
    (h : xs.mapM f r = .done ys r') : ys.length = xs.length := by
  induction xs generalizing ys r with
  | nil =>
    obtain ⟨rfl, -⟩ := pure_eq_done_iff.1 h
    rfl
  | cons x xs ih =>
    obtain ⟨y, s, zs, -, hz, rfl⟩ := mapM_cons_eq_done_iff.1 h
    simp [ih hz]

theorem specialize_eq_done {m d : Method} {map : Substitution}
    (h : m.specialize fuel map r = .done d r') :
    Specializes m d ∧ m.typeParams.mapM map.find? = some d.typeArgs := by
  unfold specialize at h
  cases ha : m.typeParams.mapM map.find? with
  | none =>
    simp only [ha] at h
    exact absurd h fail_ne_done
  | some args =>
    simp only [ha] at h
    obtain ⟨replaced, s, hrun, h⟩ := bind_eq_done_iff.1 h
    obtain ⟨rfl, -⟩ := pure_eq_done_iff.1 h
    have hrun := mapError_eq_done_iff.1 hrun
    unfold mapTypes at hrun
    obtain ⟨params, s₁, hp, hrun⟩ := bind_eq_done_iff.1 hrun
    obtain ⟨result, s₂, -, hrun⟩ := bind_eq_done_iff.1 hrun
    obtain ⟨rfl, -⟩ := pure_eq_done_iff.1 hrun
    exact ⟨⟨rfl, rfl, rfl, rfl, rfl, rfl, length_eq_of_mapM hp⟩, rfl⟩

theorem isSome_find?_of_specialize {m d : Method} {map : Substitution}
    (h : m.specialize fuel map r = .done d r') {p : TypeId} (hp : p ∈ m.typeParams) :
    (map.find? p).isSome = true := by
  obtain ⟨t, -, ht⟩ := exists_mem_of_mapM_eq_some (specialize_eq_done h).2 hp
  exact Option.isSome_iff_exists.2 ⟨t, ht⟩

end Method

namespace Candidate

theorem isApplicable_eq_ask {c : Candidate} {types : List TypeId} (hr : c.receiverFits = true)
    (ht : c.method.expectedTypes r c.args.length = some types)
    (hlen : types.length = c.args.length) :
    c.isApplicable fuel r =
      (ask (·.acceptsAll fuel types c.args) : Attempt Registry CompileError Bool) r := by
  unfold isApplicable
  simp only [hr, Bool.not_true, Bool.false_eq_true, if_false]
  cases hv : c.method.isVariadic with
  | false =>
    rw [Method.expectedTypes_of_fixed hv] at ht
    cases ht
    have hlen' : c.method.params.length = c.args.length := by simpa [Method.paramTypes] using hlen
    simp [hlen']
  | true =>
    obtain ⟨rest, element, hl, he, hle, rfl⟩ := Method.expectedTypes_eq_some_of_variadic hv ht
    have hfixed : c.method.paramTypes.dropLast = c.method.fixedParams.map Param.type := by
      simp [Method.paramTypes, Method.fixedParams, hv, List.map_dropLast]
    have hrest : c.method.restElement r = .ok (rest.type, element) :=
      Method.restElement_eq_ok_iff.2 ⟨rest, hl, rfl, he⟩
    simp only [if_true, get_bind, hrest, hfixed, List.length_map, Nat.not_lt.2 hle, if_false]
    rfl

/-- A check that passes has found the receiver in order and every argument accepted; it leaves the
registry alone. -/
theorem isApplicable_eq_true_iff {c : Candidate} :
    c.isApplicable fuel r = .done true r' ↔ r' = r ∧ c.receiverFits = true ∧
      ∃ types, c.method.expectedTypes r c.args.length = some types ∧
        types.length = c.args.length ∧ r.acceptsAll fuel types c.args = some true := by
  constructor
  · intro h
    unfold isApplicable at h
    cases hr : c.receiverFits with
    | false => simp [hr, pure_eq_done_iff] at h
    | true =>
      simp only [hr, Bool.not_true, Bool.false_eq_true, if_false] at h
      cases hv : c.method.isVariadic with
      | false =>
        simp only [hv, Bool.false_eq_true, if_false] at h
        split at h
        · simp [pure_eq_done_iff] at h
        · rename_i hlen
          obtain ⟨ha, rfl⟩ := ask_eq_done_iff.1 h
          exact ⟨rfl, rfl, _, Method.expectedTypes_of_fixed hv _,
            by simpa [Method.paramTypes] using hlen, ha⟩
      | true =>
        simp only [hv, if_true, get_bind] at h
        obtain ⟨⟨array, element⟩, s, hok, h⟩ := bind_eq_done_iff.1 h
        obtain ⟨hrest, rfl⟩ := ofExcept_eq_done_iff.1 hok
        obtain ⟨rest, hl, -, he⟩ := Method.restElement_eq_ok_iff.1 hrest
        have hfixed : c.method.paramTypes.dropLast = c.method.fixedParams.map Param.type := by
          simp [Method.paramTypes, Method.fixedParams, hv, List.map_dropLast]
        simp only [hfixed, List.length_map] at h
        split at h
        · simp [pure_eq_done_iff] at h
        · rename_i hlt
          obtain ⟨ha, rfl⟩ := ask_eq_done_iff.1 h
          refine ⟨rfl, rfl, _, (Method.expectedTypes_of_variadic hv hl he).trans (if_neg hlt), ?_, ha⟩
          simp only [List.length_append, List.length_map, List.length_replicate]
          omega
  · rintro ⟨rfl, hr, types, ht, hlen, ha⟩
    rw [isApplicable_eq_ask hr ht hlen]
    exact ask_eq_done_iff.2 ⟨ha, rfl⟩

theorem along_isApplicable (c : Candidate) : Along Eq (c.isApplicable fuel) := by
  unfold isApplicable
  split
  · exact .pure _
  · split
    · refine Along.get.bind fun r ↦ (Along.ofExcept _).bind fun p ↦ ?_
      dsimp only
      split
      · exact .pure _
      · exact .ask _
    · split
      · exact .pure _
      · exact .ask _

theorem along_pack (c : Candidate) : Along Eq c.pack := by
  unfold pack
  split
  · refine Along.get.bind fun r ↦ (Along.ofExcept _).bind fun _ ↦ ?_
    exact .pure _
  · exact .pure _

section Keeps

variable {R : Registry → Registry → Prop} [Std.Refl R] [IsTrans Registry R]
  (hR : ∀ fuel map t, Along R (substitute fuel map t))

include hR

theorem along_specialize (c : Candidate) (map : Substitution) :
    Along R (c.specialize fuel map) := by
  refine (Method.along_specialize hR fuel c.method map).bind fun _ ↦ ?_
  exact .pure _

theorem along_bindExplicit (typeArgs : List TypeId) (c : Candidate) :
    Along R (c.bindExplicit fuel typeArgs) := by
  unfold bindExplicit
  dsimp only
  split
  · exact .pure _
  · refine (Along.ask _).bind fun suits ↦ ?_
    split
    · refine (Along.ofExcept _).bind fun map ↦ (along_specialize hR c map).bind fun _ ↦ ?_
      exact .pure _
    · exact .pure _

theorem along_bindTypeArgs (typeArgs : List TypeId) (cs : List Candidate) :
    Along R (bindTypeArgs fuel typeArgs cs) := by
  unfold bindTypeArgs
  split
  · exact .pure _
  · refine (Along.mapM cs (along_bindExplicit hR typeArgs)).bind fun _ ↦ ?_
    exact .pure _

theorem along_bindInferred (c : Candidate) : Along R (c.bindInferred fuel) := by
  unfold bindInferred
  refine (Along.ask _).bind fun found ↦ ?_
  cases found with
  | none => exact .pure _
  | some map =>
    refine (along_specialize hR c map).bind fun c' ↦ (along_isApplicable c').of_eq.bind fun _ ↦ ?_
    exact .pure _

theorem along_settle (c : Candidate) : Along R (c.settle fuel) := by
  unfold settle
  refine (along_isApplicable c).of_eq.bind fun _ ↦ ?_
  split
  · split
    · exact along_bindInferred hR c
    · exact .pure _
  · exact .pure _

end Keeps

theorem specialize_eq_done_iff {c c' : Candidate} {map : Substitution} :
    c.specialize fuel map r = .done c' r' ↔
      ∃ d, c.method.specialize fuel map r = .done d r' ∧
        c' = { c with method := d, substitution := map } := by
  unfold specialize
  constructor
  · intro h
    obtain ⟨d, s, hd, h⟩ := bind_eq_done_iff.1 h
    obtain ⟨rfl, rfl⟩ := pure_eq_done_iff.1 h
    exact ⟨d, hd, rfl⟩
  · rintro ⟨d, hd, rfl⟩
    exact bind_eq_done_iff.2 ⟨d, r', hd, rfl⟩

theorem bindExplicit_eq_some {c c' : Candidate} {typeArgs : List TypeId}
    (h : c.bindExplicit fuel typeArgs r = .done (some c') r') :
    c.method.typeParams.length = typeArgs.length ∧ ∃ map, c.specialize fuel map r = .done c' r' := by
  unfold bindExplicit at h
  dsimp only at h
  split at h
  · simp [pure_eq_done_iff] at h
  · rename_i hlen
    refine ⟨by simpa using hlen, ?_⟩
    obtain ⟨suits, s, hs, h⟩ := bind_eq_done_iff.1 h
    obtain ⟨-, rfl⟩ := ask_eq_done_iff.1 hs
    cases suits with
    | false => simp [pure_eq_done_iff] at h
    | true =>
      simp only [if_true] at h
      obtain ⟨map, s, hmap, h⟩ := bind_eq_done_iff.1 h
      obtain ⟨-, rfl⟩ := ofExcept_eq_done_iff.1 hmap
      obtain ⟨c'', s, hc, h⟩ := bind_eq_done_iff.1 h
      obtain ⟨hsome, rfl⟩ := pure_eq_done_iff.1 h
      cases hsome
      exact ⟨map, hc⟩

theorem mem_bindTypeArgs {cs bound : List Candidate} {typeArgs : List TypeId}
    (h : bindTypeArgs fuel typeArgs cs r = .done bound r') {c' : Candidate} (hc : c' ∈ bound) :
    ∃ c ∈ cs, (typeArgs = [] ∧ c' = c) ∨ (typeArgs ≠ [] ∧
      c.method.typeParams.length = typeArgs.length ∧
      ∃ map s s', c.specialize fuel map s = .done c' s' ∧ Grows r s ∧ Grows s' r') := by
  unfold bindTypeArgs at h
  cases typeArgs with
  | nil =>
    simp only [List.isEmpty_nil, if_true] at h
    obtain ⟨rfl, -⟩ := pure_eq_done_iff.1 h
    exact ⟨c', hc, .inl ⟨rfl, rfl⟩⟩
  | cons t ts =>
    simp only [List.isEmpty_cons, Bool.false_eq_true, if_false] at h
    obtain ⟨found, s, hrun, h⟩ := bind_eq_done_iff.1 h
    obtain ⟨rfl, rfl⟩ := pure_eq_done_iff.1 h
    have hmem : some c' ∈ found := by simpa using hc
    obtain ⟨before, c, after, zs, s₀, s₁, ws, rfl, hb, hx, ha⟩ := exists_split_of_mem_mapM hrun hmem
    obtain ⟨hlen, map, hmap⟩ := bindExplicit_eq_some hx
    refine ⟨c, by simp, .inr ⟨by simp, hlen, map, s₀, s₁, hmap, ?_, ?_⟩⟩
    · exact (Along.mapM before (along_bindExplicit grows_substitute (t :: ts))).of_done hb
    · exact (Along.mapM after (along_bindExplicit grows_substitute (t :: ts))).of_done ha

theorem bindInferred_eq_some {c c' : Candidate}
    (h : c.bindInferred fuel r = .done (some c') r') :
    ∃ map, c.method.infer r fuel c.args = some (some map) ∧ c.specialize fuel map r = .done c' r' ∧
      c'.isApplicable fuel r' = .done true r' := by
  unfold bindInferred at h
  obtain ⟨found, s, hask, h⟩ := bind_eq_done_iff.1 h
  obtain ⟨hq, rfl⟩ := ask_eq_done_iff.1 hask
  cases found with
  | none => simp [pure_eq_done_iff] at h
  | some map =>
    obtain ⟨c₁, s₁, hc, h⟩ := bind_eq_done_iff.1 h
    obtain ⟨b, s₂, hb, h⟩ := bind_eq_done_iff.1 h
    obtain rfl := (along_isApplicable c₁).of_done hb
    cases b with
    | false => simp [pure_eq_done_iff] at h
    | true =>
      simp only [if_true] at h
      obtain ⟨hsome, rfl⟩ := pure_eq_done_iff.1 h
      cases hsome
      exact ⟨map, hq, hc, hb⟩

theorem settle_eq_some {c c' : Candidate} (h : c.settle fuel r = .done (some c') r') :
    c'.isApplicable fuel r' = .done true r' ∧
      ((c.method.isUnboundGeneric = false ∧ c' = c ∧ r' = r) ∨
        (c.method.isUnboundGeneric = true ∧ c.isApplicable fuel r = .done true r ∧
          ∃ map, c.method.infer r fuel c.args = some (some map) ∧
            c.specialize fuel map r = .done c' r')) := by
  unfold settle at h
  obtain ⟨b, s, hb, h⟩ := bind_eq_done_iff.1 h
  obtain rfl := (along_isApplicable c).of_done hb
  cases b with
  | false => simp [pure_eq_done_iff] at h
  | true =>
    simp only [if_true] at h
    cases hg : c.method.isUnboundGeneric with
    | false =>
      simp only [hg, Bool.false_eq_true, if_false] at h
      obtain ⟨hsome, rfl⟩ := pure_eq_done_iff.1 h
      cases hsome
      exact ⟨hb, .inl ⟨rfl, rfl, rfl⟩⟩
    | true =>
      simp only [hg, if_true] at h
      obtain ⟨map, hi, hc, ha⟩ := bindInferred_eq_some h
      exact ⟨ha, .inr ⟨rfl, hb, map, hi, hc⟩⟩

theorem method_of_pack {c c' : Candidate} (h : c.pack r = .done c' r') : c'.method = c.method := by
  unfold pack at h
  split at h
  · rw [get_bind] at h
    obtain ⟨args, s, -, h⟩ := bind_eq_done_iff.1 h
    obtain ⟨rfl, -⟩ := pure_eq_done_iff.1 h
    rfl
  · obtain ⟨rfl, -⟩ := pure_eq_done_iff.1 h
    rfl

theorem pack_of_fixed {c c' : Candidate} (hv : c.method.isVariadic = false)
    (h : c.pack r = .done c' r') : c' = c := by
  simp only [pack, hv, Bool.false_eq_true, if_false] at h
  exact (pure_eq_done_iff.1 h).1.symm

theorem pack_of_variadic {c c' : Candidate} (hv : c.method.isVariadic = true)
    (h : c.pack r = .done c' r') :
    ∃ rest element, c.method.params.getLast? = some rest ∧
      r.elementType? rest.type = some element ∧
      c.method.fixedParams.length ≤ c.args.length ∧
      c' = { c with args := c.args.take c.method.fixedParams.length ++
        [.newArray element ((c.args.drop c.method.fixedParams.length).map fun item ↦
          (r.coerce element item).convertTo element) rest.type] } := by
  simp only [pack, hv, if_true, get_bind] at h
  obtain ⟨args, s, hok, h⟩ := bind_eq_done_iff.1 h
  obtain ⟨hargs, rfl⟩ := ofExcept_eq_done_iff.1 hok
  obtain ⟨rfl, -⟩ := pure_eq_done_iff.1 h
  unfold Method.packRest at hargs
  cases hrest : c.method.restElement r with
  | error e =>
    rw [hrest] at hargs
    cases hargs
  | ok p =>
    obtain ⟨array, element⟩ := p
    obtain ⟨rest, hl, rfl, he⟩ := Method.restElement_eq_ok_iff.1 hrest
    have hfixed : c.method.fixedParams.length = c.method.params.length - 1 := by
      simp [Method.fixedParams, hv]
    rw [hrest] at hargs
    simp only [bind, Except.bind] at hargs
    split at hargs
    · cases hargs
    · rename_i hlt
      cases hargs
      exact ⟨rest, element, hl, he, by omega, by rw [hfixed]⟩

theorem mem_insertRanked {c d : Candidate} {ds : List Candidate} :
    c ∈ insertRanked d ds ↔ c = d ∨ c ∈ ds := by
  induction ds with
  | nil => simp [insertRanked]
  | cons e es ih =>
    rw [insertRanked]
    split
    · simp
    · rw [List.mem_cons, ih, List.mem_cons]
      exact or_left_comm

theorem mem_ranked {c : Candidate} {cs : List Candidate} : c ∈ ranked cs ↔ c ∈ cs := by
  induction cs with
  | nil => simp [ranked]
  | cons d ds ih =>
    change c ∈ insertRanked d (ranked ds) ↔ _
    rw [mem_insertRanked, ih, List.mem_cons]

theorem mem_of_best {ambiguity : Ambiguity} {span : Span} {c : Candidate} {cs : List Candidate}
    (h : best r ambiguity span cs = .ok (some c)) : c ∈ cs := by
  unfold best at h
  rw [← mem_ranked]
  cases hr : ranked cs with
  | nil =>
    rw [hr] at h
    cases h
  | cons d ds =>
    rw [hr] at h
    dsimp only at h
    split at h
    · cases h
    · cases h
      simp

end Candidate

theorem along_dispatch {R : Registry → Registry → Prop} [Std.Refl R] [IsTrans Registry R]
    (hR : ∀ fuel map t, Along R (substitute fuel map t)) (ambiguity : Ambiguity) (span : Span)
    (receiver : Option Expr) (members : List Method) (typeArgs : List TypeId) (args : List Expr) :
    Along R (dispatch fuel ambiguity span receiver members typeArgs args) := by
  unfold dispatch
  refine (Candidate.along_bindTypeArgs hR typeArgs _).bind fun bound ↦ ?_
  refine (Along.mapM bound (Candidate.along_settle hR)).bind fun settled ↦ ?_
  refine (Along.mapM _ Candidate.along_pack).of_eq.bind fun packed ↦ ?_
  refine Along.get.bind fun r ↦ (Along.ofExcept _).bind fun found ↦ ?_
  cases found with
  | none => exact .pure _
  | some c => exact .pure _

/-- The stages that a call passes through before it is emitted. -/
theorem dispatch_eq_some {ambiguity : Ambiguity} {span : Span} {receiver : Option Expr}
    {members : List Method} {typeArgs : List TypeId} {args : List Expr} {e : Expr}
    (h : dispatch fuel ambiguity span receiver members typeArgs args r = .done (some e) r') :
    ∃ bound r₁ settled packed c,
      Candidate.bindTypeArgs fuel typeArgs (members.map (.ofMethod receiver args)) r =
        .done bound r₁ ∧
      bound.mapM (Candidate.settle fuel) r₁ = .done settled r' ∧
      (settled.filterMap id).mapM Candidate.pack r' = .done packed r' ∧
      Candidate.best r' ambiguity span packed = .ok (some c) ∧ e = c.emit r' := by
  unfold dispatch at h
  obtain ⟨bound, r₁, hb, h⟩ := bind_eq_done_iff.1 h
  obtain ⟨settled, r₂, hs, h⟩ := bind_eq_done_iff.1 h
  obtain ⟨packed, r₃, hp, h⟩ := bind_eq_done_iff.1 h
  obtain rfl := (Along.mapM _ Candidate.along_pack).of_done hp
  rw [get_bind] at h
  obtain ⟨found, r₄, hok, h⟩ := bind_eq_done_iff.1 h
  obtain ⟨hf, rfl⟩ := ofExcept_eq_done_iff.1 hok
  cases found with
  | none => simp [pure_eq_done_iff] at h
  | some c =>
    obtain ⟨hsome, rfl⟩ := pure_eq_done_iff.1 h
    cases hsome
    exact ⟨bound, r₁, settled, packed, c, hb, hs, hp, hf, rfl⟩

end CallResolution
