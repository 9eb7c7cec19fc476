import CallResolution.Conversion
import CallResolution.Proofs.Answer

namespace CallResolution.Registry

variable {P : TypeId → Prop} {r s : Registry} {m n : Nat} {t u param arg : TypeId}
  {ts : List TypeId}

/-- What is known of `t` is the same in both registries. -/
structure LooksAlike (r s : Registry) (t : TypeId) : Prop where
  isParam : s.isParam t = r.isParam t
  paramInfo? : s.paramInfo? t = r.paramInfo? t
  base? : s.base? t = r.base? t
  interfaces : s.interfaces t = r.interfaces t
  template? : s.template? t = r.template? t
  typeArgs : s.typeArgs t = r.typeArgs t
  typeParams : s.typeParams t = r.typeParams t
  isInterface : s.isInterface t = r.isInterface t
  elementType? : s.elementType? t = r.elementType? t
  signature? : s.signature? t = r.signature? t
  staticTarget? : s.staticTarget? t = r.staticTarget? t
  meets : ∀ c, s.meetsConstraints c t = r.meetsConstraints c t
  defaultMember? : s.defaultMember? t = r.defaultMember? t
  methods : ∀ name, s.methods t name = r.methods t name
  constructors : s.constructors t = r.constructors t
  members : ∀ name, s.members t name = r.members t name

theorem looksAlike_of_find?_eq (hfind : s.find? t = r.find? t) : LooksAlike r s t := by
  constructor
  case elementType? =>
    unfold Registry.elementType? Registry.template? Registry.typeArgs
    rw [hfind]
  all_goals
    simp only [Registry.isParam, Registry.paramInfo?, Registry.base?, Registry.interfaces,
      Registry.template?, Registry.typeArgs, Registry.typeParams, Registry.isInterface,
      Registry.signature?, Registry.staticTarget?, meetsConstraints, hasDefaultConstructor, isValueType,
      Registry.defaultMember?, Registry.methods, Registry.constructors, Registry.members, hfind,
      implies_true]

/-- Where a query about `t` may go on: to its base, to its contracts, which for a type parameter are its
bounds, to its template and to its arguments. -/
def neighbours (r : Registry) (t : TypeId) : List TypeId :=
  (r.base? t).toList ++ r.interfaces t ++ (r.template? t).toList ++ r.typeArgs t

theorem mem_neighbours_iff : u ∈ r.neighbours t ↔
    r.base? t = some u ∨ u ∈ r.interfaces t ∨ r.template? t = some u ∨ u ∈ r.typeArgs t := by
  simp only [neighbours, List.mem_append, Option.mem_toList, or_assoc]

theorem interfaces_of_paramInfo? {info : TypeParam} (h : r.paramInfo? t = some info) :
    r.interfaces t = info.bounds := by
  obtain ⟨d, hd, hinfo⟩ := Option.bind_eq_some_iff.1 h
  simp only [interfaces, hd, hinfo, Option.map_some, Option.getD_some]

theorem LooksAlike.neighbours (h : LooksAlike r s t) : s.neighbours t = r.neighbours t := by
  rw [Registry.neighbours, Registry.neighbours, h.base?, h.interfaces, h.template?, h.typeArgs]

/-- The registries know the same of the types of which `P` holds, from which no query leads to any
other. -/
structure CommonGround (P : TypeId → Prop) (r s : Registry) : Prop where
  find? : ∀ t, P t → s.find? t = r.find? t
  object : P .object
  neighbours : ∀ t, P t → ∀ u ∈ r.neighbours t, P u

namespace CommonGround

variable (h : CommonGround P r s)

include h

theorem looksAlike (ht : P t) : LooksAlike r s t := looksAlike_of_find?_eq (h.find? t ht)

theorem symm : CommonGround P s r where
  find? t ht := (h.find? t ht).symm
  object := h.object
  neighbours t ht := (h.looksAlike ht).neighbours ▸ h.neighbours t ht

theorem base? (ht : P t) (hu : r.base? t = some u) : P u :=
  h.neighbours t ht u (mem_neighbours_iff.2 (.inl hu))

theorem interfaces (ht : P t) (hu : u ∈ r.interfaces t) : P u :=
  h.neighbours t ht u (mem_neighbours_iff.2 (.inr (.inl hu)))

theorem template? (ht : P t) (hu : r.template? t = some u) : P u :=
  h.neighbours t ht u (mem_neighbours_iff.2 (.inr (.inr (.inl hu))))

theorem typeArgs (ht : P t) (hu : u ∈ r.typeArgs t) : P u :=
  h.neighbours t ht u (mem_neighbours_iff.2 (.inr (.inr (.inr hu))))

theorem bounds {info : TypeParam} (ht : P t) (hinfo : r.paramInfo? t = some info) (hu : u ∈ info.bounds) :
    P u :=
  h.interfaces ht (interfaces_of_paramInfo? hinfo ▸ hu)

theorem isOpen (hmn : m ≤ n) (ht : P t) :
    Echoes (fun _ ↦ True) (r.isOpen m t) (s.isOpen n t) := by
  induction m generalizing n t with
  | zero => exact .none _
  | succ m ih =>
    cases n with
    | zero => omega
    | succ n =>
      rw [Registry.isOpen, Registry.isOpen, (h.looksAlike ht).isParam, (h.looksAlike ht).typeArgs]
      split
      · exact .some trivial
      · exact .anyM fun a ha ↦ ih (by omega) (h.typeArgs ht ha)

theorem normalize (hmn : m ≤ n) (ht : P t) :
    Echoes (fun _ ↦ True) (r.normalize m t) (s.normalize n t) := by
  unfold Registry.normalize
  rw [(h.looksAlike ht).template?]
  cases r.template? t with
  | none => exact .some trivial
  | some template => exact (h.isOpen hmn ht).bind fun _ _ ↦ .some trivial

theorem baseChain (hmn : m ≤ n) (seen : List TypeId) {base : Option TypeId}
    (hbase : ∀ t, base = some t → P t) :
    Echoes (fun chain ↦ ∀ u ∈ chain, P u) (r.baseChain m seen base) (s.baseChain n seen base) := by
  induction m generalizing n seen base with
  | zero =>
    cases base with
    | none =>
      rw [Registry.baseChain, Registry.baseChain]
      exact .some (by simp)
    | some t => exact .none _
  | succ m ih =>
    cases base with
    | none =>
      rw [Registry.baseChain, Registry.baseChain]
      exact .some (by simp)
    | some t =>
      have ht := hbase t rfl
      cases n with
      | zero => omega
      | succ n =>
        rw [Registry.baseChain, Registry.baseChain, (h.looksAlike ht).base?]
        split
        · exact .some (by simp)
        · refine (ih (by omega) _ fun u hu ↦ h.base? ht hu).bind fun chain hchain ↦ ?_
          exact .some (List.forall_mem_cons.2 ⟨ht, hchain⟩)

theorem visitContract (hmn : m ≤ n) {seen : List TypeId} (hseen : ∀ u ∈ seen, P u) (ht : P t) :
    Echoes (fun types ↦ ∀ u ∈ types, P u) (r.visitContract m seen t) (s.visitContract n seen t) := by
  induction m generalizing n seen t with
  | zero => exact .none _
  | succ m ih =>
    cases n with
    | zero => omega
    | succ n =>
      rw [Registry.visitContract, Registry.visitContract, (h.looksAlike ht).interfaces]
      split
      · exact .some hseen
      · refine .foldlM (fun u hu types htypes ↦ ih (by omega) htypes (h.interfaces ht hu)) ?_
        exact List.forall_mem_append.2 ⟨hseen, by simpa using ht⟩

theorem flatMap_interfaces (hts : ∀ t ∈ ts, P t) :
    ts.flatMap s.interfaces = ts.flatMap r.interfaces := by
  rw [List.flatMap_def, List.flatMap_def,
    List.map_congr_left fun t ht ↦ (h.looksAlike (hts t ht)).interfaces]

theorem visitConvertible (hmn : m ≤ n) {seen : List TypeId} (hseen : ∀ u ∈ seen, P u) (ht : P t) :
    Echoes (fun types ↦ ∀ u ∈ types, P u) (r.visitConvertible m seen t)
      (s.visitConvertible n seen t) := by
  induction m generalizing n seen t with
  | zero => exact .none _
  | succ m ih =>
    cases n with
    | zero => omega
    | succ n =>
      have hself : ∀ u ∈ (if t ∈ seen then [] else [t]), P u := by
        split
        · simp
        · simpa using ht
      have hlook := h.looksAlike ht
      rw [Registry.visitConvertible, Registry.visitConvertible, hlook.base?, hlook.isInterface,
        hlook.template?]
      refine (h.baseChain (by omega) _ fun u hu ↦ h.base? ht hu).bind fun chain hchain ↦ ?_
      have hall := List.forall_mem_append.2 ⟨hself, hchain⟩
      dsimp only
      rw [h.flatMap_interfaces hall]
      refine (Echoes.foldlM (Q := fun types ↦ ∀ u ∈ types, P u)
        (fun u hu types htypes ↦ h.visitContract (by omega) htypes ?_)
        (List.forall_mem_append.2 ⟨hseen, hall⟩)).bind fun visited hvisited ↦ ?_
      · obtain ⟨c, hc, hu⟩ := List.mem_flatMap.1 hu
        exact h.interfaces (hall c hc) hu
      have hobject : ∀ u ∈ (if r.isInterface t then appendNew visited .object else visited), P u := by
        unfold appendNew
        split
        · split
          · exact hvisited
          · exact List.forall_mem_append.2 ⟨hvisited, by simpa using h.object⟩
        · exact hvisited
      cases htemplate : r.template? t with
      | none => exact .some hobject
      | some template =>
        refine (h.isOpen (by omega) ht).bind fun b _ ↦ ?_
        cases b with
        | true => exact .some hobject
        | false => exact ih (by omega) hobject (h.template? ht htemplate)

theorem convertible (hmn : m ≤ n) (ht : P t) :
    Echoes (fun types ↦ ∀ u ∈ types, P u) (r.convertible m t) (s.convertible n t) :=
  h.visitConvertible hmn (by simp) ht

theorem satisfies_accepts (hmn : m ≤ n) (hp : P param) (ha : P arg) :
    Echoes (fun _ ↦ True) (r.satisfies m param arg) (s.satisfies n param arg) ∧
      Echoes (fun _ ↦ True) (r.accepts m param arg) (s.accepts n param arg) := by
  induction m generalizing n param arg with
  | zero => exact ⟨.none _, .none _⟩
  | succ m ih =>
    cases n with
    | zero => omega
    | succ n =>
      have hmn : m ≤ n := by omega
      have hlook := h.looksAlike hp
      constructor
      · rw [Registry.satisfies, Registry.satisfies, hlook.paramInfo?]
        cases hinfo : r.paramInfo? param with
        | none => exact .some trivial
        | some info =>
          dsimp only
          rw [(h.looksAlike ha).meets]
          split
          · refine .allM fun bound hb ↦ (ih hmn ?_ ha).2
            exact h.bounds hp hinfo (List.mem_filter.1 hb).1
          · exact .some trivial
      · rw [Registry.accepts, Registry.accepts, hlook.isParam]
        split
        · exact .some trivial
        · split
          · exact (ih hmn hp ha).1
          · refine (h.normalize hmn hp).bind fun target _ ↦ ?_
            refine (h.convertible hmn ha).bind fun types htypes ↦ .anyM fun t ht ↦ ?_
            split
            · exact .some trivial
            · exact (h.normalize hmn (htypes t ht)).bind fun _ _ ↦ .some trivial

theorem satisfies (hmn : m ≤ n) (hp : P param) (ha : P arg) :
    Echoes (fun _ ↦ True) (r.satisfies m param arg) (s.satisfies n param arg) :=
  (h.satisfies_accepts hmn hp ha).1

theorem accepts (hmn : m ≤ n) (hp : P param) (ha : P arg) :
    Echoes (fun _ ↦ True) (r.accepts m param arg) (s.accepts n param arg) :=
  (h.satisfies_accepts hmn hp ha).2

theorem position (hmn : m ≤ n) (types : List TypeId) {target : TypeId} (ht : P t) (htarget : P target) :
    Echoes (fun _ ↦ True) (r.position m types t target) (s.position n types t target) := by
  unfold Registry.position
  split
  · exact .some trivial
  · exact (h.accepts hmn htarget ht).bind fun _ _ ↦ .some trivial

end CommonGround

end CallResolution.Registry
