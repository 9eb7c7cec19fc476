import CallResolution.Overload.Dispatch
import CallResolution.Overload.MemberAccess
import CallResolution.Proofs.Attempt
import CallResolution.Proofs.Conversion.Depth
import CallResolution.Registry.Builtin

/-!
An access with arguments, such as `grid["north", 2]`. It goes to the first default indexer among the
candidates; which arguments that has index parameters for is not asked.
-/

namespace CallResolution

open Registry

variable {r : Registry} {receiver : Option Expr} {members : List Member} {args : List Expr}
  {d : Member} {e : Expr}

theorem Registry.acceptsAll_succ (r : Registry) (types : List TypeId) (args : List Expr) (n : Nat) :
    Refines (r.acceptsAll n types args) (r.acceptsAll (n + 1) types args) := by
  unfold acceptsAll
  refine .allM (fun p ↦ ?_) _
  exact acceptsExpr_succ r n p.1 p.2

namespace Member

def index : Member → List Param
  | field _ => []
  | property p => p.index

/-- An indexer to which an access without a name goes, on its own type. -/
def isDefaultIndexer (r : Registry) (d : Member) : Bool :=
  d.isIndexer && r.defaultMember? d.owner == some d.name

/-- There is one index parameter for each argument, and it takes it. -/
def Accepts (r : Registry) (args : List Expr) (d : Member) : Prop :=
  d.index.length = args.length ∧ Answers (r.acceptsAll · (d.index.map Param.type) args) true

/-- The access to `d`. -/
def access (receiver : Option Expr) (args : List Expr) (d : Member) : Expr :=
  .member (if d.isStatic then none else receiver) d args d.type

/-- `d` is the first of the members that are so. -/
def IsFirst (p : Member → Prop) (members : List Member) (d : Member) : Prop :=
  ∃ before after, members = before ++ d :: after ∧ p d ∧ ∀ b ∈ before, ¬p b

theorem isIndexer_iff : d.isIndexer = true ↔ d.index ≠ [] := by
  cases d with
  | field f => simp [isIndexer, index]
  | property p => simp [isIndexer, index]

theorem takes_of_args (hargs : args ≠ []) (d : Member) : d.takes r args = d.isDefaultIndexer r := by
  cases args with
  | nil => contradiction
  | cons a args => rfl

theorem access_inj {d' : Member} (h : d.access receiver args = d'.access receiver args) : d = d' := by
  injection h

theorem find?_eq_some_iff_isFirst {p : Member → Bool} :
    members.find? p = some d ↔ IsFirst (p · = true) members d := by
  rw [List.find?_eq_some_iff_append]
  constructor
  · rintro ⟨hd, before, after, hsplit, hbefore⟩
    exact ⟨before, after, hsplit, hd, fun b hb ↦ by simpa using hbefore b hb⟩
  · rintro ⟨before, after, hsplit, hd, hbefore⟩
    exact ⟨hd, before, after, hsplit, fun b hb ↦ by simpa using hbefore b hb⟩

/-- The first that is so is the first with a further property as soon as it has that too. -/
theorem IsFirst.and {p q : Member → Prop} (h : IsFirst p members d) (hq : q d) :
    IsFirst (fun d ↦ p d ∧ q d) members d := by
  obtain ⟨before, after, hsplit, hp, hbefore⟩ := h
  exact ⟨before, after, hsplit, ⟨hp, hq⟩, fun b hb hb' ↦ hbefore b hb hb'.1⟩

theorem IsFirst.unique {p : Member → Prop} {d' : Member} (h : IsFirst p members d)
    (h' : IsFirst p members d') : d = d' := by
  classical
  have hfind (d : Member) (h : IsFirst p members d) : members.find? (fun d ↦ decide (p d)) = some d :=
    find?_eq_some_iff_isFirst.2 (by simpa using h)
  exact Option.some.inj ((hfind d h).symm.trans (hfind d' h'))

theorem IsFirst.mem {p : Member → Prop} (h : IsFirst p members d) : d ∈ members := by
  obtain ⟨before, after, rfl, -, -⟩ := h
  exact List.mem_append_right _ List.mem_cons_self

theorem IsFirst.holds {p : Member → Prop} (h : IsFirst p members d) : p d := by
  obtain ⟨_, _, _, hp, _⟩ := h
  exact hp

end Member

open Member

theorem accessMember_eq_some_iff (hargs : args ≠ []) :
    accessMember r receiver members args = some e ↔
      ∃ d, IsFirst (·.isDefaultIndexer r = true) members d ∧ e = d.access receiver args := by
  unfold accessMember
  simp only [takes_of_args hargs]
  constructor
  · intro h
    obtain ⟨d, hd, he⟩ := Option.bind_eq_some_iff.1 h
    cases he
    exact ⟨d, find?_eq_some_iff_isFirst.1 hd, rfl⟩
  · rintro ⟨d, hd, rfl⟩
    rw [find?_eq_some_iff_isFirst.2 hd]
    rfl

/-- An access with arguments is to the first default indexer, and there is one exactly if there is such
an indexer. Whether it accepts the arguments is a matter of the order: it does if the first that
accepts them is the first of all, and otherwise that one is passed over for one that does not. -/
theorem accessMember_binds_first_default_indexer (r : Registry) (receiver : Option Expr)
    (members : List Member) (args : List Expr) (hargs : args ≠ []) :
    ((accessMember r receiver members args).isSome ↔ ∃ d ∈ members, d.isDefaultIndexer r = true) ∧
    (∀ e, accessMember r receiver members args = some e ↔
      ∃ d, IsFirst (·.isDefaultIndexer r = true) members d ∧ e = d.access receiver args) ∧
    (∀ d, accessMember r receiver members args = some (d.access receiver args) →
      d.index ≠ [] ∧
      (d.Accepts r args ↔ IsFirst (fun d ↦ d.isDefaultIndexer r = true ∧ d.Accepts r args) members d)) ∧
    ∀ d, IsFirst (fun d ↦ d.isDefaultIndexer r = true ∧ d.Accepts r args) members d →
      (accessMember r receiver members args = some (d.access receiver args) ↔
        IsFirst (·.isDefaultIndexer r = true) members d) ∧
      (accessMember r receiver members args = some (d.access receiver args) ∨
        ∃ d' : Member, accessMember r receiver members args = some (d'.access receiver args) ∧
          ¬d'.Accepts r args) := by
  have hbinds (d : Member) : accessMember r receiver members args = some (d.access receiver args) ↔
      IsFirst (·.isDefaultIndexer r = true) members d := by
    rw [accessMember_eq_some_iff hargs]
    constructor
    · rintro ⟨d', hd', he⟩
      exact access_inj he ▸ hd'
    · exact fun hd ↦ ⟨d, hd, rfl⟩
  have hexists : (∃ e, accessMember r receiver members args = some e) ↔
      ∃ d ∈ members, d.isDefaultIndexer r = true := by
    rw [← List.find?_isSome, Option.isSome_iff_exists]
    constructor
    · rintro ⟨e, he⟩
      obtain ⟨d, hd, -⟩ := (accessMember_eq_some_iff hargs).1 he
      exact ⟨d, find?_eq_some_iff_isFirst.2 hd⟩
    · rintro ⟨d, hd⟩
      exact ⟨_, (hbinds d).2 (find?_eq_some_iff_isFirst.1 hd)⟩
  refine ⟨Option.isSome_iff_exists.trans hexists, fun e ↦ accessMember_eq_some_iff hargs, fun d h ↦ ?_,
    fun d h ↦ ⟨hbinds d, ?_⟩⟩
  · have hfirst := (hbinds d).1 h
    have hindexer : d.isIndexer = true := (Bool.and_eq_true_iff.1 hfirst.holds).1
    exact ⟨isIndexer_iff.1 hindexer, hfirst.and, fun h ↦ h.holds.2⟩
  · obtain ⟨e, he⟩ := hexists.2 ⟨d, h.mem, h.holds.1⟩
    obtain ⟨d', hd', rfl⟩ := (accessMember_eq_some_iff hargs).1 he
    by_cases haccepts : d'.Accepts r args
    · obtain rfl := h.unique (hd'.and haccepts)
      exact .inl he
    · exact .inr ⟨d', he, haccepts⟩

def grid : TypeId := .ofName "Grid"

def byName : Property := { name := "Item", owner := grid, type := .int, index := [⟨"key", .string⟩] }

def byNumber : Property := { name := "Item", owner := grid, type := .string, index := [⟨"index", .int⟩] }

def gridTypes : Registry :=
  (register { name := "Grid", id := grid, kind := .classType, properties := [byName, byNumber],
              defaultMember := some "Item" } builtin).state?.getD {}

def gridParam : Option Expr := some (.parameter "g" grid)

theorem members_grid : gridTypes.members grid "Item" = [.property byName, .property byNumber] := by
  decide +kernel

theorem accepts_byNumber : (Member.property byNumber).Accepts gridTypes [.literal (.int 1)] := by
  have h : gridTypes.acceptsAll 2 [.int] [.literal (.int 1)] = some true := by decide +kernel
  exact ⟨rfl, .of_eq (acceptsAll_succ _ _ _) h⟩

theorem not_accepts_byName : ¬(Member.property byName).Accepts gridTypes [.literal (.int 1)] := by
  have h : gridTypes.acceptsAll 9 [.string] [.literal (.int 1)] = some false := by decide +kernel
  rintro ⟨-, htrue⟩
  have hfalse := Answers.of_eq (acceptsAll_succ _ _ _) h
  cases htrue.unique hfalse

/-- With the indexers the other way round, the one by number comes first and `g[1]` is an access to it. -/
theorem accessMember_binds_byNumber :
    ([.literal (.int 1)] : List Expr) ≠ [] ∧
    accessMember gridTypes gridParam [.property byNumber, .property byName] [.literal (.int 1)] =
      some ((Member.property byNumber).access gridParam [.literal (.int 1)]) := by
  have hargs : ([.literal (.int 1)] : List Expr) ≠ [] := List.cons_ne_nil _ _
  have hdefault : (Member.property byNumber).isDefaultIndexer gridTypes = true := by decide +kernel
  have hnone : ∀ b ∈ ([] : List Member), ∀ p : Prop, ¬p := fun b hb ↦ absurd hb List.not_mem_nil
  obtain ⟨-, -, -, hbinds⟩ := accessMember_binds_first_default_indexer gridTypes gridParam
    [.property byNumber, .property byName] [.literal (.int 1)] hargs
  refine ⟨hargs, (hbinds (.property byNumber) ?_).1.2 ?_⟩
  · exact ⟨[], [.property byName], rfl, ⟨hdefault, accepts_byNumber⟩, fun b hb ↦ hnone b hb _⟩
  · exact ⟨[], [.property byName], rfl, hdefault, fun b hb ↦ hnone b hb _⟩

/-- Of the two indexers only the second takes a number, but `g[1]` is an access to the first; and so is
`g[1, 1]`, for which neither has the parameters. -/
theorem accessMember_binds_byName :
    gridTypes.members grid "Item" = [.property byName, .property byNumber] ∧
    (Member.property byNumber).isDefaultIndexer gridTypes = true ∧
    (Member.property byNumber).Accepts gridTypes [.literal (.int 1)] ∧
    ¬(Member.property byName).Accepts gridTypes [.literal (.int 1)] ∧
    accessMember gridTypes gridParam (gridTypes.members grid "Item") [.literal (.int 1)] =
      some ((Member.property byName).access gridParam [.literal (.int 1)]) ∧
    ¬(Member.property byName).Accepts gridTypes [.literal (.int 1), .literal (.int 1)] ∧
    accessMember gridTypes gridParam (gridTypes.members grid "Item")
        [.literal (.int 1), .literal (.int 1)] =
      some ((Member.property byName).access gridParam [.literal (.int 1), .literal (.int 1)]) := by
  have hname : (Member.property byName).isDefaultIndexer gridTypes = true := by decide +kernel
  have hnumber : (Member.property byNumber).isDefaultIndexer gridTypes = true := by decide +kernel
  have hfirst : IsFirst (·.isDefaultIndexer gridTypes = true) (gridTypes.members grid "Item")
      (.property byName) :=
    ⟨[], [.property byNumber], members_grid, hname, fun b hb ↦ absurd hb List.not_mem_nil⟩
  have hbinds (a : Expr) (as : List Expr) :
      accessMember gridTypes gridParam (gridTypes.members grid "Item") (a :: as) =
        some ((Member.property byName).access gridParam (a :: as)) :=
    (accessMember_eq_some_iff (List.cons_ne_nil a as)).2 ⟨_, hfirst, rfl⟩
  refine ⟨members_grid, hnumber, accepts_byNumber, not_accepts_byName, hbinds _ _, ?_, hbinds _ _⟩
  rintro ⟨hlength, -⟩
  cases hlength

end CallResolution
