import CallResolution.Proofs.Reduction.Renaming
import CallResolution.Proofs.Reduction.Tandem
import CallResolution.Proofs.Reduction.WellScoped
import CallResolution.Proofs.Registry.Lockstep
import CallResolution.Proofs.Registry.Onward

namespace CallResolution

open Attempt Registry Tandem

def Outcome.error? {σ ε α : Type} : Outcome σ ε α → Option ε
  | failed e _ => some e
  | done _ _ | exhausted => none

theorem Outcome.answer?_of_error? {σ ε α : Type} {o : Outcome σ ε α} {e : ε} (h : o.error? = some e) :
    o.answer? = some (.error e) := by
  cases o with
  | failed e s =>
    cases h
    rfl
  | done a s => cases h
  | exhausted => cases h

theorem Outcome.exists_answer? {σ ε α β : Type} {o : Outcome σ ε α} {f : α → β} {b : β}
    (h : o.value?.map f = some b) : ∃ a, o.answer? = some (.ok a) ∧ f a = b := by
  cases o with
  | done a s => exact ⟨a, rfl, Option.some.inj h⟩
  | failed e s => cases h
  | exhausted => cases h

def Registry.handles (r : Registry) : List TypeId :=
  (r.types.entries ++ r.instances.entries).flatMap (·.2.handles) ++ r.extensions.flatMap Method.handles

theorem Registry.closed_of_handles {void : TypeId → Prop} {r : Registry}
    (h : ∀ t ∈ basics ++ r.handles, Accounted void r t) : Closed void r := by
  have hhandles : ∀ t ∈ r.handles, Accounted void r t := fun t ht ↦ h t (List.mem_append_right _ ht)
  refine ⟨fun t ht ↦ h t (List.mem_append_left _ ht), fun t d hd u hu ↦ ?_, fun m hm u hu ↦ ?_⟩
  · refine hhandles u (List.mem_append_left _ (List.mem_flatMap.2 ?_))
    exact ⟨(t, d), mem_entries_of_find? hd, hu⟩
  · exact hhandles u (List.mem_append_right _ (List.mem_flatMap.2 ⟨m, hm, hu⟩))

theorem Registry.eq_of_entries {r s : Registry} (htypes : r.types.entries = s.types.entries)
    (hnames : r.names.entries = s.names.entries) (hextensions : r.extensions = s.extensions)
    (hinstances : r.instances.entries = s.instances.entries) : r = s := by
  obtain ⟨⟨_, _⟩, ⟨_, _⟩, _, ⟨_, _⟩⟩ := r
  obtain ⟨⟨_, _⟩, ⟨_, _⟩, _, ⟨_, _⟩⟩ := s
  cases htypes
  cases hnames
  cases hextensions
  cases hinstances
  rfl

namespace Environment

variable {void : TypeId → Prop} {T : Tandem} {r₀ E r s : Registry} {env env' env₁ : Environment}
  {root : Scope Definition} {node : Node} {nodes : List Node} {fuel m n : Nat}

/-- The handles that the types, the symbols and the forms give cause to look up. -/
def handles (env : Environment) (nodes : List Node) : List TypeId :=
  basics ++ env.types.handles ++ (env.root.map Scope.handles).getD [] ++ nodes.flatMap Node.handles

/-- The error says that a type could not be made. -/
def IsUnmade (e : EnvironmentError) : Prop := ∃ cause, e = .compilation (.registration cause)

/-- The registry as the part of an environment that compilation changes. -/
abbrev vantage (env : Environment) : Vantage Environment EnvironmentError :=
  ⟨fun r ↦ { env with types := r }, IsUnmade⟩

theorem tracks_compile (hT : T.Valid m n) (hroot : env.root = some root)
    (hstock : ScopeChain.IsStock ⟨root, []⟩) (h : T.Runs r s) (hscope : T.Knows r root)
    (hnode : T.Knows r node) : T.Tracks env.vantage r s (compile m node) (compile n node) := by
  have hchain : T.Knows r (⟨root, []⟩ : ScopeChain Definition) := by
    rintro hlive t ⟨scope, hmem, ht⟩
    rw [List.mem_singleton.1 hmem] at ht
    exact hscope hlive t ht
  have hlift : ∀ k r, compile k node { env with types := r } =
      (Reduction.reduce k node ⟨r, ⟨root, []⟩, env.options⟩).lift (fun s ↦ { env with types := s.types })
        .compilation := by
    intro k r
    have hrun := reduceWith_apply (show ({ env with types := r } : Environment).root = some root from hroot)
      (Reduction.reduce k node)
    rw [compile, hrun]
    cases Reduction.reduce k node ⟨r, ⟨root, []⟩, env.options⟩ <;> rfl
  unfold Tracks
  dsimp only
  rw [hlift, hlift]
  refine Follows.lift (fun _ ↦ rfl) ?_ (tracks_reduce hT h hstock hchain node hnode)
  rintro _ ⟨cause, rfl⟩
  exact ⟨cause, rfl⟩

theorem grows_compile (hroot : env.root = some root) (hstock : ScopeChain.IsStock ⟨root, []⟩)
    (h : (compile fuel node env).state? = some env₁) :
    Grows env.types env₁.types ∧ env₁ = { env with types := env₁.types } := by
  have htracks : idle.Tracks env.vantage env.types env.types (compile fuel node) (compile fuel node) :=
    tracks_compile (valid_idle fuel) hroot hstock (fun hlive ↦ hlive.elim) (fun hlive ↦ hlive.elim)
      fun hlive ↦ hlive.elim
  obtain ⟨r', rfl, hgrows, -⟩ := htracks.exists_state h
  exact ⟨hgrows, rfl⟩

/-- The forms are compiled in turn. One that fails because a type cannot be made leaves no type unfinished
behind. -/
inductive History : Environment → List Node → Environment → Prop
  | nil (env : Environment) : History env [] env
  | cons {env env₁ env₂ : Environment} {fuel : Nat} {node : Node} {nodes : List Node}
      (hrun : (compile fuel node env).state? = some env₁)
      (hwhole : ∀ e, IsUnmade e → (compile fuel node env).answer? = some (.error e) →
        Finishes env.types env₁.types)
      (h : History env₁ nodes env₂) : History env (node :: nodes) env₂

theorem History.grows (hstock : ScopeChain.IsStock ⟨root, []⟩) (h : History env nodes env')
    (hroot : env.root = some root) :
    Grows env.types env'.types ∧ env' = { env with types := env'.types } := by
  induction h with
  | nil env => exact ⟨refl _, rfl⟩
  | cons hrun _ _ ih =>
    obtain ⟨hgrows, heq⟩ := grows_compile hroot hstock hrun
    obtain ⟨hgrows', heq'⟩ := ih (by rw [heq]; exact hroot)
    refine ⟨IsTrans.trans _ _ _ hgrows hgrows', ?_⟩
    rw [heq', heq]

theorem onward_compile (hroot : env.root = some root) (hstock : ScopeChain.IsStock ⟨root, []⟩)
    (hE : ∀ t, void t → E.contains t = false)
    (hknown : ∀ t ∈ root.handles ++ node.handles, Accounted void env.types t)
    (hrun : (compile fuel node env).state? = some env₁)
    (hwhole : ∀ e, IsUnmade e → (compile fuel node env).answer? = some (.error e) →
      Finishes env.types env₁.types)
    (hend : Grows env₁.types E) (h : Onward void r₀ E env.types) : Onward void r₀ E env₁.types := by
  have htracks : (onward void r₀ E).Tracks env.vantage env.types env.types (compile fuel node)
      (compile fuel node) :=
    tracks_compile (valid_onward hE fuel) hroot hstock (fun _ ↦ ⟨rfl, h⟩)
      (fun _ t ht ↦ hknown t (List.mem_append_left _ ht)) fun _ t ht ↦ hknown t (List.mem_append_right _ ht)
  obtain ⟨r', rfl, hgrows, ⟨s', hruns⟩ | ⟨hleft, e, he, hanswer⟩⟩ := htracks.exists_state hrun
  · exact (hruns hend).2
  · obtain ⟨hstage, hclosed⟩ := hleft hend
    exact h.of_finishes hE hend hgrows hstage hclosed (hwhole e he hanswer)

theorem History.onward (hstock : ScopeChain.IsStock ⟨root, []⟩) (hE : ∀ t, void t → E.contains t = false)
    (h : History env nodes env') (hroot : env.root = some root)
    (hknown : ∀ t ∈ root.handles ++ nodes.flatMap Node.handles, Accounted void env.types t)
    (hend : Grows env'.types E) (hstart : Onward void r₀ E env.types) : Onward void r₀ E env'.types := by
  induction h with
  | nil env => exact hstart
  | cons hrun hwhole htail ih =>
    rename_i env env₁ env₂ fuel node nodes
    obtain ⟨hgrows, heq⟩ := grows_compile hroot hstock hrun
    have hroot₁ : env₁.root = some root := by
      rw [heq]
      exact hroot
    obtain ⟨hgrows₁, -⟩ := htail.grows hstock hroot₁
    rw [List.flatMap_cons] at hknown
    have hnext : Onward void r₀ E env₁.types := by
      refine onward_compile hroot hstock hE (fun t ht ↦ hknown t ?_) hrun hwhole
        (IsTrans.trans _ _ _ hgrows₁ hend) hstart
      rcases List.mem_append.1 ht with ht | ht
      · exact List.mem_append_left _ ht
      · exact List.mem_append_right _ (List.mem_append_left _ ht)
    refine ih hroot₁ (fun t ht ↦ (hknown t ?_).grows hgrows) hend hnext
    rcases List.mem_append.1 ht with ht | ht
    · exact List.mem_append_left _ ht
    · exact List.mem_append_right _ (List.mem_append_right _ ht)

/-- The handle comes up while the forms are compiled, but is not known. -/
def Vacant (env : Environment) (nodes : List Node) (t : TypeId) : Prop :=
  t ∈ env.handles nodes ∧ env.types.contains t = false

/-- No handle that comes up while the forms are compiled becomes known only on the way to `env'`. -/
def Foreknows (env : Environment) (nodes : List Node) (env' : Environment) : Prop :=
  ∀ t ∈ env.handles nodes, Foreseen env.types env'.types t

theorem accounted_of_mem {t : TypeId} (ht : t ∈ env.handles nodes) :
    Accounted (env.Vacant nodes) env.types t := by
  cases hc : env.types.contains t with
  | true => exact .inl hc
  | false => exact .inr ⟨ht, hc⟩

theorem Foreknows.barren {t : TypeId} (h : env.Foreknows nodes env') (ht : env.Vacant nodes t) :
    env'.types.contains t = false := by
  rcases h t ht.1 with hc | hc
  · rw [ht.2] at hc
    cases hc
  · exact hc

theorem closed_types (env : Environment) (nodes : List Node) :
    Closed (env.Vacant nodes) env.types := by
  refine closed_of_handles fun t ht ↦ accounted_of_mem ?_
  exact List.mem_append_left _ (List.mem_append_left _ ht)

theorem mem_handles_root {t : TypeId} (hroot : env.root = some root) (ht : t ∈ root.handles) :
    t ∈ env.handles nodes := by
  refine List.mem_append_left _ (List.mem_append_right _ ?_)
  rw [hroot]
  exact ht

theorem mem_handles_node {t : TypeId} (hnode : node ∈ nodes) (ht : t ∈ node.handles) :
    t ∈ env.handles nodes := List.mem_append_right _ (List.mem_flatMap.2 ⟨node, hnode, ht⟩)

theorem History.onward_end {known : List Node} (hroot : env.root = some root)
    (hstock : ScopeChain.IsStock ⟨root, []⟩) (h : History env nodes env') (hsub : nodes ⊆ known)
    (hthen : env.Foreknows known env') :
    Onward (env.Vacant known) env.types env'.types env'.types := by
  refine h.onward hstock (fun t ↦ hthen.barren) hroot (fun t ht ↦ accounted_of_mem ?_) (refl _)
    ⟨.refl _, closed_types env known, .refl _ _⟩
  rcases List.mem_append.1 ht with ht | ht
  · exact mem_handles_root hroot ht
  · obtain ⟨node, hnode, ht⟩ := List.mem_flatMap.1 ht
    exact mem_handles_node (hsub hnode) ht

/-- A form that is compiled after others comes out as it does when it is the first one, unless a handle
that one of them gives cause to look up has become known in between, two types clash, or a form before
has left a type unfinished behind. If a type cannot be made, then none that has been made may pass for
it. -/
theorem compile_again {a : Except EnvironmentError Expr} (hroot : env.root = some root)
    (hstock : ScopeChain.IsStock ⟨root, []⟩) (hhistory : History env nodes env')
    (hanswer : (compile fuel node env).answer? = some a)
    (hstate : (compile fuel node env).state? = some env₁) (hfirst : env.Foreknows (node :: nodes) env₁)
    (hthen : env.Foreknows (node :: nodes) env') (hclash : NoClash env₁.types env'.types)
    (hunmade : (∃ e, IsUnmade e ∧ a = .error e) → env.types.InstancesFit ∧
      ∀ t, env.Vacant (node :: nodes) t → Foreseen env.types env'.types (.ofStatic t)) :
    ∀ n, fuel ≤ n → (compile n node env').answer? = some a := by
  intro n hn
  obtain ⟨hgrows, heq⟩ := hhistory.grows hstock hroot
  have honward := hhistory.onward_end hroot hstock (List.subset_cons_self node nodes) hthen
  let A : Aging :=
    { void := env.Vacant (node :: nodes), young := env.types, old := env'.types
      strict := ∃ e, IsUnmade e ∧ a = .error e, grows := hgrows, closed := honward.closed
      settles := honward.settles, barren := fun t ↦ hthen.barren
      fit := fun h ↦ (hunmade h).1, views := fun h ↦ (hunmade h).2 }
  have hstart : A.Lockstep [] env.types env'.types :=
    { stage := .refl _, closed := closed_types env (node :: nodes), leads := hgrows.leads
      same := fun t d _ hd ↦ hgrows.find? hd, grows := refl _, covered := fun t ht ↦ .inr ht }
  have htracks : (A.tandem []).Tracks env.vantage env.types env'.types (compile fuel node) (compile n node) :=
    tracks_compile (A.valid_tandem hn) hroot hstock (fun _ ↦ hstart)
      (fun _ t ht ↦ accounted_of_mem (mem_handles_root hroot ht))
      fun _ t ht ↦ accounted_of_mem (mem_handles_node List.mem_cons_self ht)
  rw [heq]
  refine htracks.answer?_eq hanswer (fun r' hr' ↦ ?_) fun e he ha ↦ ⟨e, he, ha⟩
  obtain rfl : env₁ = { env with types := r' } := Option.some.inj (hstate.symm.trans hr')
  exact ⟨hclash, fun t ↦ hfirst.barren⟩

/-- The environment that the compilation of the form to depth `n` leaves, if it comes to an end. -/
def compiled (env : Environment) (n : Nat) (node : Node) : Environment := (compile n node env).state?.getD env

theorem state?_compiled (h : (compile n node env).answer?.isSome = true) :
    (compile n node env).state? = some (env.compiled n node) := by
  unfold compiled
  cases hrun : compile n node env with
  | done e env' => rfl
  | failed e env' => rfl
  | exhausted =>
    rw [hrun] at h
    cases h

theorem history_compiled {e : Expr} (h : (compile n node env).answer? = some (.ok e)) :
    History env [node] (env.compiled n node) := by
  refine .cons (state?_compiled (by rw [h]; rfl)) (fun cause _ hcause ↦ ?_) (.nil _)
  rw [h] at hcause
  cases hcause

def boxItem : TypeId := .ofParam "Box" "T"

def lostType : TypeId := .ofName "Missing"

/-- The function `wrap<T>(item : T) : Box<T>`. -/
def wrap : Method :=
  { Method.onType box "wrap" [⟨"item", boxItem⟩] (.ofInstance box [boxItem]) with typeParams := [boxItem] }

def wrapRoot : Scope Definition where
  entries := [(.global .ofMember "lost", .parameter "lost" lostType),
    (.global .ofMember "Lost", { rule := .typeReference lostType }),
    (.global .ofMethod "wrap", { rule := .methods [wrap] })]

/-- There is a function to wrap things up in boxes, a thing of an unknown type, and that type. -/
def wrapping : Environment :=
  { types := boxTypes.instantiated 5 box [boxItem], pending := none, root := some wrapRoot }

def wrapOne : Node := .call .ofMethod "wrap" [] none [.literal (.int 1) .unknown] .unknown

def wrapLost : Node := .call .ofMethod "wrap" [] none [.symbol "lost" .unknown] .unknown

/-- A number is wrapped up before the form fails. -/
def wrapOneThenFail : Node := .call .ofMethod "wrap" [] none [wrapOne, .symbol "Lost" .unknown] .unknown

def wrapped : Environment := (wrapping.compiled 6 wrapOneThenFail).compiled 6 wrapOne

theorem instancesFit_wrapping : wrapping.types.InstancesFit := by
  have hrun : instantiate 5 box [boxItem] boxTypes = .done (.ofInstance box [boxItem]) wrapping.types :=
    instantiate_eq_done (by decide +kernel)
  have hstate : (instantiate 5 box [boxItem] boxTypes).state? = some wrapping.types := by
    rw [hrun]
    rfl
  exact Reachable.instancesFit (.step reachable_boxTypes (.instantiate hstate))

theorem isStock_wrapRoot : ScopeChain.IsStock ⟨wrapRoot, []⟩ := by
  unfold ScopeChain.IsStock
  decide

theorem compile_wrapLost : (compile 6 wrapLost wrapping).answer? =
    some (.error (.compilation (.registration (.typeNotFound lostType.render)))) :=
  Outcome.answer?_of_error? (by decide +kernel)

theorem compile_wrapOne :
    (compile 6 wrapOne wrapping).value?.map Expr.type = some (.ofInstance box [.int]) := by decide +kernel

theorem history_wrapped : History wrapping [wrapOneThenFail, wrapOne] wrapped := by
  have hfailed : (compile 6 wrapOneThenFail wrapping).answer?.isSome = true := by decide +kernel
  have hagain : (compile 6 wrapOne (wrapping.compiled 6 wrapOneThenFail)).value?.map Expr.type =
      some (.ofInstance box [.int]) := by decide +kernel
  obtain ⟨_, hone, -⟩ := Outcome.exists_answer? compile_wrapOne
  obtain ⟨_, hagain, -⟩ := Outcome.exists_answer? hagain
  refine .cons (state?_compiled hfailed) (fun _ _ _ ↦ ?_) (history_compiled hagain)
  -- before it failed, the form has made what the other one makes
  have htypes : (wrapping.compiled 6 wrapOneThenFail).types = (wrapping.compiled 6 wrapOne).types :=
    eq_of_entries (by decide +kernel) (by decide +kernel) (by decide +kernel) (by decide +kernel)
  have hforeknows : wrapping.Foreknows [wrapOne] (wrapping.compiled 6 wrapOne) := by
    unfold Foreknows
    decide +kernel
  rw [htypes]
  exact ((history_compiled hone).onward_end rfl isStock_wrapRoot (List.Subset.refl _) hforeknows).settles

/-- Once a number has been wrapped up, be it by a form that failed later on, it is wrapped up again, and
what is lost still cannot be. -/
theorem compile_again_wrap :
    wrapping.types.contains (.ofInstance box [.int]) = false ∧
      (wrapping.compiled 6 wrapOneThenFail).types.contains (.ofInstance box [.int]) = true ∧
      (compile 6 wrapOneThenFail wrapping).answer? =
        some (.error (.compilation (.registration (.typeNotFound lostType.render)))) ∧
      History wrapping [wrapOneThenFail, wrapOne] wrapped ∧
      (∃ e, e.type = .ofInstance box [.int] ∧
        ∀ n, 6 ≤ n → (compile n wrapOne wrapped).answer? = some (.ok e)) ∧
      ∀ n, 6 ≤ n → (compile n wrapLost wrapped).answer? =
        some (.error (.compilation (.registration (.typeNotFound lostType.render)))) := by
  obtain ⟨e, he, htype⟩ := Outcome.exists_answer? compile_wrapOne
  have hfailed := Outcome.answer?_of_error? (o := compile 6 wrapOneThenFail wrapping)
    (e := .compilation (.registration (.typeNotFound lostType.render))) (by decide +kernel)
  refine ⟨by decide +kernel, by decide +kernel, hfailed, history_wrapped, ⟨e, htype, ?_⟩, ?_⟩
  · refine compile_again rfl isStock_wrapRoot history_wrapped he
      (state?_compiled (by rw [he]; rfl)) ?_ ?_ ?_ ?_
    · unfold Foreknows
      decide +kernel
    · unfold Foreknows
      decide +kernel
    · exact noClash_of_entries (by decide +kernel)
    · rintro ⟨_, -, h⟩
      cases h
  · refine compile_again rfl isStock_wrapRoot history_wrapped compile_wrapLost
      (state?_compiled (by rw [compile_wrapLost]; rfl)) ?_ ?_ ?_ ?_
    · unfold Foreknows
      decide +kernel
    · unfold Foreknows
      decide +kernel
    · exact noClash_of_entries (by decide +kernel)
    · intro _
      have hviews : ∀ t ∈ wrapping.handles [wrapLost, wrapOneThenFail, wrapOne],
          wrapping.types.contains t = false →
          Foreseen wrapping.types wrapped.types (.ofStatic t) := by decide +kernel
      exact ⟨instancesFit_wrapping, fun t ht ↦ hviews t ht.1 ht.2⟩

def pointRoot : Scope Definition where
  entries := [(.global .ofMember "Point", { rule := .typeReference Reduction.point }),
    (.global .ofMember "p", .parameter "p" (.ofStatic Reduction.point)),
    (.global .ofMethod "f", { rule := .methods [.onType (.ofName "Math") "f" [⟨"x", .int⟩] .int] })]

/-- There is a thing of the type of the type `Point`, which is not known before that is used as a value. -/
def pointing : Environment := { types := Reduction.pointTypes, pending := none, root := some pointRoot }

def usePoint : Node := .symbol "Point" .unknown

def callPoint : Node := .call .ofMethod "f" [] none [.symbol "p" .unknown] .unknown

/-- The arguments of a call that fails are described by the types that are known by then, and a box that
could not be filled passes for a box when it is asked for again. -/
theorem compile_not_again :
    (ScopeChain.IsStock ⟨pointRoot, []⟩ ∧ History pointing [usePoint] (pointing.compiled 6 usePoint) ∧
      (compile 6 callPoint pointing).answer? = some (.error (.compilation
        (.noMatchingOverload "f" (TypeId.ofStatic Reduction.point).render .unknown))) ∧
      (compile 6 callPoint (pointing.compiled 6 usePoint)).answer? = some (.error (.compilation
        (.noMatchingOverload "f" "static Point" .unknown)))) ∧
    ScopeChain.IsStock ⟨wrapRoot, []⟩ ∧ (compile 6 wrapLost wrapping).answer? =
        some (.error (.compilation (.registration (.typeNotFound lostType.render)))) ∧
      ∃ e, (compile 6 wrapLost (wrapping.compiled 6 wrapLost)).answer? = some (.ok e) := by
  have hstock : ScopeChain.IsStock ⟨pointRoot, []⟩ := by
    unfold ScopeChain.IsStock
    decide
  have hused : (compile 6 usePoint pointing).value?.map Expr.type = some (.ofStatic Reduction.point) := by
    decide +kernel
  have hwrapped : (compile 6 wrapLost (wrapping.compiled 6 wrapLost)).value?.map Expr.type =
      some (.ofInstance box [lostType]) := by decide +kernel
  obtain ⟨_, hanswer, -⟩ := Outcome.exists_answer? hused
  obtain ⟨e, he, -⟩ := Outcome.exists_answer? hwrapped
  refine ⟨⟨hstock, history_compiled hanswer, ?_, ?_⟩, isStock_wrapRoot, compile_wrapLost, e, he⟩
  · exact Outcome.answer?_of_error? (by decide +kernel)
  · exact Outcome.answer?_of_error? (by decide +kernel)

end Environment

end CallResolution
