import CallResolution.Proofs.Overload.Tandem
import CallResolution.Proofs.Reduction.Alike
import Mathlib.Data.List.Find

namespace CallResolution

open Attempt Registry

def Rule.handles : Rule → List TypeId
  | constant e => e.handles
  | typeReference target | constructors target => [target]
  | methods overloads => overloads.flatMap Method.handles
  | liveMembers | receiver | letIn _ | failing _ => []

/-- The handles that the symbols of a scope and what they are bound to give cause to look up. -/
def Scope.handles (c : Scope Definition) : List TypeId :=
  c.entries.flatMap fun e ↦ e.1.receiver.toList ++ e.2.rule.handles

namespace Node

mutual

def handles : Node → List TypeId
  | literal _ _ | symbol _ _ => []
  | call _ _ typeArgs receiver args _ => typeArgs ++ receiverHandles receiver ++ allHandles args
  | lambda params body _ => params.map Param.type ++ body.handles

def receiverHandles : Option Node → List TypeId
  | none => []
  | some node => node.handles

def allHandles : List Node → List TypeId
  | [] => []
  | node :: nodes => node.handles ++ allHandles nodes

end

end Node

theorem Literal.type_mem_basics (value : Literal) : value.type ∈ basics := by
  cases value <;> simp [basics, type]

instance : Cites Rule := ⟨fun rule t ↦ t ∈ rule.handles⟩
instance : Cites (Scope Definition) := ⟨fun c t ↦ t ∈ c.handles⟩
instance : Cites (ScopeChain Definition) := ⟨fun c t ↦ cites c.toList t⟩
instance : Cites Node := ⟨fun node t ↦ t ∈ node.handles⟩

namespace Registry.Agrees

variable {void : TypeId → Prop} {r s : Registry} {m n : Nat} {ts : List TypeId}
  {access : Reduction.Access} {site : Reduction.CallSite} {xs : List (Reduction Expr)}
  {name : Option String}

theorem search (h : Agrees void r s) (hmn : m ≤ n)
    (howner : ∀ t, access.owner = some t → Accounted void r t) :
    Echoes (fun ts ↦ ∀ t ∈ ts, Accounted void r t) (access.search r m) (access.search s n) := by
  unfold Reduction.Access.search
  cases ha : access.owner with
  | none => exact .some (by simp)
  | some owner =>
    refine (h.convertible hmn (howner owner ha)).bind fun types htypes ↦ ?_
    have hfilter : types.filter (fun t ↦ t = owner || (s.typeParams t).isEmpty) =
        types.filter fun t ↦ t = owner || (r.typeParams t).isEmpty := by
      refine List.filter_congr fun t ht ↦ ?_
      rw [(h.looksAlike (htypes t ht)).typeParams]
    rw [hfilter]
    exact .some fun t ht ↦ htypes t (List.mem_filter.1 ht).1

variable (h : Agrees void r s) (hts : ∀ t ∈ ts, Accounted void r t)

include h hts

theorem liveName : Reduction.CallSite.liveName { site with args := xs } s ts = site.liveName r ts := by
  have hmap : ts.map s.defaultMember? = ts.map r.defaultMember? :=
    List.map_congr_left fun t ht ↦ (h.looksAlike (hts t ht)).defaultMember?
  have hfound : ts.findSome? s.defaultMember? = ts.findSome? r.defaultMember? := by
    have hid := congrArg (List.findSome? id) hmap
    rwa [List.findSome?_map, List.findSome?_map, Function.id_comp, Function.id_comp] at hid
  unfold Reduction.CallSite.liveName
  rw [hfound]

theorem methodsOf : Reduction.methodsOf s { site with args := xs } access ts name =
    Reduction.methodsOf r site access ts name := by
  cases name with
  | none => rfl
  | some name =>
    have hmethods : ts.flatMap (s.methods · name) = ts.flatMap (r.methods · name) := by
      rw [List.flatMap_def, List.flatMap_def,
        List.map_congr_left fun t ht ↦ (h.looksAlike (hts t ht)).methods name]
    rw [Reduction.methodsOf, Reduction.methodsOf, hmethods, extensionsNamed, extensionsNamed,
      h.extensions]
    rfl

theorem membersOf : Reduction.membersOf s { site with args := xs } access ts name =
    Reduction.membersOf r site access ts name := by
  cases name with
  | none => rfl
  | some name =>
    have hmembers : ts.flatMap (s.members · name) = ts.flatMap (r.members · name) := by
      rw [List.flatMap_def, List.flatMap_def,
        List.map_congr_left fun t ht ↦ (h.looksAlike (hts t ht)).members name]
    rw [Reduction.membersOf, Reduction.membersOf, hmembers]
    rfl

omit hts

theorem constructorsOf (howner : ∀ t, access.owner = some t → Accounted void r t) :
    Reduction.constructorsOf s { site with args := xs } access =
      Reduction.constructorsOf r site access := by
  unfold Reduction.constructorsOf
  cases ha : access.owner with
  | none => rfl
  | some owner =>
    dsimp only
    rw [(h.looksAlike (howner owner ha)).constructors]
    rfl

theorem accessMember {receiver : Option Expr} {members : List Member} {args : List Expr}
    (hmembers : ∀ d ∈ members, ∀ t ∈ d.handles, Accounted void r t) :
    CallResolution.accessMember s receiver members args =
      CallResolution.accessMember r receiver members args := by
  have howner : ∀ d : Member, d.owner ∈ d.handles := by
    intro d
    cases d with
    | field d => exact List.mem_cons_of_mem _ List.mem_cons_self
    | property d => exact List.mem_cons_self
  have hfind : members.find? (·.takes s args) = members.find? (·.takes r args) := by
    refine List.find?_congr fun d hd ↦ ?_
    unfold Member.takes
    rw [(h.looksAlike (hmembers d hd _ (howner d))).defaultMember?]
  unfold CallResolution.accessMember
  rw [hfind]

end Registry.Agrees

namespace Tandem

open Reduction

variable {T : Tandem} {r s : Registry} {m n : Nat} {c : ScopeChain Definition} {o : Options} {α : Type}
  [Cites α] {site : CallSite} {xs : List (Reduction Expr)} {receiver : Option Expr} {args : List Expr}

theorem tracks_onTypes {x y : Attempt Registry CompileError α} (h : T.Tracks T.atTypes r s x y) :
    T.Tracks (T.atReducer c o) r s (Reduction.onTypes x) (Reduction.onTypes y) := by
  have hlift : ∀ (z : Attempt Registry CompileError α) t,
      Reduction.onTypes z ⟨t, c, o⟩ = (z t).lift (⟨·, c, o⟩) id := by
    intro z t
    unfold Reduction.onTypes within
    dsimp only
    cases z t <;> rfl
  unfold Tracks
  dsimp only
  rw [hlift, hlift]
  exact Follows.lift (fun _ ↦ rfl) (fun _ he ↦ he) h

theorem tracks_describeArgs (hT : T.Valid m n) (h : T.Runs r s) (hargs : T.Knows r args) :
    T.Tracks (T.atReducer c o) r s (describeArgs args) (describeArgs args) := by
  refine .get_bind (.subst (fun hlive ↦ ?_) (.pure h (knows_of_not fun t ht ↦ ht)))
  refine (hT.agrees_of_runs h hlive).describeAll fun t ht ↦ ?_
  obtain ⟨e, he, rfl⟩ := List.mem_map.1 ht
  exact hargs hlive _ ⟨e, he, e.type_mem_handles⟩

/-- The arguments of a use, reduced from now on. -/
def Args (T : Tandem) (c : ScopeChain Definition) (o : Options) (r : Registry) :
    List (Reduction Expr) → List (Reduction Expr) → Prop :=
  List.Forall₂ fun x y ↦ ∀ r' s', T.Extends r r' s' → T.Tracks (T.atReducer c o) r' s' x y

theorem tracks_dispatchAt (hT : T.Valid m n) (h : T.Runs r s) (hreceiver : T.Knows r receiver)
    {members : List Method} (hmembers : T.Knows r members) (htypeArgs : T.Knows r site.typeArgs)
    (hargs : T.Knows r args) :
    T.Tracks (T.atReducer c o) r s (dispatchAt m site receiver members args)
      (dispatchAt n { site with args := xs } receiver members args) :=
  .get_bind (tracks_onTypes (tracks_dispatch hT h _ _ hreceiver hmembers htypeArgs hargs))

theorem tracks_tryDispatch (hT : T.Valid m n) (h : T.Runs r s) (hreceiver : T.Knows r receiver)
    {members : List Method} (hmembers : T.Knows r members) (htypeArgs : T.Knows r site.typeArgs)
    (hargs : T.Knows r args) :
    T.Tracks (T.atReducer c o) r s (tryDispatch m site receiver members args)
      (tryDispatch n { site with args := xs } receiver members args) := by
  unfold tryDispatch
  split
  · exact .pure h knows_none
  · exact tracks_dispatchAt hT h hreceiver hmembers htypeArgs hargs

theorem tracks_callOverload (hT : T.Valid m n) (h : T.Runs r s) (hreceiver : T.Knows r receiver)
    {overloads : List Method} (hoverloads : T.Knows r overloads) (htypeArgs : T.Knows r site.typeArgs)
    (hargs : T.Args c o r site.args xs) :
    T.Tracks (T.atReducer c o) r s (callOverload m site receiver overloads)
      (callOverload n { site with args := xs } receiver overloads) := by
  refine (Tracks.mapM_forall₂ h hargs).bind fun args r₁ s₁ h₁ hargs ↦ ?_
  refine (tracks_describeArgs hT h₁.runs hargs).bind fun described r₂ s₂ h₂ _ ↦ ?_
  have hgrows := (h₁.trans h₂).grows
  refine (tracks_dispatchAt hT h₂.runs (hreceiver.grows hgrows) (hoverloads.grows hgrows)
    (htypeArgs.grows hgrows) (hargs.grows h₂.grows)).bind fun found r₃ s₃ h₃ hfound ↦ ?_
  cases found with
  | none => exact .fail h₃.runs _
  | some e => exact .pure h₃.runs (hfound.of_subset fun t ht ↦ ⟨e, rfl, ht⟩)

theorem knows_receiver (h : T.Knows r receiver) : T.Knows r (Access.ofReceiver receiver).receiver := by
  cases receiver with
  | none => exact knows_none
  | some e =>
    cases e with
    | typeRef target t => exact knows_none
    | constant | parameter | call | new | newArray | member | convert | lambda => exact h

theorem accounted_owner (h : T.Knows r receiver) (hlive : T.live r) {t : TypeId}
    (ht : (Access.ofReceiver receiver).owner = some t) : Accounted T.void r t := by
  cases receiver with
  | none => cases ht
  | some e =>
    refine h hlive t ⟨e, rfl, ?_⟩
    cases e with
    | typeRef target type =>
      cases ht
      exact List.mem_cons_of_mem _ List.mem_cons_self
    | constant | parameter | call | new | newArray | member | convert | lambda =>
      cases ht
      exact Expr.type_mem_handles _

theorem knows_methodsOf (hT : T.Valid m n) (h : T.Runs r s) {access : Access} {ts : List TypeId}
    {name : Option String} : T.Knows r (methodsOf r site access ts name) := by
  rintro hlive t ⟨d, hd, ht⟩
  have hclosed := (hT.agrees_of_runs h hlive).closed
  cases name with
  | none => cases hd
  | some name =>
    rw [methodsOf] at hd
    split at hd
    · rcases List.mem_append.1 hd with hd | hd
      · obtain ⟨owner, -, hd⟩ := List.mem_flatMap.1 hd
        exact hclosed.methods hd ht
      · split at hd
        · cases hd
        · exact hclosed.extensions d (List.mem_filter.1 hd).1 t ht
    · cases hd

theorem knows_constructorsOf (hT : T.Valid m n) (h : T.Runs r s) {access : Access} :
    T.Knows r (constructorsOf r site access) := by
  rintro hlive t ⟨d, hd, ht⟩
  unfold constructorsOf at hd
  split at hd
  · cases hd
  · split at hd
    · exact (hT.agrees_of_runs h hlive).closed.constructors hd ht
    · cases hd

theorem accounted_membersOf (hT : T.Valid m n) (h : T.Runs r s) (hlive : T.live r) {access : Access}
    {ts : List TypeId} {name : Option String} {d : Member} (hd : d ∈ membersOf r site access ts name)
    {t : TypeId} (ht : t ∈ d.handles) : Accounted T.void r t := by
  cases name with
  | none => cases hd
  | some name =>
    rw [membersOf] at hd
    split at hd
    · obtain ⟨owner, -, hd⟩ := List.mem_flatMap.1 (List.mem_filter.1 hd).1
      exact (hT.agrees_of_runs h hlive).closed.members hd ht
    · cases hd

theorem knows_accessMember (hT : T.Valid m n) (h : T.Runs r s) {access : Access} {ts : List TypeId}
    {name : Option String} {e : Expr}
    (he : accessMember r receiver (membersOf r site access ts name) args = some e) : T.Knows r e := by
  intro hlive t ht
  obtain ⟨d, hd, he⟩ := Option.bind_eq_some_iff.1 he
  cases he
  rw [List.mem_singleton.1 ht]
  refine accounted_membersOf hT h hlive (List.mem_of_find?_eq_some hd) ?_
  cases d with
  | field d => exact List.mem_cons_self
  | property d => exact List.mem_cons_of_mem _ List.mem_cons_self

theorem tracks_accessLive (hT : T.Valid m n) (h : T.Runs r s) (hreceiver : T.Knows r site.receiver)
    (htypeArgs : T.Knows r site.typeArgs) (hargs : T.Args c o r site.args xs) :
    T.Tracks (T.atReducer c o) r s (accessLive m site) (accessLive n { site with args := xs }) := by
  unfold accessLive
  refine (Tracks.mapM_forall₂ h hargs).bind fun args r₁ s₁ h₁ hargs ↦ ?_
  have howner (hlive : T.live r₁) (t : TypeId) :=
    accounted_owner (t := t) (hreceiver.grows h₁.grows) hlive
  have hsearch (hlive : T.live r₁) :=
    (hT.agrees_of_runs h₁.runs hlive).search hT.le (howner hlive)
  refine .ask_bind (fun hlive ts hts ↦ (hsearch hlive ts hts).1) fun ts hts ↦ .get_bind ?_
  have hts (hlive : T.live r₁) : ∀ t ∈ ts, Accounted T.void r₁ t := (hsearch hlive ts hts).2
  simp only [← CallSite.liveName.eq_1]
  refine Tracks.congr_right (y := ?_) ?_ fun hlive ↦ ?same
  case same =>
    rw [(hT.agrees_of_runs h₁.runs hlive).liveName (hts hlive),
      (hT.agrees_of_runs h₁.runs hlive).methodsOf (hts hlive)]
  refine (tracks_describeArgs hT h₁.runs hargs).bind fun described r₂ s₂ h₂ _ ↦ ?_
  have hgrows := (h₁.trans h₂).grows
  refine (tracks_tryDispatch hT h₂.runs ((knows_receiver hreceiver).grows hgrows)
    ((knows_methodsOf hT h₁.runs).grows h₂.grows) (htypeArgs.grows hgrows)
    (hargs.grows h₂.grows)).bind fun found r₃ s₃ h₃ hfound ↦ ?_
  cases found with
  | some e => exact .pure h₃.runs (hfound.of_subset fun t ht ↦ ⟨e, rfl, ht⟩)
  | none =>
    refine .get_bind ?_
    dsimp only
    have hgrows₃ := (h₁.trans (h₂.trans h₃)).grows
    refine Tracks.congr_right (y := ?_) ?_ fun hlive ↦ ?same
    case same =>
      rw [(hT.agrees_of_runs h₃.runs hlive).constructorsOf fun t ↦
        accounted_owner (hreceiver.grows hgrows₃) hlive]
    refine (tracks_tryDispatch hT h₃.runs knows_none (knows_constructorsOf hT h₃.runs)
      (htypeArgs.grows hgrows₃) (hargs.grows (h₂.trans h₃).grows)).bind fun found r₄ s₄ h₄ hfound ↦ ?_
    cases found with
    | some e => exact .pure h₄.runs (hfound.of_subset fun t ht ↦ ⟨e, rfl, ht⟩)
    | none =>
      refine .get_bind ?_
      dsimp only
      have hgrows₄ : Grows r₁ r₄ := (h₂.trans (h₃.trans h₄)).grows
      have hts₄ (hlive : T.live r₄) (t : TypeId) (ht : t ∈ ts) : Accounted T.void r₄ t :=
        (hts (T.live_of_grows hgrows₄ hlive) t ht).mono fun _ hu ↦ hgrows₄.contains hu
      refine Tracks.congr_right (y := ?_) ?_ fun hlive ↦ ?same
      case same =>
        have hagrees := hT.agrees_of_runs h₄.runs hlive
        rw [hagrees.membersOf (hts₄ hlive), hagrees.accessMember fun d hd t ht ↦
          accounted_membersOf hT h₄.runs hlive hd ht]
      cases he : accessMember r₄ _ _ args with
      | some e => exact .pure h₄.runs (knows_accessMember hT h₄.runs he)
      | none =>
        dsimp only
        split
        · exact .fail h₄.runs _
        · exact .fail h₄.runs _

theorem tracks_applyRule (hT : T.Valid m n) (h : T.Runs r s) (hreceiver : T.Knows r site.receiver)
    (htypeArgs : T.Knows r site.typeArgs) (hargs : T.Args c o r site.args xs) {rule : Rule}
    (hstock : rule.isStock = true) (hrule : T.Knows r rule) :
    T.Tracks (T.atReducer c o) r s (applyRule m site rule) (applyRule n { site with args := xs } rule) := by
  cases rule with
  | constant e => exact .pure h hrule
  | typeReference target =>
    have htarget : T.Knows r target := hrule.of_subset fun t ht ↦ List.mem_singleton.2 ht
    have hwrap : T.Tracks T.atTypes r s (Attempt.mapError .registration (staticWrapper target))
        (Attempt.mapError .registration (staticWrapper target)) :=
      (hT.staticWrapper h htarget).mapError rfl fun e _ ↦ ⟨e, rfl⟩
    refine (tracks_onTypes hwrap).bind fun type r' s' h' htype ↦ .pure h'.runs fun hlive t ht ↦ ?_
    rcases List.mem_cons.1 ht with rfl | ht
    · exact htype hlive _ rfl
    · exact htarget.grows h'.grows hlive t (List.mem_singleton.1 ht)
  | methods overloads =>
    refine tracks_callOverload hT h (knows_receiver hreceiver) (hrule.of_subset ?_) htypeArgs hargs
    rintro t ⟨d, hd, ht⟩
    exact List.mem_flatMap.2 ⟨d, hd, ht⟩
  | constructors target =>
    refine .get_bind ?_
    dsimp only
    refine Tracks.congr_right (y := ?_) ?_ fun hlive ↦ ?same
    case same =>
      rw [((hT.agrees_of_runs h hlive).looksAlike (hrule hlive target List.mem_cons_self)).constructors]
    refine tracks_callOverload hT h knows_none ?_ htypeArgs hargs
    rintro hlive t ⟨d, hd, ht⟩
    exact (hT.agrees_of_runs h hlive).closed.constructors hd ht
  | liveMembers => exact tracks_accessLive hT h hreceiver htypeArgs hargs
  | receiver | letIn _ | failing _ => cases hstock

theorem knows_rule {scope : Scope Definition} {k : SymbolKey} {d : Definition} (hc : T.Knows r c)
    (hscope : scope ∈ c.toList) (hd : (k, d) ∈ scope.entries) : T.Knows r d.rule :=
  hc.of_subset fun _ ht ↦ ⟨scope, hscope, List.mem_flatMap.2 ⟨(k, d), hd, List.mem_append_right _ ht⟩⟩

theorem tracks_resolve (hT : T.Valid m n) (h : T.Runs r s) (hstock : c.IsStock) (hc : T.Knows r c)
    (hreceiver : T.Knows r site.receiver) (htypeArgs : T.Knows r site.typeArgs)
    (hargs : T.Args c o r site.args xs) :
    T.Tracks (T.atReducer c o) r s (resolve m site) (resolve n { site with args := xs }) := by
  unfold resolve resolveBy
  refine .ask_bind (fun hlive found hfound ↦ ?_) fun found hfound ↦ .get_bind ?_
  · refine ((hT.agrees_of_runs h hlive).chainClosestMatch hT.le ?_ ?_ found hfound).1
    · intro t ht
      obtain ⟨e, he, rfl⟩ := Option.map_eq_some_iff.1 (Option.mem_toList.1 ht)
      exact hreceiver hlive _ ⟨e, he, e.type_mem_handles⟩
    · intro scope hscope e he t ht
      exact hc hlive t ⟨scope, hscope, List.mem_flatMap.2 ⟨e, he, List.mem_append_left _ ht⟩⟩
  · have hfound (d : Definition) (hd : (found.map Prod.snd).or (c.find? .missing) = some d) :
        d.rule.isStock = true ∧ T.Knows r d.rule := by
      rcases Option.or_eq_some_iff.1 hd with hd | ⟨-, hd⟩
      · obtain ⟨⟨k, d'⟩, rfl, rfl⟩ := Option.map_eq_some_iff.1 hd
        obtain ⟨scope, hscope, he, -⟩ := ScopeChain.mem_of_closestMatch hfound
        exact ⟨hstock scope hscope _ he, knows_rule hc hscope he⟩
      · obtain ⟨scope, hscope, k, he, -⟩ := ScopeChain.mem_of_find? hd
        exact ⟨hstock scope hscope _ he, knows_rule hc hscope he⟩
    dsimp only
    cases hd : (found.map Prod.snd).or (c.find? .missing) with
    | none => exact .fail h _
    | some d =>
      exact tracks_applyRule hT h hreceiver htypeArgs hargs (hfound d hd).1 (hfound d hd).2

/-- What is done in a scope of its own and ends there is followed also from outside. -/
theorem follows_ensuring {f : Scope Definition} {x y : Reduction α}
    (h : T.Tracks (T.atReducer (c.enter f) o) r s x y) :
    T.Follows (T.atReducer c o) r (ensuring x pop ⟨r, c.enter f, o⟩)
      (ensuring y pop ⟨s, c.enter f, o⟩) := by
  unfold Tracks at h
  dsimp only at h
  generalize hx : x ⟨r, c.enter f, o⟩ = out at h
  cases h with
  | done h hrun ha =>
    rw [ensuring_pop_of_done hx rfl]
    refine .done (V := T.atReducer c o) h (fun hlive ↦ ?_) ha
    rw [ensuring_pop_of_done (hrun hlive) rfl]
  | failed h hrun =>
    rw [ensuring_pop_of_failed hx rfl]
    refine .failed (V := T.atReducer c o) h fun hlive ↦ ?_
    rw [ensuring_pop_of_failed (hrun hlive) rfl]
  | unmade he hgrows hleft hrun =>
    rw [ensuring_pop_of_failed hx rfl]
    refine .unmade (V := T.atReducer c o) he hgrows hleft fun hstrict hlive ↦ ?_
    obtain ⟨s', hs'⟩ := hrun hstrict hlive
    rw [ensuring_pop_of_failed hs' rfl]
    exact ⟨s', rfl⟩
  | exhausted =>
    rw [ensuring_of_exhausted hx]
    exact .exhausted

theorem isStock_enter (hc : c.IsStock) {f : Scope Definition} {params : List Param}
    (hf : f.entries = paramEntries params) : (c.enter f).IsStock := by
  refine List.forall_mem_cons.2 ⟨fun e he ↦ ?_, hc⟩
  change e ∈ f.entries at he
  rw [hf] at he
  obtain ⟨p, -, rfl⟩ := mem_paramEntries.1 he
  rfl

theorem knows_enter (hc : T.Knows r c) {f : Scope Definition} {params : List Param}
    (hf : f.entries = paramEntries params) (hparams : T.Knows r params) : T.Knows r (c.enter f) := by
  refine knows_list_iff.2 (List.forall_mem_cons.2 ⟨fun hlive t ht ↦ ?_, knows_list_iff.1 hc⟩)
  obtain ⟨e, he, ht⟩ := List.mem_flatMap.1 ht
  change e ∈ f.entries at he
  rw [hf] at he
  obtain ⟨p, hp, rfl⟩ := mem_paramEntries.1 he
  rw [List.mem_singleton.1 ht]
  exact hparams hlive _ ⟨p, hp, rfl⟩

theorem tracks_lambda (hT : T.Valid m n) (h : T.Runs r s) {params : List Param} {body : Node}
    {span : Span} (hparams : T.Knows r params)
    (hbody : ∀ f : Scope Definition, f.entries = paramEntries params →
      T.Tracks (T.atReducer (c.enter f) o) r s (reduce m body) (reduce n body)) :
    T.Tracks (T.atReducer c o) r s (reduce m (.lambda params body span))
      (reduce n (.lambda params body span)) := by
  unfold Tracks
  dsimp only
  by_cases hdepth : c.depth + 1 ≤ o.maxDepth
  · cases hf : ({} : Scope Definition).addAll (paramEntries params) with
    | error e =>
      rw [reduce_lambda_of_error hdepth hf, reduce_lambda_of_error hdepth hf]
      exact Tracks.fail (V := T.atReducer c o) h (.symbol e)
    | ok f =>
      rw [reduce_lambda_of_ok hdepth hf, reduce_lambda_of_ok hdepth hf]
      refine follows_ensuring ((hbody f (Scope.entries_of_addAll hf)).map _ ?_)
      intro e r' s' h' he hlive t ht
      rcases List.mem_cons.1 ht with rfl | ht
      · exact (hT.agrees_of_runs h'.runs hlive).closed.basic _ (by simp [basics])
      · rcases List.mem_cons.1 ht with rfl | ht
        · exact he hlive _ e.type_mem_handles
        · obtain ⟨p, hp, rfl⟩ := List.mem_map.1 ht
          exact hparams.grows h'.grows hlive _ ⟨p, hp, rfl⟩
  · rw [reduce_lambda, reduce_lambda, inScope_of_deep (by omega), inScope_of_deep (by omega)]
    exact Tracks.fail (V := T.atReducer c o) h (.scopeTooDeep o.maxDepth span)

mutual

/-- A form is reduced alike in both runs. -/
theorem tracks_reduce (hT : T.Valid m n) {r s : Registry} (h : T.Runs r s)
    {c : ScopeChain Definition} (hstock : c.IsStock) (hc : T.Knows r c) :
    (node : Node) → T.Knows r node → T.Tracks (T.atReducer c o) r s (reduce m node) (reduce n node)
  | .literal value span, _ => by
    rw [reduce_literal, reduce_literal]
    refine .pure h fun hlive t ht ↦ ?_
    rw [List.mem_singleton.1 ht]
    exact (hT.agrees_of_runs h hlive).closed.basic _ value.type_mem_basics
  | .symbol name span, _ => by
    rw [reduce_symbol, reduce_symbol]
    exact tracks_resolve hT h hstock hc knows_none (knows_list_iff.2 (by simp)) .nil
  | .call kind name typeArgs receiver args span, hnode => by
    rw [reduce_call, reduce_call]
    have htypeArgs : T.Knows r typeArgs := hnode.of_subset fun t ⟨u, hu, htu⟩ ↦
      List.mem_append_left _ (List.mem_append_left _ (htu ▸ hu))
    refine (tracks_reduceReceiver hT h hstock hc receiver fun hlive t ht ↦ ?_).bind
      fun e r' s' h' he ↦ ?_
    · exact hnode hlive t (List.mem_append_left _ (List.mem_append_right _ ht))
    · refine tracks_resolve hT h'.runs hstock (hc.grows h'.grows) he (htypeArgs.grows h'.grows) ?_
      exact args_delay hT h'.runs hstock (hc.grows h'.grows) args fun hlive t ht ↦
        hnode.grows h'.grows hlive t (List.mem_append_right _ ht)
  | .lambda params body span, hnode => by
    have hparams : T.Knows r params := hnode.of_subset fun t ⟨p, hp, ht⟩ ↦
      List.mem_append_left _ (ht ▸ List.mem_map_of_mem hp)
    refine tracks_lambda hT h hparams fun f hf ↦ ?_
    exact tracks_reduce hT h (isStock_enter hstock hf) (knows_enter hc hf hparams) body
      (hnode.of_subset fun t ht ↦ List.mem_append_right _ ht)

theorem tracks_reduceReceiver (hT : T.Valid m n) {r s : Registry} (h : T.Runs r s)
    {c : ScopeChain Definition} (hstock : c.IsStock) (hc : T.Knows r c) :
    (receiver : Option Node) →
      (T.live r → ∀ t ∈ Node.receiverHandles receiver, Accounted T.void r t) →
      T.Tracks (T.atReducer c o) r s (reduceReceiver m receiver) (reduceReceiver n receiver)
  | none, _ => .pure h knows_none
  | some node, hnode => by
    rw [reduceReceiver_some, reduceReceiver_some]
    exact (tracks_reduce hT h hstock hc node hnode).bind fun e r' s' h' he ↦ .pure h'.runs he.some

theorem args_delay (hT : T.Valid m n) {r s : Registry} (h : T.Runs r s)
    {c : ScopeChain Definition} (hstock : c.IsStock) (hc : T.Knows r c) :
    (args : List Node) → (T.live r → ∀ t ∈ Node.allHandles args, Accounted T.void r t) →
      T.Args c o r (delay m args) (delay n args)
  | [], _ => .nil
  | node :: nodes, hnodes => by
    rw [delay_cons, delay_cons]
    refine .cons (fun r' s' h' ↦ ?_) ?_
    · exact tracks_reduce hT h'.runs hstock (hc.grows h'.grows) node (Knows.grows
        (fun hlive t ht ↦ hnodes hlive t (List.mem_append_left _ ht)) h'.grows)
    · exact args_delay hT h hstock hc nodes fun hlive t ht ↦
        hnodes hlive t (List.mem_append_right _ ht)

end

end Tandem

end CallResolution
