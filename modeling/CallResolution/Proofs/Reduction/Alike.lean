import CallResolution.Proofs.Overload.Congruence
import CallResolution.Proofs.Reduction.LiveMembers
import CallResolution.Proofs.Scope.Match
import CallResolution.Reduction.Reduce

namespace CallResolution

open Attempt

/-- The rules that a context is made of; the others take part of the reduction into their own
hands. -/
def Rule.isStock : Rule → Bool
  | constant _ | typeReference _ | methods _ | constructors _ | liveMembers => true
  | receiver | letIn _ | failing _ => false

def ScopeChain.IsStock (c : ScopeChain Definition) : Prop :=
  ∀ s ∈ c.toList, ∀ e ∈ s.entries, e.2.rule.isStock = true

/-- The definition has a stock rule, and if it is a constant, `R` relates that to itself. -/
structure Definition.StockFor (R : Expr → Expr → Prop) (d : Definition) : Prop where
  isStock : d.rule.isStock = true
  constant : ∀ e, d.rule = .constant e → R e e

theorem Definition.StockFor.toEq {R : Expr → Expr → Prop} {d : Definition} (h : d.StockFor R) :
    d.StockFor Eq := ⟨h.isStock, fun _ _ ↦ rfl⟩

namespace Node

mutual

/-- The name occurs in the form, be it as a symbol, a call or a parameter. -/
def mentions (y : String) : Node → Bool
  | .literal _ _ => false
  | .symbol name _ => name == y
  | .call _ name _ receiver args _ =>
    name == y || receiverMentions y receiver || someMentions y args
  | .lambda params body _ => decide (y ∈ params.map Param.name) || body.mentions y

def receiverMentions (y : String) : Option Node → Bool
  | none => false
  | some node => node.mentions y

def someMentions (y : String) : List Node → Bool
  | [] => false
  | node :: nodes => node.mentions y || someMentions y nodes

end

end Node

namespace Reduction

/-- The two states are the same but for their scopes, which are `c` and `c'`. -/
structure Beside (c c' : ScopeChain Definition) (s s' : Reducer) : Prop where
  types : s.types = s'.types
  options : s.options = s'.options
  left : s.scopes = c
  right : s'.scopes = c'

theorem Beside.eq {c : ScopeChain Definition} {s s' : Reducer} (h : Beside c c s s') : s = s' := by
  cases s
  cases s'
  rw [Reducer.mk.injEq]
  exact ⟨h.types, h.left.trans h.right.symm, h.options⟩

variable {c c' : ScopeChain Definition} {R : Expr → Expr → Prop} {fuel : Nat} {α β : Type}
  {site site' : CallSite} {as bs : List Expr}

theorem rel_of_apply {Q : α → β → Prop} {x : Reduction α} {y : Reduction β}
    (h : ∀ r o, Outcome.Rel (Beside c c') Q (x ⟨r, c, o⟩) (y ⟨r, c', o⟩)) :
    Attempt.Rel (Beside c c') Q x y := by
  rintro ⟨r, d, o⟩ ⟨_, d', _⟩ ⟨rfl, rfl, rfl, rfl⟩
  exact h r o

theorem rel_onTypes {Q : α → β → Prop} {x : Attempt Registry CompileError α}
    {y : Attempt Registry CompileError β} (h : Attempt.Rel Eq Q x y) :
    Attempt.Rel (Beside c c') Q (onTypes x) (onTypes y) := by
  intro s s' hs
  have hxy := h s.types s'.types hs.types
  unfold onTypes within
  cases hx : x s.types <;> cases hy : y s'.types <;> rw [hx, hy] at hxy <;> cases hxy
  · rename_i hq hr
    exact .done hq ⟨hr, hs.options, hs.left, hs.right⟩
  · rename_i hr
    exact .failed _ ⟨hr, hs.options, hs.left, hs.right⟩
  · exact .exhausted

theorem option_rel_eq (x : Option α) : Option.Rel Eq x x := by
  cases x with
  | none => exact .none
  | some a => exact .some rfl

theorem rel_orElse {x y : Option Expr} {k k' : Reduction Expr}
    (hk : Attempt.Rel (Beside c c') R k k') : Option.Rel R x y →
    Attempt.Rel (Beside c c') R (match x with | some e => pure e | none => k)
      (match y with | some e => pure e | none => k') := by
  intro h
  cases h with
  | none => exact hk
  | some hab => exact .pure hab

/-- Two uses of the same symbol, up to the receivers and what the arguments reduce to. -/
structure CallSite.Rel (c c' : ScopeChain Definition) (R : Expr → Expr → Prop)
    (site site' : CallSite) : Prop where
  kind : site.kind = site'.kind
  name : site.name = site'.name
  typeArgs : site.typeArgs = site'.typeArgs
  span : site.span = site'.span
  receiver : Option.Rel R site.receiver site'.receiver
  args : List.Forall₂ (Attempt.Rel (Beside c c') R) site.args site'.args

theorem rel_reduceArgs (h : site.Rel c c' R site') :
    Attempt.Rel (Beside c c') (List.Forall₂ R) site.reduceArgs site'.reduceArgs :=
  Attempt.Rel.mapM (R := Attempt.Rel (Beside c c') R) (fun _ _ hxy ↦ hxy) h.args

theorem wants_congr (h : site.Rel c c' R site') (flag : CallKind → Bool) :
    site.wants flag = site'.wants flag := by
  rw [CallSite.wants, CallSite.wants, h.kind]

theorem map_type_congr (hR : Expr.Congruence R) (h : List.Forall₂ R as bs) :
    as.map Expr.type = bs.map Expr.type := by
  induction h with
  | nil => rfl
  | cons hab _ ih =>
    rw [List.map_cons, List.map_cons, ih, Expr.type_eq_of_shape (hR.shape hab)]

theorem rel_describeArgs (hR : Expr.Congruence R) (h : List.Forall₂ R as bs) :
    Attempt.Rel (Beside c c') Eq (describeArgs as) (describeArgs bs) := by
  refine Attempt.Rel.get.bind fun s s' hs ↦ ?_
  rw [hs.types, map_type_congr hR h]
  exact .pure rfl

theorem rel_dispatchAt (hR : Expr.Congruence R) (h : site.Rel c c' R site')
    {receiver receiver' : Option Expr} (hr : Option.Rel R receiver receiver') (members : List Method)
    (hargs : List.Forall₂ R as bs) :
    Attempt.Rel (Beside c c') (Option.Rel R) (dispatchAt fuel site receiver members as)
      (dispatchAt fuel site' receiver' members bs) := by
  refine Attempt.Rel.get.bind fun s s' hs ↦ ?_
  rw [hs.options, h.span, h.typeArgs]
  exact rel_onTypes (rel_dispatch hR _ _ hr members _ hargs)

theorem rel_callOverload (hR : Expr.Congruence R) (h : site.Rel c c' R site')
    {receiver receiver' : Option Expr} (hr : Option.Rel R receiver receiver')
    (overloads : List Method) :
    Attempt.Rel (Beside c c') R (callOverload fuel site receiver overloads)
      (callOverload fuel site' receiver' overloads) := by
  refine (rel_reduceArgs h).bind fun as bs hargs ↦ ?_
  refine (rel_describeArgs hR hargs).bind fun described _ hd ↦ ?_
  subst hd
  refine (rel_dispatchAt hR h hr overloads hargs).bind fun _ _ ↦ rel_orElse ?_
  rw [h.name, h.span]
  exact .fail _

theorem rel_tryDispatch (hR : Expr.Congruence R) (h : site.Rel c c' R site')
    {receiver receiver' : Option Expr} (hr : Option.Rel R receiver receiver') (members : List Method)
    (hargs : List.Forall₂ R as bs) :
    Attempt.Rel (Beside c c') (Option.Rel R) (tryDispatch fuel site receiver members as)
      (tryDispatch fuel site' receiver' members bs) := by
  unfold tryDispatch
  split
  · exact .pure .none
  · exact rel_dispatchAt hR h hr members hargs

structure Access.Rel (R : Expr → Expr → Prop) (a b : Access) : Prop where
  receiver : Option.Rel R a.receiver b.receiver
  owner : a.owner = b.owner
  isStatic : a.isStatic = b.isStatic

theorem ofReceiver_some (e : Expr) :
    Access.ofReceiver (some e) = match e.shape.target? with
      | some target => { owner := some target, isStatic := true }
      | none => { receiver := some e, owner := some e.shape.type } := by
  cases e <;> rfl

theorem rel_ofReceiver (hR : Expr.Congruence R) {x y : Option Expr} (h : Option.Rel R x y) :
    (Access.ofReceiver x).Rel R (Access.ofReceiver y) := by
  cases h with
  | none => exact ⟨.none, rfl, rfl⟩
  | some hab =>
    rw [ofReceiver_some, ofReceiver_some, hR.shape hab]
    split
    · exact ⟨.none, rfl, rfl⟩
    · exact ⟨.some hab, rfl, rfl⟩

theorem rel_accessLive (hR : Expr.Congruence R) (h : site.Rel c c' R site') :
    Attempt.Rel (Beside c c') R (accessLive fuel site) (accessLive fuel site') := by
  have ha := rel_ofReceiver hR h.receiver
  have hmethods (r : Registry) (search : List TypeId) (name : Option String) :
      methodsOf r site (Access.ofReceiver site.receiver) search name =
        methodsOf r site' (Access.ofReceiver site'.receiver) search name := by
    cases name <;> simp only [methodsOf, wants_congr h, ha.isStatic]
  have hconstructors (r : Registry) : constructorsOf r site (Access.ofReceiver site.receiver) =
      constructorsOf r site' (Access.ofReceiver site'.receiver) := by
    simp only [constructorsOf, wants_congr h, ha.isStatic, ha.owner]
  have hmembers (r : Registry) (search : List TypeId) (name : Option String) :
      membersOf r site (Access.ofReceiver site.receiver) search name =
        membersOf r site' (Access.ofReceiver site'.receiver) search name := by
    cases name <;> simp only [membersOf, wants_congr h, ha.isStatic, h.typeArgs]
  unfold accessLive
  refine (rel_reduceArgs h).bind fun as bs hargs ↦ ?_
  have hsearch : Attempt.Rel (Beside c c') Eq
      (ask fun s ↦ (Access.ofReceiver site.receiver).search s.types fuel : Reduction (List TypeId))
      (ask fun s ↦ (Access.ofReceiver site'.receiver).search s.types fuel) := by
    refine .ask fun s s' hs ↦ ?_
    simp only [Access.search, ha.owner, hs.types]
    exact option_rel_eq _
  refine hsearch.bind fun search _ hsame ↦ ?_
  subst hsame
  refine Attempt.Rel.get.bind fun s s' hs ↦ ?_
  refine (rel_describeArgs hR hargs).bind fun described _ hsame ↦ ?_
  subst hsame
  simp only [hs.types, h.name, h.span, hmethods, ← CallSite.liveName.eq_1]
  refine (rel_tryDispatch hR h ha.receiver _ hargs).bind fun _ _ ↦ rel_orElse ?_
  refine Attempt.Rel.get.bind fun s₂ s₂' hs₂ ↦ ?_
  simp only [hs₂.types, hconstructors]
  refine (rel_tryDispatch hR h .none _ hargs).bind fun _ _ ↦ rel_orElse ?_
  refine Attempt.Rel.get.bind fun s₃ s₃' hs₃ ↦ ?_
  simp only [hs₃.types, hmembers]
  refine rel_orElse ?_ (rel_accessMember hR ha.receiver _ hargs)
  split <;> exact .fail _

theorem rel_applyRule (hR : Expr.Congruence R) (h : site.Rel c c' R site') {d : Definition}
    (hd : d.StockFor R) :
    Attempt.Rel (Beside c c') R (applyRule fuel site d.rule) (applyRule fuel site' d.rule) := by
  obtain ⟨hstock, hconstant⟩ := hd
  cases hrule : d.rule with
  | constant e => exact .pure (hconstant e hrule)
  | typeReference target =>
    refine (rel_onTypes (.same _)).bind fun t _ hsame ↦ ?_
    subst hsame
    exact .pure (hR.typeRef target t)
  | methods overloads => exact rel_callOverload hR h (rel_ofReceiver hR h.receiver).receiver overloads
  | constructors target =>
    refine Attempt.Rel.get.bind fun s s' hs ↦ ?_
    rw [hs.types]
    exact rel_callOverload hR h .none _
  | liveMembers => exact rel_accessLive hR h
  | receiver | letIn _ | failing _ =>
    rw [hrule] at hstock
    cases hstock

theorem resolve_of_closestMatch {r : Registry} {o : Options} {k : SymbolKey} {d : Definition}
    (h : c.closestMatch r fuel ⟨site.kind, site.receiver.map Expr.type, site.name⟩ =
      some (some (k, d))) :
    resolve fuel site ⟨r, c, o⟩ = applyRule fuel site d.rule ⟨r, c, o⟩ := by
  have hask : (ask fun s ↦ s.scopes.closestMatch s.types fuel
      ⟨site.kind, site.receiver.map Expr.type, site.name⟩ : Reduction (Option (SymbolKey × Definition)))
      ⟨r, c, o⟩ = .done (some (k, d)) ⟨r, c, o⟩ := ask_eq_done_iff.2 ⟨h, rfl⟩
  rw [resolve, resolveBy, bind_apply, hask]
  rfl

theorem resolve_of_unanswered {r : Registry} {o : Options}
    (h : c.closestMatch r fuel ⟨site.kind, site.receiver.map Expr.type, site.name⟩ = none) :
    resolve fuel site ⟨r, c, o⟩ = .exhausted := by
  have hask : (ask fun s ↦ s.scopes.closestMatch s.types fuel
      ⟨site.kind, site.receiver.map Expr.type, site.name⟩ : Reduction (Option (SymbolKey × Definition)))
      ⟨r, c, o⟩ = .exhausted := by
    rw [ask, h]
  rw [resolve, resolveBy, bind_apply, hask]

/-- The two chains answer the query alike, and with a stock definition if with any. -/
structure AnswersAlike (R : Expr → Expr → Prop) (c c' : ScopeChain Definition) (q : SymbolKey) :
    Prop where
  same : ∀ r fuel, c.closestMatch r fuel q = c'.closestMatch r fuel q
  stock : ∀ r fuel k d, c.closestMatch r fuel q = some (some (k, d)) → d.StockFor R

/-- The two chains have the same depth and the same definition to fall back on, and answer alike
all queries for the uses `V` of a name. -/
structure Agree (R : Expr → Expr → Prop) (V : CallKind → String → Prop)
    (c c' : ScopeChain Definition) : Prop where
  depth : c.depth = c'.depth
  answers : ∀ q : SymbolKey, V q.kind q.name → AnswersAlike R c c' q
  missing : c.find? .missing = c'.find? .missing
  missing_stock : ∀ d, c.find? .missing = some d → d.StockFor R

theorem Agree.toEq {V : CallKind → String → Prop} (h : Agree R V c c') : Agree Eq V c c' where
  depth := h.depth
  answers q hq :=
    ⟨(h.answers q hq).same, fun r fuel k d hd ↦ ((h.answers q hq).stock r fuel k d hd).toEq⟩
  missing := h.missing
  missing_stock d hd := (h.missing_stock d hd).toEq

theorem receiverType_congr (hR : Expr.Congruence R) {x y : Option Expr} (h : Option.Rel R x y) :
    x.map Expr.type = y.map Expr.type := by
  cases h with
  | none => rfl
  | some hab => exact congrArg some (Expr.type_eq_of_shape (hR.shape hab))

theorem rel_resolve (hR : Expr.Congruence R) {V : CallKind → String → Prop} (hc : Agree R V c c')
    (h : site.Rel c c' R site') (hV : V site.kind site.name) :
    Attempt.Rel (Beside c c') R (resolve fuel site) (resolve fuel site') := by
  have hreceiver := receiverType_congr hR h.receiver
  obtain ⟨hsame, hstock⟩ := hc.answers ⟨site.kind, site.receiver.map Expr.type, site.name⟩ hV
  have hfound : Attempt.Rel (Beside c c')
      (fun x y ↦ x = y ∧ ∀ d, x.map Prod.snd = some d → d.StockFor R)
      (ask fun s ↦ s.scopes.closestMatch s.types fuel
        ⟨site.kind, site.receiver.map Expr.type, site.name⟩ : Reduction (Option (SymbolKey × Definition)))
      (ask fun s ↦ s.scopes.closestMatch s.types fuel
        ⟨site'.kind, site'.receiver.map Expr.type, site'.name⟩) := by
    refine .ask fun s s' hs ↦ ?_
    rw [hs.left, hs.right, hs.types, ← h.kind, ← hreceiver, ← h.name, ← hsame]
    cases hm : c.closestMatch s'.types fuel ⟨site.kind, site.receiver.map Expr.type, site.name⟩ with
    | none => exact .none
    | some found =>
      refine .some ⟨rfl, fun d hd ↦ ?_⟩
      obtain ⟨⟨k, d'⟩, rfl, rfl⟩ := Option.map_eq_some_iff.1 hd
      exact hstock _ _ k d' hm
  refine hfound.bind fun found _ hsame ↦ ?_
  obtain ⟨rfl, hstock⟩ := hsame
  refine Attempt.Rel.get.bind fun s s' hs ↦ ?_
  rw [hs.left, hs.right, ← hc.missing]
  cases hd : (found.map Prod.snd).or (c.find? .missing) with
  | none =>
    rw [h.name, h.span]
    exact .fail _
  | some d =>
    refine rel_applyRule hR h ?_
    rcases Option.or_eq_some_iff.1 hd with hd | ⟨-, hd⟩
    · exact hstock d hd
    · exact hc.missing_stock d hd

def paramEntries (params : List Param) : List (SymbolKey × Definition) :=
  params.map fun p ↦ (.global .ofMember p.name, .parameter p.name p.type)

def defineParams (params : List Param) : Reduction Unit :=
  params.forM fun p ↦ define (.global .ofMember p.name) (.parameter p.name p.type)

theorem reduce_literal (value : Literal) (span : Span) :
    reduce fuel (.literal value span) = return .literal value := by
  rw [reduce, reduceBy]

theorem reduce_symbol (name : String) (span : Span) :
    reduce fuel (.symbol name span) = resolve fuel { kind := .ofMember, name := name, span := span } := by
  rw [reduce, reduceBy]
  rfl

theorem reduce_call (kind : CallKind) (name : String) (typeArgs : List TypeId) (receiver : Option Node)
    (args : List Node) (span : Span) : reduce fuel (.call kind name typeArgs receiver args span) = (do
      let receiver ← reduceReceiver fuel receiver
      resolve fuel { kind, name, typeArgs, span, receiver, args := delay fuel args }) := by
  rw [reduce, reduceBy]
  rfl

theorem reduceReceiver_some (node : Node) :
    reduceReceiver fuel (some node) = (do return some (← reduce fuel node)) := by
  rw [reduceReceiver, receiverBy]
  rfl

theorem delay_cons (node : Node) (nodes : List Node) :
    delay fuel (node :: nodes) = reduce fuel node :: delay fuel nodes := by
  rw [delay, delayBy]
  rfl

section Lambda

variable {r : Registry} {o : Options} {inner f f' : Scope Definition}
  {outer : List (Scope Definition)} {params params' : List Param} {body body' : Node} {span : Span}

theorem define_apply (k : SymbolKey) (d : Definition) :
    define k d ⟨r, ⟨inner, outer⟩, o⟩ = match inner.add k d with
      | .ok f => .done () ⟨r, ⟨f, outer⟩, o⟩
      | .error e => .failed (.symbol e) ⟨r, ⟨inner, outer⟩, o⟩ := by
  unfold define
  rw [get_bind]
  cases inner.add k d <;> rfl

theorem defineParams_cons (p : Param) (params : List Param) :
    defineParams (p :: params) = (do
      define (.global .ofMember p.name) (.parameter p.name p.type)
      defineParams params) := rfl

theorem defineParams_of_ok (h : inner.addAll (paramEntries params) = .ok f) :
    defineParams params ⟨r, ⟨inner, outer⟩, o⟩ = .done () ⟨r, ⟨f, outer⟩, o⟩ := by
  induction params generalizing inner with
  | nil =>
    cases h
    rfl
  | cons p params ih =>
    simp only [paramEntries, List.map_cons, Scope.addAll] at h
    rw [defineParams_cons, bind_apply, define_apply]
    cases ha : inner.add (.global .ofMember p.name) (.parameter p.name p.type) with
    | error e =>
      rw [ha] at h
      cases h
    | ok g =>
      rw [ha] at h
      exact ih h

theorem defineParams_of_error {e : SymbolError}
    (h : inner.addAll (paramEntries params) = .error e) :
    ∃ g, defineParams params ⟨r, ⟨inner, outer⟩, o⟩ = .failed (.symbol e) ⟨r, ⟨g, outer⟩, o⟩ := by
  induction params generalizing inner with
  | nil => cases h
  | cons p params ih =>
    simp only [paramEntries, List.map_cons, Scope.addAll] at h
    rw [defineParams_cons, bind_apply, define_apply]
    cases ha : inner.add (.global .ofMember p.name) (.parameter p.name p.type) with
    | error e' =>
      rw [ha] at h
      cases h
      exact ⟨inner, rfl⟩
    | ok g =>
      rw [ha] at h
      exact ih h

theorem inScope_apply (hdepth : c.depth + 1 ≤ o.maxDepth) (x : Reduction α) :
    inScope span x ⟨r, c, o⟩ = ensuring x pop ⟨r, c.enter {}, o⟩ := by
  have hlt : ¬o.maxDepth < c.depth + 1 := by omega
  simp only [inScope, push, checkDepth, bind_assoc, get_bind, hlt, if_false, pure_bind]
  rfl

theorem inScope_of_deep (hdepth : o.maxDepth < c.depth + 1) (x : Reduction α) :
    inScope span x ⟨r, c, o⟩ = .failed (.scopeTooDeep o.maxDepth span) ⟨r, c, o⟩ := by
  simp only [inScope, push, checkDepth, bind_assoc, get_bind, hdepth, if_true]
  rfl

theorem reduce_lambda : reduce fuel (.lambda params body span) = inScope span (do
    defineParams params
    return .unboundLambda params (← reduce fuel body)) := by
  rw [reduce, reduceBy]
  rfl

theorem pop_apply {s : Reducer} (h : s.scopes.leave? = some c) :
    pop s = .done () { s with scopes := c } := by
  simp only [pop, get_bind, h]
  rfl

theorem ensuring_pop_of_done {x : Reduction α} {s t : Reducer} {a : α} (hx : x s = .done a t)
    (ht : t.scopes.leave? = some c) : ensuring x pop s = .done a { t with scopes := c } := by
  simp only [ensuring, hx, bind_apply, pop_apply ht]
  rfl

theorem ensuring_pop_of_failed {x : Reduction α} {s t : Reducer} {e : CompileError}
    (hx : x s = .failed e t) (ht : t.scopes.leave? = some c) :
    ensuring x pop s = .failed e { t with scopes := c } := by
  simp only [ensuring, hx, bind_apply, pop_apply ht]
  rfl

theorem ensuring_of_exhausted {x : Reduction α} {s : Reducer} (hx : x s = .exhausted) :
    ensuring x pop s = .exhausted := by
  simp only [ensuring, hx]

theorem reduce_lambda_of_error (hdepth : c.depth + 1 ≤ o.maxDepth) {e : SymbolError}
    (h : ({} : Scope Definition).addAll (paramEntries params) = .error e) :
    reduce fuel (.lambda params body span) ⟨r, c, o⟩ = .failed (.symbol e) ⟨r, c, o⟩ := by
  rw [reduce_lambda, inScope_apply hdepth]
  obtain ⟨g, hg⟩ := @defineParams_of_error r o _ c.toList _ _ h
  have hbody : (do
      defineParams params
      return .unboundLambda params (← reduce fuel body) : Reduction Expr) ⟨r, c.enter {}, o⟩ =
      .failed (.symbol e) ⟨r, ⟨g, c.toList⟩, o⟩ := by
    rw [bind_apply]
    exact hg ▸ rfl
  exact ensuring_pop_of_failed hbody rfl

theorem reduce_lambda_of_ok (hdepth : c.depth + 1 ≤ o.maxDepth)
    (hf : ({} : Scope Definition).addAll (paramEntries params) = .ok f) :
    reduce fuel (.lambda params body span) ⟨r, c, o⟩ =
      ensuring (Expr.unboundLambda params <$> reduce fuel body) pop ⟨r, c.enter f, o⟩ := by
  have hbody : (do
      defineParams params
      return .unboundLambda params (← reduce fuel body) : Reduction Expr) ⟨r, c.enter {}, o⟩ =
      (Expr.unboundLambda params <$> reduce fuel body) ⟨r, c.enter f, o⟩ := by
    rw [bind_apply, ScopeChain.enter, defineParams_of_ok hf, bind_pure_comp]
    rfl
  rw [reduce_lambda, inScope_apply hdepth, ensuring, ensuring, hbody]

/-- Two lambdas with as many scopes around them end alike if their bodies do, each in the scope of
its own parameters. -/
theorem rel_lambda (hdepth : c.depth = c'.depth)
    (hf : ({} : Scope Definition).addAll (paramEntries params) = .ok f)
    (hf' : ({} : Scope Definition).addAll (paramEntries params') = .ok f')
    (hbody : Attempt.Rel (Beside (c.enter f) (c'.enter f')) R (reduce fuel body) (reduce fuel body'))
    {Q : Expr → Expr → Prop}
    (hQ : ∀ e e', R e e' → Q (.unboundLambda params e) (.unboundLambda params' e')) :
    Attempt.Rel (Beside c c') Q (reduce fuel (.lambda params body span))
      (reduce fuel (.lambda params' body' span)) := by
  refine rel_of_apply fun r o ↦ ?_
  by_cases hd : c.depth + 1 ≤ o.maxDepth
  · rw [reduce_lambda_of_ok hd hf, reduce_lambda_of_ok (hdepth ▸ hd) hf']
    have h := hbody ⟨r, c.enter f, o⟩ ⟨r, c'.enter f', o⟩ ⟨rfl, rfl, rfl, rfl⟩
    cases hx : reduce fuel body ⟨r, c.enter f, o⟩ <;>
      cases hy : reduce fuel body' ⟨r, c'.enter f', o⟩ <;> rw [hx, hy] at h <;> cases h
    · rename_i hv hs
      rw [ensuring_pop_of_done (map_eq_done_iff.2 ⟨_, hx, rfl⟩) (by rw [hs.left]; rfl),
        ensuring_pop_of_done (map_eq_done_iff.2 ⟨_, hy, rfl⟩) (by rw [hs.right]; rfl)]
      exact .done (hQ _ _ hv) ⟨hs.types, hs.options, rfl, rfl⟩
    · rename_i hs
      rw [ensuring_pop_of_failed (by rw [map_apply, hx]) (by rw [hs.left]; rfl),
        ensuring_pop_of_failed (by rw [map_apply, hy]) (by rw [hs.right]; rfl)]
      exact .failed _ ⟨hs.types, hs.options, rfl, rfl⟩
    · rw [ensuring_of_exhausted (by rw [map_apply, hx]), ensuring_of_exhausted (by rw [map_apply, hy])]
      exact .exhausted
  · rw [reduce_lambda, reduce_lambda, inScope_of_deep (by omega), inScope_of_deep (by omega)]
    exact .failed _ ⟨rfl, rfl, rfl, rfl⟩

theorem rel_lambda_of_error {Q : Expr → Expr → Prop} (hdepth : c.depth = c'.depth) {e : SymbolError}
    (h : ({} : Scope Definition).addAll (paramEntries params) = .error e) :
    Attempt.Rel (Beside c c') Q (reduce fuel (.lambda params body span))
      (reduce fuel (.lambda params body' span)) := by
  refine rel_of_apply fun r o ↦ ?_
  by_cases hd : c.depth + 1 ≤ o.maxDepth
  · rw [reduce_lambda_of_error hd h, reduce_lambda_of_error (hdepth ▸ hd) h]
    exact .failed _ ⟨rfl, rfl, rfl, rfl⟩
  · rw [reduce_lambda, reduce_lambda, inScope_of_deep (by omega), inScope_of_deep (by omega)]
    exact .failed _ ⟨rfl, rfl, rfl, rfl⟩

theorem filter_paramEntries (q : SymbolKey) :
    (paramEntries params).filter (Scope.serves q) =
      if CallKind.ofMember.covers q.kind then paramEntries (params.filter (·.name == q.name))
      else [] := by
  unfold paramEntries
  rw [List.filter_map]
  by_cases hkind : CallKind.ofMember.covers q.kind = true
  · rw [if_pos hkind]
    congr 2
    funext p
    simp [Scope.serves, SymbolKey.global, hkind]
  · rw [if_neg hkind, List.map_eq_nil_iff, List.filter_eq_nil_iff]
    intro p _
    simp [Scope.serves, SymbolKey.global, hkind]

theorem mem_paramEntries {e : SymbolKey × Definition} :
    e ∈ paramEntries params ↔
      ∃ p ∈ params, (.global .ofMember p.name, .parameter p.name p.type) = e :=
  List.mem_map

theorem find?_missing_of_params (hf : f.entries = paramEntries params) :
    f.find? .missing = none := by
  unfold Scope.find?
  rw [hf, Option.map_eq_none_iff, List.find?_eq_none]
  intro e he
  obtain ⟨p, -, rfl⟩ := mem_paramEntries.1 he
  simp [SymbolKey.agrees, SymbolKey.canonical, SymbolKey.global, SymbolKey.missing,
    CallKind.target, CallKind.ofMember, CallKind.unknown]

/-- Within scopes that serve the query alike, the chains around them are asked only what the scopes
have no answer to. -/
theorem AnswersAlike.enter {q : SymbolKey}
    (hsame : f.entries.filter (Scope.serves q) = f'.entries.filter (Scope.serves q))
    (hstock : ∀ e ∈ f.entries, Scope.serves q e = true → e.2.StockFor R)
    (hpast : ∀ r fuel, f.closestMatch r fuel q = some none → AnswersAlike R c c' q) :
    AnswersAlike R (c.enter f) (c'.enter f') q := by
  constructor
  · intro r fuel
    rw [ScopeChain.closestMatch_enter, ScopeChain.closestMatch_enter,
      ← Scope.closestMatch_congr hsame]
    cases hfound : f.closestMatch r fuel q with
    | none => rfl
    | some found =>
      cases found with
      | none => exact (hpast r fuel hfound).same r fuel
      | some e => rfl
  · intro r fuel k d hmatch
    rw [ScopeChain.closestMatch_enter] at hmatch
    obtain ⟨found, hfound, hmatch⟩ := Option.bind_eq_some_iff.1 hmatch
    cases found with
    | none => exact (hpast r fuel hfound).stock r fuel k d hmatch
    | some e =>
      cases hmatch
      obtain ⟨hmem, hserves⟩ := Scope.mem_of_closestMatch hfound
      exact hstock _ hmem hserves

/-- Chains that agree on the uses `V` agree on the uses `W` within scopes for parameters, if these
are the same for `W` and hide what `V` does not allow. -/
theorem Agree.enter {V W : CallKind → String → Prop} (h : Agree R V c c')
    (hf : f.entries = paramEntries params) (hf' : f'.entries = paramEntries params')
    (hW : ∀ kind name, W kind name →
      V kind name ∨ CallKind.ofMember.covers kind = true ∧ name ∈ params.map Param.name)
    (hsame : ∀ kind name, W kind name → CallKind.ofMember.covers kind = true →
      params.filter (·.name == name) = params'.filter (·.name == name))
    (hparam : ∀ kind, ∀ p ∈ params, W kind p.name → CallKind.ofMember.covers kind = true →
      R (.parameter p.name p.type) (.parameter p.name p.type)) :
    Agree R W (c.enter f) (c'.enter f') := by
  refine ⟨congrArg (· + 1) h.depth, fun q hq ↦ AnswersAlike.enter ?_ ?_ ?_, ?_, ?_⟩
  · rw [hf, hf', filter_paramEntries, filter_paramEntries]
    by_cases hkind : CallKind.ofMember.covers q.kind = true
    · rw [if_pos hkind, if_pos hkind, hsame _ _ hq hkind]
    · rw [if_neg hkind, if_neg hkind]
  · intro e he hserves
    obtain ⟨p, hp, rfl⟩ := mem_paramEntries.1 (hf ▸ he)
    obtain ⟨hname : p.name = q.name, hkind⟩ := Scope.serves_iff.1 hserves
    refine ⟨rfl, fun e he ↦ ?_⟩
    cases he
    exact hparam q.kind p hp (hname.symm ▸ hq) hkind
  · intro r fuel hnone
    refine h.answers q ((hW _ _ hq).resolve_right ?_)
    rintro ⟨hkind, hname⟩
    obtain ⟨p, hp, hpname⟩ := List.mem_map.1 hname
    exact Scope.closestMatch_ne_none (hf ▸ mem_paramEntries.2 ⟨p, hp, rfl⟩)
      (Scope.serves_iff.2 ⟨hpname, hkind⟩) rfl hnone
  · rw [ScopeChain.find?_enter, ScopeChain.find?_enter, find?_missing_of_params hf,
      find?_missing_of_params hf', Option.none_or, Option.none_or, h.missing]
  · intro d hd
    rw [ScopeChain.find?_enter, find?_missing_of_params hf, Option.none_or] at hd
    exact h.missing_stock d hd

end Lambda

theorem rel_call (hR : Expr.Congruence R) {V : CallKind → String → Prop} (hc : Agree R V c c')
    {kind : CallKind} {name : String} (hV : V kind name) (typeArgs : List TypeId)
    {receiver receiver' : Option Node} {args args' : List Node} (span : Span)
    (hreceiver : Attempt.Rel (Beside c c') (Option.Rel R) (reduceReceiver fuel receiver)
      (reduceReceiver fuel receiver'))
    (hargs : List.Forall₂ (Attempt.Rel (Beside c c') R) (delay fuel args) (delay fuel args')) :
    Attempt.Rel (Beside c c') R (reduce fuel (.call kind name typeArgs receiver args span))
      (reduce fuel (.call kind name typeArgs receiver' args' span)) := by
  rw [reduce_call, reduce_call]
  exact hreceiver.bind fun _ _ h ↦ rel_resolve hR hc ⟨rfl, rfl, rfl, rfl, h, hargs⟩ hV

theorem rel_symbol (hR : Expr.Congruence R) {V : CallKind → String → Prop} (hc : Agree R V c c')
    {name : String} (hV : V .ofMember name) (span : Span) :
    Attempt.Rel (Beside c c') R (reduce fuel (.symbol name span))
      (reduce fuel (.symbol name span)) := by
  rw [reduce_symbol]
  exact rel_resolve hR hc ⟨rfl, rfl, rfl, rfl, .none, .nil⟩ hV

variable {y : String}

abbrev AgreeBut (y : String) (c c' : ScopeChain Definition) : Prop :=
  Agree Eq (fun _ name ↦ name ≠ y) c c'

mutual

theorem rel_reduce_of_not_mentions {c c' : ScopeChain Definition} (hc : AgreeBut y c c') :
    (node : Node) → node.mentions y = false →
      Attempt.Rel (Beside c c') Eq (reduce fuel node) (reduce fuel node)
  | .literal value span, _ => by
    rw [reduce_literal]
    exact .pure rfl
  | .symbol name span, h => by
    have hname : name ≠ y := by simpa [Node.mentions] using h
    exact rel_symbol Expr.congruence_eq hc hname span
  | .call kind name typeArgs receiver args span, h => by
    simp only [Node.mentions, Bool.or_eq_false_iff, beq_eq_false_iff_ne] at h
    exact rel_call Expr.congruence_eq hc h.1.1 typeArgs span
      (rel_reduceReceiver_of_not_mentions hc receiver h.1.2) (rel_delay_of_not_mentions hc args h.2)
  | .lambda params body span, h => by
    simp only [Node.mentions, Bool.or_eq_false_iff] at h
    cases hf : ({} : Scope Definition).addAll (paramEntries params) with
    | error e => exact rel_lambda_of_error hc.depth hf
    | ok f =>
      have hentries : f.entries = paramEntries params := Scope.entries_of_addAll hf
      have hinner : AgreeBut y (c.enter f) (c'.enter f) :=
        hc.enter hentries hentries (fun _ _ ↦ .inl) (fun _ _ _ _ ↦ rfl) fun _ _ _ _ _ ↦ rfl
      exact rel_lambda hc.depth hf hf (rel_reduce_of_not_mentions hinner body h.2)
        fun _ _ ↦ congrArg (Expr.unboundLambda params)

theorem rel_reduceReceiver_of_not_mentions {c c' : ScopeChain Definition} (hc : AgreeBut y c c') :
    (receiver : Option Node) → Node.receiverMentions y receiver = false →
      Attempt.Rel (Beside c c') (Option.Rel Eq) (reduceReceiver fuel receiver)
        (reduceReceiver fuel receiver)
  | none, _ => .pure .none
  | some node, h => by
    rw [reduceReceiver_some]
    exact (rel_reduce_of_not_mentions hc node h).bind fun _ _ h ↦ .pure (.some h)

theorem rel_delay_of_not_mentions {c c' : ScopeChain Definition} (hc : AgreeBut y c c') :
    (args : List Node) → Node.someMentions y args = false →
      List.Forall₂ (Attempt.Rel (Beside c c') Eq) (delay fuel args) (delay fuel args)
  | [], _ => .nil
  | node :: nodes, h => by
    simp only [Node.someMentions, Bool.or_eq_false_iff] at h
    exact .cons (rel_reduce_of_not_mentions hc node h.1) (rel_delay_of_not_mentions hc nodes h.2)

end

end Reduction

end CallResolution
