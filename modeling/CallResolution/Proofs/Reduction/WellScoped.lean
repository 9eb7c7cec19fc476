import CallResolution.Environment
import CallResolution.Proofs.Reduction.Renaming
import CallResolution.Proofs.Reduction.Restoration

namespace CallResolution

open Attempt

def declares (name : String) (params : List Param) : Bool := params.any (·.name == name)

/-- One of the lambdas declares the name of the parameter. -/
def isDeclared (around : List (List Param)) (p : Param) : Bool := around.any (declares p.name)

/-- The nearest lambda that declares the name of the parameter gives it its type. -/
def isTyped (around : List (List Param)) (p : Param) : Bool :=
  (around.find? (declares p.name)).any fun params ↦ p ∈ params

/-- A check of parameters against the lambdas around them. It does not mind more lambdas around those,
and what a name means passes. -/
structure IsScoping (check : List (List Param) → Param → Bool) : Prop where
  weaken : ∀ {inner p} outer, check inner p = true → check (inner ++ outer) p = true
  bound : ∀ {around name p}, bound? around name = some p → check around p = true

theorem bound?_cons (params : List Param) (around : List (List Param)) (name : String) :
    bound? (params :: around) name = (params.find? (·.name == name)).or (bound? around name) := by
  rw [bound?, List.findSome?_cons]
  cases params.find? (·.name == name) <;> rfl

theorem name_of_bound? {around : List (List Param)} {name : String} {p : Param}
    (h : bound? around name = some p) : p.name = name := by
  obtain ⟨params, -, hp⟩ := List.exists_of_findSome?_eq_some h
  simpa using List.find?_some hp

theorem isScoping_isDeclared : IsScoping isDeclared where
  weaken outer h := by
    rw [isDeclared, List.any_append, Bool.or_eq_true_iff]
    exact .inl h
  bound {around name p} h := by
    obtain ⟨params, hparams, hp⟩ := List.exists_of_findSome?_eq_some h
    have hmem := List.mem_of_find?_eq_some hp
    exact List.any_eq_true.2 ⟨params, hparams, List.any_eq_true.2 ⟨p, hmem, beq_self_eq_true _⟩⟩

theorem isScoping_isTyped : IsScoping isTyped where
  weaken {inner p} outer h := by
    obtain ⟨params, hparams, hp⟩ := (Option.any_eq_true _ _).1 h
    rw [isTyped, List.find?_append, hparams]
    exact hp
  bound {around name p} h := by
    have hname := name_of_bound? h
    induction around with
    | nil => cases h
    | cons params around ih =>
      rw [bound?_cons] at h
      rw [isTyped, List.find?_cons, hname]
      cases hfind : params.find? (·.name == name) with
      | none =>
        have hdeclares : declares name params = false := by
          rw [declares, List.any_eq_false]
          exact List.find?_eq_none.1 hfind
        rw [hfind] at h
        have htyped := ih h
        rw [isTyped, hname] at htyped
        simpa only [hdeclares] using htyped
      | some q =>
        rw [hfind] at h
        cases h
        have hmem := List.mem_of_find?_eq_some hfind
        have hdeclares : declares name params = true :=
          List.any_eq_true.2 ⟨p, hmem, by simpa using hname⟩
        simp [hdeclares, hmem]

namespace Expr

mutual

/-- Every parameter in the expression passes the check. -/
def isScoped (check : List (List Param) → Param → Bool) (around : List (List Param)) : Expr → Bool
  | .constant _ _ | .typeRef _ _ => true
  | .parameter name t => check around ⟨name, t⟩
  | .call receiver _ args _ | .member receiver _ args _ =>
    receiverScoped check around receiver && allScoped check around args
  | .new _ args _ | .newArray _ args _ => allScoped check around args
  | .convert e _ => e.isScoped check around
  | .lambda params body _ => body.isScoped check (params :: around)

def receiverScoped (check : List (List Param) → Param → Bool) (around : List (List Param)) :
    Option Expr → Bool
  | none => true
  | some e => e.isScoped check around

def allScoped (check : List (List Param) → Param → Bool) (around : List (List Param)) :
    List Expr → Bool
  | [] => true
  | e :: es => e.isScoped check around && allScoped check around es

end

variable {check : List (List Param) → Param → Bool} {around : List (List Param)}

mutual

theorem isScoped_weaken (hcheck : IsScoping check) (outer : List (List Param)) :
    (e : Expr) → {inner : List (List Param)} → e.isScoped check inner = true →
      e.isScoped check (inner ++ outer) = true
  | .constant _ _, _, _ | .typeRef _ _, _, _ => rfl
  | .parameter _ _, _, h => hcheck.weaken outer h
  | .call receiver _ args _, _, h | .member receiver _ args _, _, h => by
    rw [isScoped, Bool.and_eq_true_iff] at h ⊢
    exact ⟨receiverScoped_weaken hcheck outer receiver h.1, allScoped_weaken hcheck outer args h.2⟩
  | .new _ args _, _, h | .newArray _ args _, _, h => allScoped_weaken hcheck outer args h
  | .convert e _, _, h => isScoped_weaken hcheck outer e h
  | .lambda params body _, inner, h => by
    have hbody : body.isScoped check (params :: inner) = true := h
    exact isScoped_weaken hcheck outer body hbody

theorem receiverScoped_weaken (hcheck : IsScoping check) (outer : List (List Param)) :
    (receiver : Option Expr) → {inner : List (List Param)} →
      receiverScoped check inner receiver = true →
      receiverScoped check (inner ++ outer) receiver = true
  | none, _, _ => rfl
  | some e, _, h => isScoped_weaken hcheck outer e h

theorem allScoped_weaken (hcheck : IsScoping check) (outer : List (List Param)) :
    (es : List Expr) → {inner : List (List Param)} → allScoped check inner es = true →
      allScoped check (inner ++ outer) es = true
  | [], _, _ => rfl
  | e :: es, _, h => by
    rw [allScoped, Bool.and_eq_true_iff] at h ⊢
    exact ⟨isScoped_weaken hcheck outer e h.1, allScoped_weaken hcheck outer es h.2⟩

end

/-- The same expression, with all its parameters in scope. -/
def ScopedSame (check : List (List Param) → Param → Bool) (around : List (List Param)) (a b : Expr) :
    Prop := a = b ∧ a.isScoped check around = true

theorem eq_of_scopedSame {as bs : List Expr} (h : List.Forall₂ (ScopedSame check around) as bs) :
    as = bs ∧ allScoped check around as = true := by
  induction h with
  | nil => exact ⟨rfl, rfl⟩
  | cons hab _ ih =>
    obtain ⟨rfl, ha⟩ := hab
    obtain ⟨rfl, has⟩ := ih
    exact ⟨rfl, by rw [allScoped, ha, has]; rfl⟩

theorem eq_of_receiverSame {on on' : Option Expr} (h : Option.Rel (ScopedSame check around) on on') :
    on = on' ∧ receiverScoped check around on = true := by
  cases h with
  | none => exact ⟨rfl, rfl⟩
  | some hab => exact ⟨congrArg some hab.1, hab.2⟩

theorem congruence_scopedSame : Congruence (ScopedSame check around) where
  shape h := by rw [h.1]
  constant _ _ := ⟨rfl, rfl⟩
  typeRef _ _ := ⟨rfl, rfl⟩
  bindLambda {a b} t h := by
    obtain ⟨rfl, ha⟩ := h
    refine ⟨rfl, ?_⟩
    cases a <;> exact ha
  convert _ h := ⟨by rw [h.1], h.2⟩
  newArray _ _ h := ⟨by rw [(eq_of_scopedSame h).1], (eq_of_scopedSame h).2⟩
  call _ _ hon hargs := by
    obtain ⟨rfl, hreceiver⟩ := eq_of_receiverSame hon
    obtain ⟨rfl, hall⟩ := eq_of_scopedSame hargs
    exact ⟨rfl, by rw [isScoped, hreceiver, hall]; rfl⟩
  new _ _ h := ⟨by rw [(eq_of_scopedSame h).1], (eq_of_scopedSame h).2⟩
  member _ _ hon hargs := by
    obtain ⟨rfl, hreceiver⟩ := eq_of_receiverSame hon
    obtain ⟨rfl, hall⟩ := eq_of_scopedSame hargs
    exact ⟨rfl, by rw [isScoped, hreceiver, hall]; rfl⟩

end Expr

/-- The rule is a stock one, and the parameters in a constant pass the check. -/
def Rule.isScoped (check : List (List Param) → Param → Bool) : Rule → Bool
  | constant e => e.isScoped check []
  | rule => rule.isStock

theorem Definition.stockFor_scopedSame {check : List (List Param) → Param → Bool}
    (hcheck : IsScoping check) {d : Definition} (h : d.rule.isScoped check = true)
    (around : List (List Param)) : d.StockFor (Expr.ScopedSame check around) := by
  cases hrule : d.rule with
  | constant e =>
    rw [hrule] at h
    refine ⟨by rw [hrule]; rfl, fun a ha ↦ ?_⟩
    cases hrule.symm.trans ha
    exact ⟨rfl, Expr.isScoped_weaken hcheck around e h⟩
  | _ =>
    rw [hrule] at h
    refine ⟨by rw [hrule]; exact h, fun a ha ↦ ?_⟩
    cases hrule.symm.trans ha

namespace Reduction

open CallResolution.Expr

variable {check : List (List Param) → Param → Bool} {around : List (List Param)}
  {root c : ScopeChain Definition} {fuel : Nat}

/-- The chain is `root` with a scope for the parameters of each lambda. -/
inductive Nested (root : ScopeChain Definition) :
    List (List Param) → ScopeChain Definition → Prop
  | root : Nested root [] root
  | enter {around : List (List Param)} {c : ScopeChain Definition} {params : List Param}
      {f : Scope Definition} : Nested root around c → f.entries = paramEntries params →
      Nested root (params :: around) (c.enter f)

namespace Nested

theorem binds (h : Nested root around c) {x : String} {p : Param} (hp : bound? around x = some p) :
    Binds c x p.type := by
  induction h with
  | root => cases hp
  | @enter around c params f _ hf ih =>
    rw [bound?_cons] at hp
    cases hfind : params.find? (·.name == x) with
    | some p' =>
      rw [hfind] at hp
      cases hp
      exact binds_enter_of_find? hf hfind
    | none =>
      rw [hfind, Option.none_or] at hp
      refine (ih hp).enter hf fun hx ↦ ?_
      obtain ⟨p', hp', hname⟩ := List.mem_map.1 hx
      exact List.find?_eq_none.1 hfind p' hp' (by simpa using hname)

/-- What no lambda binds means what it means in the root. -/
theorem closestMatch_root (h : Nested root around c) {q : SymbolKey}
    (hq : CallKind.ofMember.covers q.kind = true → bound? around q.name = none) {r : Registry}
    {found : Option (SymbolKey × Definition)} (hc : c.closestMatch r fuel q = some found) :
    root.closestMatch r fuel q = some found := by
  induction h with
  | root => exact hc
  | @enter around c params f _ hf ih =>
    rw [ScopeChain.closestMatch_enter] at hc
    obtain ⟨inner, hinner, hc⟩ := Option.bind_eq_some_iff.1 hc
    cases inner with
    | none =>
      refine ih (fun hkind ↦ ?_) hc
      exact (Option.or_eq_none_iff.1 (bound?_cons params around q.name ▸ hq hkind)).2
    | some e =>
      obtain ⟨he, hserves⟩ := Scope.mem_of_closestMatch hinner
      obtain ⟨p, hp, rfl⟩ := mem_paramEntries.1 (hf ▸ he)
      obtain ⟨hname : p.name = q.name, hkind⟩ := Scope.serves_iff.1 hserves
      have hnone := (Option.or_eq_none_iff.1 (bound?_cons params around q.name ▸ hq hkind)).1
      exact absurd (by simpa using hname) (List.find?_eq_none.1 hnone p hp)

theorem find?_missing (h : Nested root around c) : c.find? .missing = root.find? .missing := by
  induction h with
  | root => rfl
  | enter _ hf ih =>
    rw [ScopeChain.find?_enter, find?_missing_of_params hf, Option.none_or, ih]

end Nested

def IsScoped (check : List (List Param) → Param → Bool) (c : ScopeChain Definition) : Prop :=
  ∀ s ∈ c.toList, ∀ e ∈ s.entries, e.2.rule.isScoped check = true

theorem agree_nested (hcheck : IsScoping check) (hroot : IsScoped check root)
    (h : Nested root around c) : Agree (ScopedSame check around) (fun _ _ ↦ True) c c := by
  have hstock {s : Scope Definition} (hs : s ∈ root.toList) {k : SymbolKey} {d : Definition}
      (he : (k, d) ∈ s.entries) : d.StockFor (ScopedSame check around) :=
    Definition.stockFor_scopedSame hcheck (hroot s hs _ he) around
  refine ⟨rfl, fun q _ ↦ ⟨fun _ _ ↦ rfl, fun r fuel k d hd ↦ ?_⟩, rfl, fun d hd ↦ ?_⟩
  · by_cases hkind : CallKind.ofMember.covers q.kind = true
    · cases hbound : bound? around q.name with
      | none =>
        obtain ⟨s, hs, he, -⟩ :=
          ScopeChain.mem_of_closestMatch (h.closestMatch_root (fun _ ↦ hbound) hd)
        exact hstock hs he
      | some p =>
        rw [h.binds hbound q.kind q.receiver r fuel hkind] at hd
        obtain ⟨-, -, hd⟩ := Option.map_eq_some_iff.1 hd
        cases hd
        refine ⟨rfl, fun e he ↦ ?_⟩
        cases he
        refine ⟨rfl, ?_⟩
        rw [← name_of_bound? hbound]
        exact hcheck.bound hbound
    · obtain ⟨s, hs, he, -⟩ :=
        ScopeChain.mem_of_closestMatch (h.closestMatch_root (fun hk ↦ absurd hk hkind) hd)
      exact hstock hs he
  · rw [h.find?_missing] at hd
    obtain ⟨s, hs, k, he, -⟩ := ScopeChain.mem_of_find? hd
    exact hstock hs he

mutual

theorem rel_reduce_scoped (hcheck : IsScoping check) (hroot : IsScoped check root)
    {around : List (List Param)} {c : ScopeChain Definition} (h : Nested root around c) :
    (node : Node) →
      Attempt.Rel (Beside c c) (ScopedSame check around) (reduce fuel node) (reduce fuel node)
  | .literal value span => by
    rw [reduce_literal]
    exact .pure ⟨rfl, rfl⟩
  | .symbol name span => rel_symbol congruence_scopedSame (agree_nested hcheck hroot h) trivial span
  | .call kind name typeArgs receiver args span =>
    rel_call congruence_scopedSame (agree_nested hcheck hroot h) trivial typeArgs span
      (rel_reduceReceiver_scoped hcheck hroot h receiver) (rel_delay_scoped hcheck hroot h args)
  | .lambda params body span => by
    cases hf : ({} : Scope Definition).addAll (paramEntries params) with
    | error e => exact rel_lambda_of_error rfl hf
    | ok f =>
      have hinner : Nested root (params :: around) (c.enter f) := h.enter (Scope.entries_of_addAll hf)
      exact rel_lambda rfl hf hf (rel_reduce_scoped hcheck hroot hinner body)
        fun _ _ he ↦ ⟨congrArg (unboundLambda params) he.1, he.2⟩

theorem rel_reduceReceiver_scoped (hcheck : IsScoping check) (hroot : IsScoped check root)
    {around : List (List Param)} {c : ScopeChain Definition} (h : Nested root around c) :
    (receiver : Option Node) → Attempt.Rel (Beside c c) (Option.Rel (ScopedSame check around))
      (reduceReceiver fuel receiver) (reduceReceiver fuel receiver)
  | none => .pure .none
  | some node => by
    rw [reduceReceiver_some]
    exact (rel_reduce_scoped hcheck hroot h node).bind fun _ _ he ↦ .pure (.some he)

theorem rel_delay_scoped (hcheck : IsScoping check) (hroot : IsScoped check root)
    {around : List (List Param)} {c : ScopeChain Definition} (h : Nested root around c) :
    (nodes : List Node) → List.Forall₂ (Attempt.Rel (Beside c c) (ScopedSame check around))
      (delay fuel nodes) (delay fuel nodes)
  | [] => .nil
  | node :: nodes => .cons (rel_reduce_scoped hcheck hroot h node) (rel_delay_scoped hcheck hroot h nodes)

end

/-- The lambda whose body `x` gives in a scope for its parameters. -/
def lambdaOf (span : Span) (params : List Param) (x : Reduction Expr) : Reduction Expr :=
  inScope span do
    defineParams params
    return .unboundLambda params (← x)

/-- Symbols that the lambdas declare are taken for their parameters. -/
abbrev Reading.inside (around : List (List Param)) : Reading := { around := some around }

/-- The reduction of a form within lambdas in which a symbol that one of them declares is taken for
its parameter, without a look at the scopes. -/
def reduceWithin (fuel : Nat) (around : List (List Param)) (node : Node) : Reduction Expr :=
  reduceBy (.inside around) fuel node

theorem reduceWithin_symbol_of_bound {name : String} {p : Param} (h : bound? around name = some p)
    (span : Span) : reduceWithin fuel around (.symbol name span) = return .parameter p.name p.type := by
  have hparam : (Reading.inside around).param? name = some p := h
  rw [reduceWithin, reduceBy, hparam]

theorem reduceWithin_symbol_of_free {name : String} (h : bound? around name = none) (span : Span) :
    reduceWithin fuel around (.symbol name span) = reduce fuel (.symbol name span) := by
  have hparam : (Reading.inside around).param? name = none := h
  rw [reduceWithin, reduceBy, hparam, reduce_symbol]
  rfl

theorem reduceWithin_lambda (params : List Param) (body : Node) (span : Span) :
    reduceWithin fuel around (.lambda params body span) =
      lambdaOf span params (reduceWithin fuel (params :: around) body) := by
  rw [reduceWithin, reduceBy]
  rfl

theorem rel_of_restores {x y : Reduction Expr} (hx : Along Restores x)
    (h : ∀ r o, x ⟨r, c, o⟩ = y ⟨r, c, o⟩) : Attempt.Rel (Beside c c) Eq x y := by
  refine rel_of_apply fun r o ↦ ?_
  have hstate := hx ⟨r, c, o⟩
  rw [← h r o]
  cases hrun : x ⟨r, c, o⟩ with
  | done e t =>
    have ht := (hstate t (by rw [hrun]; rfl)).scopes
    exact .done rfl ⟨rfl, rfl, ht, ht⟩
  | failed e t =>
    have ht := (hstate t (by rw [hrun]; rfl)).scopes
    exact .failed e ⟨rfl, rfl, ht, ht⟩
  | exhausted => exact .exhausted

theorem eq_of_rel {x y : Reduction Expr} (h : Attempt.Rel (Beside c c) Eq x y) (r : Registry)
    (o : Options) : x ⟨r, c, o⟩ = y ⟨r, c, o⟩ := by
  have h := h ⟨r, c, o⟩ ⟨r, c, o⟩ ⟨rfl, rfl, rfl, rfl⟩
  cases hx : x ⟨r, c, o⟩ <;> cases hy : y ⟨r, c, o⟩ <;> rw [hx, hy] at h <;> cases h
  · rename_i hv hs
    rw [hv, hs.eq]
  · rename_i hs
    rw [hs.eq]

theorem lambdaOf_congr {x y : Reduction Expr} {params : List Param} (span : Span)
    (h : ∀ f, ({} : Scope Definition).addAll (paramEntries params) = .ok f →
      ∀ r o, x ⟨r, c.enter f, o⟩ = y ⟨r, c.enter f, o⟩) (r : Registry) (o : Options) :
    lambdaOf span params x ⟨r, c, o⟩ = lambdaOf span params y ⟨r, c, o⟩ := by
  unfold lambdaOf
  by_cases hdepth : c.depth + 1 ≤ o.maxDepth
  · rw [inScope_apply hdepth, inScope_apply hdepth, ensuring, ensuring, bind_apply, bind_apply]
    cases hf : ({} : Scope Definition).addAll (paramEntries params) with
    | error e =>
      obtain ⟨g, hg⟩ := @defineParams_of_error r o _ c.toList _ _ hf
      have hg : defineParams params ⟨r, c.enter {}, o⟩ = _ := hg
      rw [hg]
    | ok f =>
      have hg : defineParams params ⟨r, c.enter {}, o⟩ = .done () ⟨r, c.enter f, o⟩ :=
        defineParams_of_ok hf
      rw [hg]
      dsimp only
      rw [bind_apply, bind_apply, h f hf r o]
  · rw [inScope_of_deep (by omega), inScope_of_deep (by omega)]

mutual

theorem rel_reduceWithin (hcheck : IsScoping check) (hroot : IsScoped check root)
    {around : List (List Param)} {c : ScopeChain Definition} (h : Nested root around c) :
    (node : Node) → Attempt.Rel (Beside c c) Eq (reduce fuel node) (reduceWithin fuel around node)
  | .literal value span => by
    rw [reduce_literal, reduceWithin, reduceBy]
    exact .pure rfl
  | .symbol name span => by
    cases hbound : bound? around name with
    | none =>
      rw [reduceWithin_symbol_of_free hbound]
      exact rel_symbol congruence_eq (agree_nested hcheck hroot h).toEq trivial span
    | some p =>
      rw [reduceWithin_symbol_of_bound hbound]
      obtain rfl := name_of_bound? hbound
      refine rel_of_apply fun r o ↦ ?_
      rw [reduce_symbol, resolve_of_closestMatch (h.binds hbound .ofMember none r fuel rfl)]
      exact .done rfl ⟨rfl, rfl, rfl, rfl⟩
  | .call kind name typeArgs receiver args span => by
    rw [reduce_call, reduceWithin, reduceBy]
    have hagree := (agree_nested hcheck hroot h).toEq
    refine (rel_receiver_inside hcheck hroot h receiver).bind fun _ _ hon ↦ ?_
    exact rel_resolve congruence_eq hagree
      ⟨rfl, rfl, rfl, rfl, hon, rel_delay_inside hcheck hroot h args⟩ trivial
  | .lambda params body span => by
    refine rel_of_restores (restores_reduce fuel _) fun r o ↦ ?_
    rw [reduce_lambda, reduceWithin_lambda]
    refine lambdaOf_congr span (fun f hf r o ↦ ?_) r o
    exact eq_of_rel (rel_reduceWithin hcheck hroot (h.enter (Scope.entries_of_addAll hf)) body) r o

theorem rel_receiver_inside (hcheck : IsScoping check) (hroot : IsScoped check root)
    {around : List (List Param)} {c : ScopeChain Definition} (h : Nested root around c) :
    (receiver : Option Node) → Attempt.Rel (Beside c c) (Option.Rel Eq)
      (reduceReceiver fuel receiver) (receiverBy (.inside around) fuel receiver)
  | none => .pure .none
  | some node => by
    rw [reduceReceiver_some, receiverBy]
    exact (rel_reduceWithin hcheck hroot h node).bind fun _ _ he ↦ .pure (.some he)

theorem rel_delay_inside (hcheck : IsScoping check) (hroot : IsScoped check root)
    {around : List (List Param)} {c : ScopeChain Definition} (h : Nested root around c) :
    (nodes : List Node) →
      List.Forall₂ (Attempt.Rel (Beside c c) Eq) (delay fuel nodes) (delayBy (.inside around) fuel nodes)
  | [] => .nil
  | node :: nodes => .cons (rel_reduceWithin hcheck hroot h node) (rel_delay_inside hcheck hroot h nodes)

end

end Reduction

namespace Environment

open CallResolution.Expr Reduction

theorem reduceWith_apply {α : Type} {env : Environment} {root : Scope Definition}
    (h : env.root = some root) (x : Reduction α) :
    reduceWith x env = match x ⟨env.types, ⟨root, []⟩, env.options⟩ with
      | .done a s => .done a { env with types := s.types }
      | .failed e s => .failed (.compilation e) { env with types := s.types }
      | .exhausted => .exhausted := by
  rw [reduceWith, get_bind]
  simp only [h, mapError, within]
  cases x ⟨env.types, ⟨root, []⟩, env.options⟩ <;> rfl

theorem isScoped_root {check : List (List Param) → Param → Bool} {root : Scope Definition}
    (h : ∀ e ∈ root.entries, e.2.rule.isScoped check = true) : IsScoped check ⟨root, []⟩ := by
  intro s hs
  obtain rfl := List.mem_singleton.1 hs
  exact h

theorem isScoped_of_compile {check : List (List Param) → Param → Bool} (hcheck : IsScoping check)
    {env env' : Environment} {root : Scope Definition} (hroot : env.root = some root)
    (hscoped : ∀ e ∈ root.entries, e.2.rule.isScoped check = true) {fuel : Nat} {node : Node}
    {e : Expr} (h : compile fuel node env = .done e env') : e.isScoped check [] = true := by
  rw [compile, reduceWith_apply hroot] at h
  have hrel : Outcome.Rel (Beside ⟨root, []⟩ ⟨root, []⟩) (ScopedSame check [])
      (reduce fuel node ⟨env.types, ⟨root, []⟩, env.options⟩)
      (reduce fuel node ⟨env.types, ⟨root, []⟩, env.options⟩) :=
    rel_reduce_scoped hcheck (isScoped_root hscoped) .root node _ _ ⟨rfl, rfl, rfl, rfl⟩
  cases hrun : reduce fuel node ⟨env.types, ⟨root, []⟩, env.options⟩ with
  | done a s =>
    rw [hrun] at h hrel
    cases h
    cases hrel with
    | done hsame _ => exact hsame.2
  | failed err s =>
    rw [hrun] at h
    cases h
  | exhausted =>
    rw [hrun] at h
    cases h

/-- To compile a form is to take each symbol that a lambda around it declares for the parameter of the
nearest one, whatever the root says about it. If no constant of the root has a parameter free in it,
the result has none; and if each parameter in them has the type that the nearest lambda declares, so has
each in the result. -/
theorem compile_wellScoped {env : Environment} {root : Scope Definition} (hroot : env.root = some root)
    (hdeclared : ∀ e ∈ root.entries, e.2.rule.isScoped isDeclared = true) (fuel : Nat) (node : Node) :
    compile fuel node env = reduceWith (reduceWithin fuel [] node) env ∧
      ∀ e env', compile fuel node env = .done e env' →
        e.isScoped isDeclared [] = true ∧
          ((∀ e ∈ root.entries, e.2.rule.isScoped isTyped = true) → e.isScoped isTyped [] = true) := by
  constructor
  · rw [compile, reduceWith_apply hroot, reduceWith_apply hroot,
      eq_of_rel (rel_reduceWithin isScoping_isDeclared (isScoped_root hdeclared) .root node)]
  · intro e env' he
    exact ⟨isScoped_of_compile isScoping_isDeclared hroot hdeclared he,
      fun htyped ↦ isScoped_of_compile isScoping_isTyped hroot htyped he⟩

/-- The number `x`, and the identity on integers. -/
def numberRoot : Scope Definition where
  entries := [(.missing, { rule := .liveMembers }),
    (.global .ofMember "x", .constant (.literal (.int 7))),
    (.global .ofMember "same", .constant (.unboundLambda [⟨"x", .int⟩] (.parameter "x" .int)))]

/-- The function `(x : string) => (same : int) => x`. -/
def keepFirst : Node :=
  .lambda [⟨"x", .string⟩] (.lambda [⟨"same", .int⟩] (.symbol "x" .unknown) .unknown) .unknown

theorem compile_wellScoped_keepFirst :
    (∀ e ∈ numberRoot.entries, e.2.rule.isScoped isTyped = true) ∧
      ∃ e, compile 4 keepFirst { root := some numberRoot } = .done e { root := some numberRoot } ∧
        e = .unboundLambda [⟨"x", .string⟩] (.unboundLambda [⟨"same", .int⟩] (.parameter "x" .string)) ∧
        e.isScoped isTyped [] = true := by
  have htyped : ∀ e ∈ numberRoot.entries, e.2.rule.isScoped isTyped = true := by decide
  obtain ⟨hsame, hscoped⟩ :=
    @compile_wellScoped { root := some numberRoot } numberRoot rfl (by decide) 4 keepFirst
  have hrun := hsame.trans (reduceWith_apply rfl _)
  exact ⟨htyped, _, hrun, rfl, (hscoped _ _ hrun).2 htyped⟩

/-- A constant function whose body is its parameter at another type. -/
def mistyped : Expr := .unboundLambda [⟨"x", .int⟩] (.parameter "x" .string)

def mistypedRoot : Scope Definition := { entries := [(.global .ofMember "f", .constant mistyped)] }

/-- A constant is taken as it is, so what is not as declared there is not in the result either. -/
theorem compile_mistyped :
    (∀ e ∈ mistypedRoot.entries, e.2.rule.isScoped isDeclared = true) ∧
      compile 1 (.symbol "f" .unknown) { root := some mistypedRoot } =
        .done mistyped { root := some mistypedRoot } ∧
      mistyped.isScoped isTyped [] = false :=
  ⟨by decide, rfl, by decide⟩

end Environment

end CallResolution
