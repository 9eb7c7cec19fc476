import CallResolution.Proofs.Reduction.Alike

namespace CallResolution.Reduction

open Attempt

variable {α : Type} {fuel : Nat} {site : CallSite}

/-- The second state has the scopes of the first, each with its entries in order, and its options. -/
structure Restores (s t : Reducer) : Prop where
  scopes : t.scopes = s.scopes
  options : t.options = s.options

instance : Std.Refl Restores := ⟨fun _ ↦ ⟨rfl, rfl⟩⟩

instance : IsTrans Reducer Restores :=
  ⟨fun _ _ _ h h' ↦ ⟨h'.scopes.trans h.scopes, h'.options.trans h.options⟩⟩

/-- The same, save for the innermost scope. -/
structure KeepsOuter (s t : Reducer) : Prop where
  outer : t.scopes.outer = s.scopes.outer
  options : t.options = s.options

instance : Std.Refl KeepsOuter := ⟨fun _ ↦ ⟨rfl, rfl⟩⟩

instance : IsTrans Reducer KeepsOuter :=
  ⟨fun _ _ _ h h' ↦ ⟨h'.outer.trans h.outer, h'.options.trans h.options⟩⟩

theorem Restores.keepsOuter {x : Reduction α} (h : Along Restores x) : Along KeepsOuter x :=
  h.mono fun _ _ h ↦ ⟨congrArg ScopeChain.outer h.scopes, h.options⟩

theorem restores_onTypes (x : Attempt Registry CompileError α) : Along Restores (onTypes x) := by
  intro s t h
  rw [onTypes, within] at h
  cases hx : x s.types with
  | done a r =>
    rw [hx] at h
    cases h
    exact ⟨rfl, rfl⟩
  | failed e r =>
    rw [hx] at h
    cases h
    exact ⟨rfl, rfl⟩
  | exhausted =>
    rw [hx] at h
    cases h

theorem keepsOuter_define (k : SymbolKey) (d : Definition) : Along KeepsOuter (define k d) := by
  intro s t h
  obtain ⟨r, ⟨inner, outer⟩, o⟩ := s
  rw [define_apply] at h
  cases hadd : inner.add k d with
  | ok f =>
    rw [hadd] at h
    cases h
    exact ⟨rfl, rfl⟩
  | error e =>
    rw [hadd] at h
    cases h
    exact ⟨rfl, rfl⟩

/-- What happens in a scope of its own may fail or not: as long as it leaves the scopes around it
alone, it is as if that scope had never been there. -/
theorem restores_inScope (span : Span) {x : Reduction α} (hx : Along KeepsOuter x) :
    Along Restores (inScope span x) := by
  intro s t h
  obtain ⟨r, c, o⟩ := s
  by_cases hdepth : c.depth + 1 ≤ o.maxDepth
  · rw [inScope_apply hdepth] at h
    have hleave : ∀ u, (x ⟨r, c.enter {}, o⟩).state? = some u → u.scopes.leave? = some c := by
      intro u hu
      have houter : u.scopes.outer = c.inner :: c.outer := (hx _ u hu).outer
      rw [ScopeChain.leave?, houter]
    cases hrun : x ⟨r, c.enter {}, o⟩ with
    | done a u =>
      have hstate : (x ⟨r, c.enter {}, o⟩).state? = some u := by rw [hrun]; rfl
      rw [ensuring_pop_of_done hrun (hleave u hstate)] at h
      cases h
      exact ⟨rfl, (hx _ u hstate).options⟩
    | failed e u =>
      have hstate : (x ⟨r, c.enter {}, o⟩).state? = some u := by rw [hrun]; rfl
      rw [ensuring_pop_of_failed hrun (hleave u hstate)] at h
      cases h
      exact ⟨rfl, (hx _ u hstate).options⟩
    | exhausted =>
      rw [ensuring_of_exhausted hrun] at h
      cases h
  · rw [inScope_of_deep (by omega)] at h
    cases h
    exact ⟨rfl, rfl⟩

theorem restores_describeArgs (args : List Expr) : Along Restores (describeArgs args) :=
  Along.get.bind fun _ ↦ .pure _

theorem restores_dispatchAt (receiver : Option Expr) (members : List Method) (args : List Expr) :
    Along Restores (dispatchAt fuel site receiver members args) :=
  Along.get.bind fun _ ↦ restores_onTypes _

theorem restores_tryDispatch (receiver : Option Expr) (members : List Method) (args : List Expr) :
    Along Restores (tryDispatch fuel site receiver members args) := by
  rw [tryDispatch]
  split
  · exact .pure _
  · exact restores_dispatchAt receiver members args

theorem restores_orElse (found : Option Expr) {x : Reduction Expr} (hx : Along Restores x) :
    Along Restores (match found with | some e => pure e | none => x) := by
  cases found with
  | none => exact hx
  | some e => exact .pure e

section Site

variable (hargs : ∀ x ∈ site.args, Along Restores x)

include hargs

theorem restores_reduceArgs : Along Restores site.reduceArgs := Along.mapM_of_mem hargs

theorem restores_callOverload (receiver : Option Expr) (overloads : List Method) :
    Along Restores (callOverload fuel site receiver overloads) := by
  refine (restores_reduceArgs hargs).bind fun args ↦ ?_
  refine (restores_describeArgs args).bind fun described ↦ ?_
  refine (restores_dispatchAt receiver overloads args).bind fun found ↦ ?_
  exact restores_orElse found (.fail _)

theorem restores_accessLive : Along Restores (accessLive fuel site) := by
  refine (restores_reduceArgs hargs).bind fun args ↦ (Along.ask _).bind fun search ↦ ?_
  refine Along.get.bind fun s ↦ (restores_describeArgs args).bind fun described ↦ ?_
  simp only [← CallSite.liveName.eq_1]
  refine (restores_tryDispatch _ _ args).bind fun found ↦ restores_orElse found ?_
  refine Along.get.bind fun s ↦ ?_
  refine (restores_tryDispatch _ _ args).bind fun made ↦ restores_orElse made ?_
  refine Along.get.bind fun s ↦ restores_orElse _ ?_
  split
  · exact .fail _
  · exact .fail _

theorem restores_applyRule (rule : Rule) : Along Restores (applyRule fuel site rule) := by
  cases rule with
  | constant e => exact .pure e
  | typeReference target => exact (restores_onTypes _).bind fun _ ↦ .pure _
  | methods overloads => exact restores_callOverload hargs _ overloads
  | constructors target => exact Along.get.bind fun _ ↦ restores_callOverload hargs none _
  | liveMembers => exact restores_accessLive hargs
  | receiver =>
    rw [applyRule, applyRuleBy]
    cases site.receiver with
    | none => exact .fail _
    | some e => exact .pure e
  | letIn name =>
    rw [applyRule, applyRuleBy]
    split
    · rename_i value body heq
      rw [heq] at hargs
      have hvalue : Along Restores value := hargs value (by simp)
      have hbody : Along Restores body := hargs body (by simp)
      apply restores_inScope
      refine (Restores.keepsOuter hvalue).bind fun e ↦ ?_
      exact (keepsOuter_define _ _).bind fun _ ↦ Restores.keepsOuter hbody
    · exact .fail _
  | failing text => exact .fail _

theorem restores_resolve : Along Restores (resolve fuel site) := by
  refine (Along.ask _).bind fun found ↦ Along.get.bind fun s ↦ ?_
  split
  · exact restores_applyRule hargs _
  · exact .fail _

end Site

theorem keepsOuter_defineParams (params : List Param) : Along KeepsOuter (defineParams params) := by
  induction params with
  | nil => exact .pure ()
  | cons p params ih =>
    rw [defineParams_cons]
    exact (keepsOuter_define _ _).bind fun _ ↦ ih

mutual

theorem restores_reduce (fuel : Nat) : (node : Node) → Along Restores (reduce fuel node)
  | .literal value span => by
    rw [reduce_literal]
    exact .pure _
  | .symbol name span => by
    rw [reduce_symbol]
    exact restores_resolve (by simp)
  | .call kind name typeArgs receiver args span => by
    rw [reduce_call]
    exact (restores_reduceReceiver fuel receiver).bind fun _ ↦
      restores_resolve (restores_delay fuel args)
  | .lambda params body span => by
    rw [reduce_lambda]
    apply restores_inScope
    refine (keepsOuter_defineParams params).bind fun _ ↦ ?_
    exact (Restores.keepsOuter (restores_reduce fuel body)).bind fun _ ↦ .pure _

theorem restores_reduceReceiver (fuel : Nat) :
    (receiver : Option Node) → Along Restores (reduceReceiver fuel receiver)
  | none => .pure _
  | some node => by
    rw [reduceReceiver_some]
    exact (restores_reduce fuel node).bind fun _ ↦ .pure _

theorem restores_delay (fuel : Nat) :
    (nodes : List Node) → ∀ x ∈ delay fuel nodes, Along Restores x
  | [] => List.forall_mem_nil _
  | node :: nodes => by
    rw [delay_cons, List.forall_mem_cons]
    exact ⟨restores_reduce fuel node, restores_delay fuel nodes⟩

end

/-- However the reduction of a form, of several forms, of arguments or of the use of a symbol ends,
the scopes are those that it began in. -/
theorem reduction_restores_scopes (fuel : Nat) :
    (∀ node, Along Restores (reduce fuel node)) ∧
      (∀ nodes, Along Restores (reduceAll fuel nodes)) ∧
      ∀ (site : CallSite) (nodes : List Node),
        Along Restores { site with args := delay fuel nodes }.reduceArgs ∧
          Along Restores (resolve fuel { site with args := delay fuel nodes }) := by
  refine ⟨restores_reduce fuel, fun nodes ↦ Along.mapM nodes (restores_reduce fuel), ?_⟩
  intro site nodes
  have hargs := restores_delay fuel nodes
  exact ⟨restores_reduceArgs hargs, restores_resolve hargs⟩

end CallResolution.Reduction
