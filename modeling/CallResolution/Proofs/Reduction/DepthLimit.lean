import CallResolution.Proofs.Reduction.Diagnostics

/-!
The limit on nested scopes. No scope beyond it is ever gone into, and when a form fails for it, the form
nests more lambdas than it leaves room for; the error is then about the outermost of those for which there
is none.
-/

namespace CallResolution

open Attempt

namespace Node

mutual

/-- How many lambdas stand within each other in the form. -/
def lambdaDepth : Node → Nat
  | .literal _ _ | .symbol _ _ => 0
  | .call _ _ _ receiver args _ => max (receiverDepth receiver) (argsDepth args)
  | .lambda _ body _ => body.lambdaDepth + 1

def receiverDepth : Option Node → Nat
  | none => 0
  | some node => node.lambdaDepth

def argsDepth : List Node → Nat
  | [] => 0
  | node :: nodes => max node.lambdaDepth (argsDepth nodes)

end

theorem lambdaDepth_le_argsDepth {a : Node} {args : List Node} (h : a ∈ args) :
    a.lambdaDepth ≤ argsDepth args := by
  induction args with
  | nil => cases h
  | cons b args ih =>
    rw [argsDepth]
    rcases List.mem_cons.1 h with rfl | h
    · exact le_max_left _ _
    · exact (ih h).trans (le_max_right _ _)

/-- A form nests no more lambdas than what it stands in has left. -/
theorem Holds.lambdaDepth_le {node n : Node} {around : List (List Param)} (h : node.Holds around n) :
    around.length + n.lambdaDepth ≤ node.lambdaDepth := by
  induction h with
  | self node => exact (Nat.zero_add _).le
  | receiver _ ih =>
    rw [lambdaDepth, receiverDepth]
    exact ih.trans (le_max_left _ _)
  | arg ha _ ih =>
    rw [lambdaDepth]
    exact ih.trans ((lambdaDepth_le_argsDepth ha).trans (le_max_right _ _))
  | body _ ih =>
    rw [lambdaDepth, List.length_append, List.length_singleton]
    omega

end Node

namespace Reduction

open Environment

variable {α β : Type} {fuel bound : Nat} {s t : Reducer} {site : CallSite} {alarm : Reduction Unit}

def inScopeWatched (hook : Reduction Unit) (span : Span) (body : Reduction α) : Reduction α := do
  push span
  hook
  Attempt.ensuring body (do pop; hook)

/-- Runs `hook` whenever another scope has become the current one. -/
abbrev Reading.watched (hook : Reduction Unit) : Reading := { inScope := inScopeWatched hook }

def reduceWatched (hook : Reduction Unit) (fuel : Nat) (node : Node) : Reduction Expr :=
  reduceBy (.watched hook) fuel node

/-- Runs `alarm` if the current scope is nested deeper than the bound. -/
def alarmBeyond (bound : Nat) (alarm : Reduction Unit) : Reduction Unit := do
  if bound < (← .get).scopes.depth then alarm else return ()

/-- Neither the current scope nor the limit is beyond the bound. -/
structure Shallow (bound : Nat) (s : Reducer) : Prop where
  depth : s.scopes.depth ≤ bound
  limit : s.options.maxDepth ≤ bound

theorem Shallow.of_keepsOuter (h : Shallow bound s) (hst : KeepsOuter s t) : Shallow bound t := by
  refine ⟨?_, hst.options ▸ h.limit⟩
  rw [ScopeChain.depth, hst.outer]
  exact h.depth

theorem alarmBeyond_of_shallow (h : Shallow bound s) : alarmBeyond bound alarm s = .done () s := by
  rw [alarmBeyond, get_bind, if_neg (Nat.not_lt.2 h.depth)]
  rfl

theorem ensuring_of_done {x : Reduction α} {cleanup : Reduction Unit} {u : Reducer} {a : α}
    (hx : x s = .done a t) (hcleanup : cleanup t = .done () u) :
    ensuring x cleanup s = .done a u := by
  rw [ensuring, hx]
  exact bind_eq_done_iff.2 ⟨(), u, hcleanup, rfl⟩

theorem ensuring_of_failed {x : Reduction α} {cleanup : Reduction Unit} {u : Reducer} {e : CompileError}
    (hx : x s = .failed e t) (hcleanup : cleanup t = .done () u) :
    ensuring x cleanup s = .failed e u := by
  rw [ensuring, hx]
  exact bind_eq_failed_iff.2 (.inr ⟨(), u, hcleanup, rfl⟩)

/-- Within the bound the two computations are the same. -/
def SameWithin (bound : Nat) (x y : Reduction α) : Prop := ∀ s, Shallow bound s → x s = y s

namespace SameWithin

theorem refl (x : Reduction α) : SameWithin bound x x := fun _ _ ↦ rfl

theorem bind {x y : Reduction α} {f g : α → Reduction β} (hx : SameWithin bound x y)
    (hy : Along KeepsOuter y) (hf : ∀ a, SameWithin bound (f a) (g a)) :
    SameWithin bound (x >>= f) (y >>= g) := by
  intro s hs
  rw [bind_apply, bind_apply, hx s hs]
  cases hrun : y s with
  | done a t => exact hf a t (hs.of_keepsOuter (hy.of_done hrun))
  | failed e t => rfl
  | exhausted => rfl

theorem mapM_id {xs ys : List (Reduction α)} (h : List.Forall₂ (SameWithin bound) xs ys)
    (hys : ∀ y ∈ ys, Along KeepsOuter y) : SameWithin bound (xs.mapM id) (ys.mapM id) := by
  induction h with
  | nil => exact refl _
  | cons hxy _ ih =>
    obtain ⟨hy, hys⟩ := List.forall_mem_cons.1 hys
    rw [List.mapM_cons, List.mapM_cons]
    refine hxy.bind hy fun a ↦ (ih hys).bind (Along.mapM_of_mem hys) fun as ↦ refl _

/-- The scope that is gone into is within the limit, and the one that is returned to was there before. -/
theorem inScope {x y : Reduction α} (span : Span) (hx : SameWithin bound x y) (hy : Along KeepsOuter y) :
    SameWithin bound (inScopeWatched (alarmBeyond bound alarm) span x) (inScope span y) := by
  rintro ⟨r, c, o⟩ hs
  by_cases hdepth : c.depth + 1 ≤ o.maxDepth
  case neg =>
    have hdeep : o.maxDepth < c.depth + 1 := by omega
    rw [inScope_of_deep hdeep]
    simp only [inScopeWatched, push, checkDepth, bind_assoc, get_bind, hdeep, if_true]
    rfl
  have hlt : ¬o.maxDepth < c.depth + 1 := by omega
  have hinner : Shallow bound ⟨r, c.enter {}, o⟩ := ⟨hdepth.trans hs.limit, hs.limit⟩
  have hgo : inScopeWatched (alarmBeyond bound alarm) span x ⟨r, c, o⟩ =
      ensuring x (do pop; alarmBeyond bound alarm) ⟨r, c.enter {}, o⟩ := by
    simp only [inScopeWatched, push, checkDepth, bind_assoc, get_bind, hlt, if_false, pure_bind]
    change (alarmBeyond bound alarm >>= fun _ ↦ _) (⟨r, c.enter {}, o⟩ : Reducer) = _
    rw [bind_apply, alarmBeyond_of_shallow hinner]
  have hreturn (u : Reducer) (hu : KeepsOuter ⟨r, c.enter {}, o⟩ u) :
      u.scopes.leave? = some c ∧
        (do pop; alarmBeyond bound alarm : Reduction Unit) u = .done () { u with scopes := c } := by
    have hleave : u.scopes.leave? = some c := by
      rw [ScopeChain.leave?, hu.outer]
      rfl
    refine ⟨hleave, ?_⟩
    rw [bind_apply, pop_apply hleave]
    exact alarmBeyond_of_shallow ⟨hs.depth, hu.options ▸ hs.limit⟩
  rw [hgo, inScope_apply hdepth]
  cases hrun : y ⟨r, c.enter {}, o⟩ with
  | done a u =>
    obtain ⟨hleave, hcleanup⟩ := hreturn u (hy _ u (by rw [hrun]; rfl))
    rw [ensuring_pop_of_done hrun hleave, ensuring_of_done ((hx _ hinner).trans hrun) hcleanup]
  | failed e u =>
    obtain ⟨hleave, hcleanup⟩ := hreturn u (hy _ u (by rw [hrun]; rfl))
    rw [ensuring_pop_of_failed hrun hleave, ensuring_of_failed ((hx _ hinner).trans hrun) hcleanup]
  | exhausted =>
    rw [ensuring_of_exhausted hrun]
    simp only [ensuring, hx _ hinner, hrun]

end SameWithin

/-- All but one of the rules have to do with the arguments only by reducing them. -/
theorem applyRule_congr {xs : List (Reduction Expr)} {rule : Rule} (hrule : ∀ name, rule ≠ .letIn name)
    (h : { site with args := xs }.reduceArgs s = site.reduceArgs s) :
    applyRule fuel { site with args := xs } rule s = applyRule fuel site rule s := by
  have hcall (receiver : Option Expr) (overloads : List Method) :
      callOverload fuel { site with args := xs } receiver overloads s =
        callOverload fuel site receiver overloads s := by
    unfold callOverload
    rw [bind_apply, bind_apply, h]
    rfl
  cases rule with
  | constant _ | typeReference _ | receiver | failing _ => rfl
  | methods overloads => exact hcall _ overloads
  | constructors target =>
    rw [applyRule, applyRule, applyRuleBy, applyRuleBy, get_bind, get_bind]
    exact hcall none _
  | liveMembers =>
    rw [applyRule, applyRule, applyRuleBy, applyRuleBy]
    unfold accessLive
    rw [bind_apply, bind_apply, h]
    rfl
  | letIn name => exact absurd rfl (hrule name)

theorem sameWithin_applyRule {xs : List (Reduction Expr)}
    (hargs : List.Forall₂ (SameWithin bound) xs site.args) (hkeep : ∀ x ∈ site.args, Along Restores x)
    (rule : Rule) :
    SameWithin bound (applyRuleBy (.watched (alarmBeyond bound alarm)) fuel { site with args := xs } rule)
      (applyRule fuel site rule) := by
  have houter : ∀ x ∈ site.args, Along KeepsOuter x := fun x hx ↦ Restores.keepsOuter (hkeep x hx)
  by_cases hrule : ∃ name, rule = .letIn name
  case neg =>
    intro s hs
    have happly : applyRuleBy (.watched (alarmBeyond bound alarm)) fuel { site with args := xs } rule =
        applyRule fuel { site with args := xs } rule := by
      cases rule with
      | letIn name => exact absurd ⟨name, rfl⟩ hrule
      | _ => rfl
    rw [happly]
    exact applyRule_congr (fun name hname ↦ hrule ⟨name, hname⟩) (SameWithin.mapM_id hargs houter s hs)
  obtain ⟨name, rfl⟩ := hrule
  rw [applyRule, applyRuleBy, applyRuleBy]
  dsimp only
  generalize site.args = ys at hargs houter
  cases hargs with
  | nil => exact .refl _
  | @cons x y _ _ hx hargs =>
    cases hargs with
    | nil => exact .refl _
    | @cons x' y' _ _ hx' hargs =>
      cases hargs with
      | nil =>
        have hy : Along KeepsOuter y := houter y (by simp)
        refine .inScope _ (hx.bind hy fun e ↦ ?_) ?_
        · exact (SameWithin.refl _).bind (keepsOuter_define _ _) fun _ ↦ hx'
        · exact hy.bind fun e ↦ (keepsOuter_define _ _).bind fun _ ↦ houter y' (by simp)
      | cons _ _ => exact .refl _

theorem sameWithin_resolve (site : CallSite) {xs : List (Reduction Expr)}
    (hargs : List.Forall₂ (SameWithin bound) xs site.args) (hkeep : ∀ x ∈ site.args, Along Restores x) :
    SameWithin bound (resolveBy (.watched (alarmBeyond bound alarm)) fuel { site with args := xs })
      (resolve fuel site) := by
  refine (SameWithin.refl _).bind (.ask _) fun found ↦ (SameWithin.refl _).bind .get fun s ↦ ?_
  cases (found.map Prod.snd).or (s.scopes.find? .missing) with
  | some d => exact sameWithin_applyRule hargs hkeep d.rule
  | none => exact .refl _

mutual

theorem sameWithin_reduce (fuel : Nat) : (node : Node) →
    SameWithin bound (reduceBy (.watched (alarmBeyond bound alarm)) fuel node) (reduce fuel node)
  | .literal value span => by
    rw [reduce_literal, reduceBy]
    exact .refl _
  | .symbol name span => by
    rw [reduce_symbol, reduceBy]
    exact sameWithin_resolve { kind := .ofMember, name := name, span := span } .nil (by simp)
  | .call kind name typeArgs receiver args span => by
    rw [reduce_call, reduceBy]
    refine (sameWithin_receiver fuel receiver).bind
      (Restores.keepsOuter (restores_reduceReceiver fuel receiver)) fun on ↦ ?_
    exact sameWithin_resolve { kind, name, typeArgs, span, receiver := on, args := delay fuel args }
      (sameWithin_delay fuel args) (restores_delay fuel args)
  | .lambda params body span => by
    rw [reduce_lambda, reduceBy]
    have hbody := Restores.keepsOuter (restores_reduce fuel body)
    refine .inScope span ((SameWithin.refl _).bind (keepsOuter_defineParams params) fun _ ↦ ?_) ?_
    · exact (sameWithin_reduce fuel body).bind hbody fun _ ↦ .refl _
    · exact (keepsOuter_defineParams params).bind fun _ ↦ hbody.bind fun _ ↦ .pure _

theorem sameWithin_receiver (fuel : Nat) : (receiver : Option Node) →
    SameWithin bound (receiverBy (.watched (alarmBeyond bound alarm)) fuel receiver)
      (reduceReceiver fuel receiver)
  | none => .refl _
  | some node => by
    rw [reduceReceiver_some, receiverBy]
    exact (sameWithin_reduce fuel node).bind (Restores.keepsOuter (restores_reduce fuel node)) fun _ ↦ .refl _

theorem sameWithin_delay (fuel : Nat) : (nodes : List Node) →
    List.Forall₂ (SameWithin bound) (delayBy (.watched (alarmBeyond bound alarm)) fuel nodes)
      (delay fuel nodes)
  | [] => .nil
  | node :: nodes => by
    rw [delay_cons, delayBy]
    exact .cons (sameWithin_reduce fuel node) (sameWithin_delay fuel nodes)

end

/-- The form that the limit is exceeded by is a lambda that stands within as many others as there was room
for. -/
theorem holds_of_scopeTooDeep {node : Node} {limit : Nat} {span : Span} (hstock : s.scopes.IsStock)
    (h : reduce fuel node s = .failed (.scopeTooDeep limit span) t) :
    limit = s.options.maxDepth ∧ ∃ around params body,
      node.Holds around (.lambda params body span) ∧
        around.length = s.options.maxDepth - s.scopes.depth := by
  rcases traced_reduce fuel node s t _ hstock h with he | ⟨around, n, u, hn, hu, hblames⟩
  · cases he
  cases hblames with
  | scopeTooDeep hnode hdeep =>
    refine ⟨hu.options ▸ rfl, around, _, _, hnode ▸ hn, ?_⟩
    have hdepth := hu.scopes.depth_eq
    have hle := hu.depth_le
    rw [hu.options] at hdeep
    omega

/-- The limit on nested scopes is exact. No scope that becomes the current one is nested deeper than it,
unless the reduction began in such a one; a form for whose lambdas there is room does not exceed it; and a
form that does is reported with the limit and the place of a lambda that stands within as many others as
there was room for. -/
theorem reduce_depth_exact (fuel : Nat) (node : Node) (s : Reducer) (hstock : s.scopes.IsStock) :
    (∀ alarm, reduceWatched (alarmBeyond (max s.scopes.depth s.options.maxDepth) alarm) fuel node s =
      reduce fuel node s) ∧
    (s.scopes.depth + node.lambdaDepth ≤ s.options.maxDepth →
      ∀ limit span t, reduce fuel node s ≠ .failed (.scopeTooDeep limit span) t) ∧
    ∀ limit span t, reduce fuel node s = .failed (.scopeTooDeep limit span) t →
      limit = s.options.maxDepth ∧ ∃ around params body,
        node.Holds around (.lambda params body span) ∧
          around.length = s.options.maxDepth - s.scopes.depth := by
  refine ⟨fun alarm ↦ ?_, fun hroom limit span t h ↦ ?_, fun limit span t ↦ holds_of_scopeTooDeep hstock⟩
  · exact sameWithin_reduce fuel node s ⟨le_max_left _ _, le_max_right _ _⟩
  · obtain ⟨-, around, params, body, hn, hlength⟩ := holds_of_scopeTooDeep hstock h
    have hle := hn.lambdaDepth_le
    rw [Node.lambdaDepth] at hle
    omega

/-- The function `x => y => z => z`, where there is room for `x` and `y`. -/
def threefold : Node :=
  .lambda [⟨"x", .int⟩] (.lambda [⟨"y", .int⟩] (.lambda [⟨"z", .int⟩] (.symbol "z" ⟨1, 16, 1⟩)
    ⟨1, 11, 6⟩) ⟨1, 6, 11⟩) ⟨1, 1, 16⟩

theorem reduce_depth_exact_threefold :
    ScopeChain.IsStock ⟨numberRoot, []⟩ ∧
    reduce 4 threefold ⟨.builtin, ⟨numberRoot, []⟩, { maxDepth := 2 }⟩ =
      .failed (.scopeTooDeep 2 ⟨1, 11, 6⟩) ⟨.builtin, ⟨numberRoot, []⟩, { maxDepth := 2 }⟩ ∧
    (∃ around params body, threefold.Holds around (.lambda params body ⟨1, 11, 6⟩) ∧ around.length = 2) ∧
    (∀ limit span t, reduce 4 threefold ⟨.builtin, ⟨numberRoot, []⟩, { maxDepth := 3 }⟩ ≠
      .failed (.scopeTooDeep limit span) t) ∧
    reduceWatched (alarmBeyond 2 (.fail (.internal "too deep"))) 4 threefold
        ⟨.builtin, ⟨numberRoot, []⟩, { maxDepth := 2 }⟩ =
      reduce 4 threefold ⟨.builtin, ⟨numberRoot, []⟩, { maxDepth := 2 }⟩ := by
  have hrun : reduce 4 threefold ⟨.builtin, ⟨numberRoot, []⟩, { maxDepth := 2 }⟩ =
      .failed (.scopeTooDeep 2 ⟨1, 11, 6⟩) ⟨.builtin, ⟨numberRoot, []⟩, { maxDepth := 2 }⟩ := rfl
  obtain ⟨hwatched, -, htoo⟩ :=
    reduce_depth_exact 4 threefold ⟨.builtin, ⟨numberRoot, []⟩, { maxDepth := 2 }⟩ isStock_numberRoot
  obtain ⟨-, hroom, -⟩ :=
    reduce_depth_exact 4 threefold ⟨.builtin, ⟨numberRoot, []⟩, { maxDepth := 3 }⟩ isStock_numberRoot
  exact ⟨isStock_numberRoot, hrun, (htoo _ _ _ hrun).2, hroom (by decide), hwatched _⟩

end Reduction

end CallResolution
