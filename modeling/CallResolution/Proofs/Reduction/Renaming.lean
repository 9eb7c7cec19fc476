import CallResolution.Proofs.Reduction.Alike
import Mathlib.Data.List.Find
import Mathlib.Data.List.Nodup

namespace CallResolution

open Attempt

variable {x y : String}

def Param.rename (x y : String) (p : Param) : Param :=
  if p.name = x then { p with name := y } else p

namespace Node

mutual

/-- Renames a parameter `x` where it is used: as a symbol, or as a call that asks for no more than a
parameter gives. If `bare`, calls on a receiver are not counted as uses. -/
def rename (bare : Bool) (x y : String) : Node → Node
  | .literal value span => .literal value span
  | .symbol name span => .symbol (if name = x then y else name) span
  | .call kind name typeArgs receiver args span =>
    .call kind (if name = x ∧ CallKind.ofMember.covers kind ∧ !(bare && receiver.isSome) then y
      else name) typeArgs (renameReceiver bare x y receiver) (renameAll bare x y args) span
  | .lambda params body span =>
    if x ∈ params.map Param.name then .lambda params body span
    else .lambda params (body.rename bare x y) span

def renameReceiver (bare : Bool) (x y : String) : Option Node → Option Node
  | none => none
  | some node => some (node.rename bare x y)

def renameAll (bare : Bool) (x y : String) : List Node → List Node
  | [] => []
  | node :: nodes => node.rename bare x y :: renameAll bare x y nodes

end

mutual

/-- A member `x` of a receiver is asked for in a way in which a parameter `x` would answer too. -/
def accesses (x : String) : Node → Bool
  | .literal _ _ | .symbol _ _ => false
  | .call kind name _ receiver args _ =>
    (name == x && receiver.isSome && CallKind.ofMember.covers kind) ||
      receiverAccesses x receiver || someAccess x args
  | .lambda params body _ => decide (x ∉ params.map Param.name) && body.accesses x

def receiverAccesses (x : String) : Option Node → Bool
  | none => false
  | some node => node.accesses x

def someAccess (x : String) : List Node → Bool
  | [] => false
  | node :: nodes => node.accesses x || someAccess x nodes

end

mutual

theorem rename_of_not_accesses (bare : Bool) : (node : Node) → node.accesses x = false →
    node.rename bare x y = node.rename false x y
  | .literal value span, _ => rfl
  | .symbol name span, _ => rfl
  | .call kind name typeArgs receiver args span, h => by
    simp only [accesses, Bool.or_eq_false_iff] at h
    obtain ⟨⟨haccess, hreceiver⟩, hargs⟩ := h
    rw [rename, rename, renameReceiver_of_not_accesses bare receiver hreceiver,
      renameAll_of_not_accesses bare args hargs]
    by_cases hbound : name = x ∧ CallKind.ofMember.covers kind = true
    · have hnone : receiver.isSome = false := by simpa [hbound.1, hbound.2] using haccess
      rw [hnone, Bool.and_false, Bool.and_false]
    · rw [if_neg fun h ↦ hbound ⟨h.1, h.2.1⟩, if_neg fun h ↦ hbound ⟨h.1, h.2.1⟩]
  | .lambda params body span, h => by
    by_cases hx : x ∈ params.map Param.name
    · rw [rename, rename, if_pos hx, if_pos hx]
    · rw [accesses, decide_eq_true hx, Bool.true_and] at h
      rw [rename, rename, if_neg hx, if_neg hx, rename_of_not_accesses bare body h]

theorem renameReceiver_of_not_accesses (bare : Bool) : (receiver : Option Node) →
    receiverAccesses x receiver = false →
      renameReceiver bare x y receiver = renameReceiver false x y receiver
  | none, _ => rfl
  | some node, h => by
    rw [renameReceiver, renameReceiver, rename_of_not_accesses bare node h]

theorem renameAll_of_not_accesses (bare : Bool) : (nodes : List Node) →
    someAccess x nodes = false → renameAll bare x y nodes = renameAll false x y nodes
  | [], _ => rfl
  | node :: nodes, h => by
    simp only [someAccess, Bool.or_eq_false_iff] at h
    rw [renameAll, renameAll, rename_of_not_accesses bare node h.1,
      renameAll_of_not_accesses bare nodes h.2]

end

end Node

namespace Expr

mutual

/-- Renames the free occurrences of a parameter. -/
def rename (x y : String) : Expr → Expr
  | constant v t => constant v t
  | parameter name t => parameter (if name = x then y else name) t
  | typeRef target t => typeRef target t
  | call on d args t => call (renameReceiver x y on) d (renameAll x y args) t
  | new d args t => new d (renameAll x y args) t
  | newArray element items t => newArray element (renameAll x y items) t
  | member on d args t => member (renameReceiver x y on) d (renameAll x y args) t
  | convert e t => convert (e.rename x y) t
  | lambda params body t =>
    if x ∈ params.map Param.name then lambda params body t else lambda params (body.rename x y) t

def renameReceiver (x y : String) : Option Expr → Option Expr
  | none => none
  | some e => some (e.rename x y)

def renameAll (x y : String) : List Expr → List Expr
  | [] => []
  | e :: es => e.rename x y :: renameAll x y es

end

mutual

def mentions (x : String) : Expr → Bool
  | constant _ _ | typeRef _ _ => false
  | parameter name _ => name == x
  | call on _ args _ | member on _ args _ => receiverMentions x on || someMentions x args
  | new _ args _ | newArray _ args _ => someMentions x args
  | convert e _ => e.mentions x
  | lambda params body _ => decide (x ∉ params.map Param.name) && body.mentions x

def receiverMentions (x : String) : Option Expr → Bool
  | none => false
  | some e => e.mentions x

def someMentions (x : String) : List Expr → Bool
  | [] => false
  | e :: es => e.mentions x || someMentions x es

end

/-- The relation renames the parameter `x` to `y` and is kept by what the reduction of forms
builds. -/
structure Renaming (x y : String) (R : Expr → Expr → Prop) : Prop extends Congruence R where
  parameter : ∀ t, R (.parameter x t) (.parameter y t)
  other : ∀ {name} t, name ≠ x → R (.parameter name t) (.parameter name t)
  lambda : ∀ {params a b} t, x ∉ params.map Param.name → y ∉ params.map Param.name → R a b →
    R (.lambda params a t) (.lambda params b t)
  shadowed : ∀ {params} a t, x ∈ params.map Param.name →
    R (.lambda params a t) (.lambda params a t)

mutual

theorem rename_of_not_mentions : (e : Expr) → e.mentions x = false → e.rename x y = e
  | .constant _ _, _ | .typeRef _ _, _ => rfl
  | .parameter name t, h => by
    have hname : name ≠ x := by simpa [mentions] using h
    rw [rename, if_neg hname]
  | .call on d args t, h => by
    simp only [mentions, Bool.or_eq_false_iff] at h
    rw [rename, renameReceiver_of_not_mentions on h.1, renameAll_of_not_mentions args h.2]
  | .new d args t, h => by
    rw [rename, renameAll_of_not_mentions args h]
  | .newArray element items t, h => by
    rw [rename, renameAll_of_not_mentions items h]
  | .member on d args t, h => by
    simp only [mentions, Bool.or_eq_false_iff] at h
    rw [rename, renameReceiver_of_not_mentions on h.1, renameAll_of_not_mentions args h.2]
  | .convert e t, h => by
    rw [rename, rename_of_not_mentions e h]
  | .lambda params body t, h => by
    by_cases hx : x ∈ params.map Param.name
    · rw [rename, if_pos hx]
    · rw [mentions, decide_eq_true hx, Bool.true_and] at h
      rw [rename, if_neg hx, rename_of_not_mentions body h]

theorem renameReceiver_of_not_mentions : (e : Option Expr) → receiverMentions x e = false →
    renameReceiver x y e = e
  | none, _ => rfl
  | some e, h => by
    rw [renameReceiver, rename_of_not_mentions e h]

theorem renameAll_of_not_mentions : (es : List Expr) → someMentions x es = false →
    renameAll x y es = es
  | [], _ => rfl
  | e :: es, h => by
    simp only [someMentions, Bool.or_eq_false_iff] at h
    rw [renameAll, rename_of_not_mentions e h.1, renameAll_of_not_mentions es h.2]

end

end Expr

namespace Reduction

variable {R : Expr → Expr → Prop} {c c' : ScopeChain Definition} {f f' : Scope Definition}
  {params : List Param} {fuel : Nat}

/-- The uses of names that a parameter `x` leaves alone, and its new name `y` too. -/
def Untouched (x y : String) (kind : CallKind) (name : String) : Prop :=
  name ≠ y ∧ ¬(name = x ∧ CallKind.ofMember.covers kind = true)

theorem Untouched.ne {kind : CallKind} {name : String} (h : Untouched x y kind name)
    (hkind : CallKind.ofMember.covers kind = true) : name ≠ x := fun hname ↦ h.2 ⟨hname, hkind⟩

/-- Where a parameter can be asked for, the name means the parameter of that name and type, on
whatever receiver. -/
def Binds (c : ScopeChain Definition) (x : String) (t : TypeId) : Prop :=
  ∀ kind receiver r fuel, CallKind.ofMember.covers kind = true →
    c.closestMatch r fuel ⟨kind, receiver, x⟩ = (Scope.receiverTypes r fuel receiver).map
      fun _ ↦ some (.global .ofMember x, .parameter x t)

/-- The chains bind the same parameter, as `x` and as `y`, and agree on what that leaves alone. -/
structure Swaps (R : Expr → Expr → Prop) (x y : String) (c c' : ScopeChain Definition) : Prop where
  agree : Agree R (Untouched x y) c c'
  binds : ∃ t, Binds c x t ∧ Binds c' y t

theorem closestMatch_params (hf : f.entries = paramEntries params) {kind : CallKind}
    (hkind : CallKind.ofMember.covers kind = true) (receiver : Option TypeId) (r : Registry)
    (fuel : Nat) (name : String) :
    f.closestMatch r fuel ⟨kind, receiver, name⟩ = (Scope.receiverTypes r fuel receiver).map
      fun _ ↦ (params.find? (·.name == name)).map
        fun p ↦ (.global .ofMember p.name, .parameter p.name p.type) := by
  have hglobal : ∀ e ∈ f.entries, e.1.receiver = none := by
    intro e he
    obtain ⟨p, -, rfl⟩ := mem_paramEntries.1 (hf ▸ he)
    rfl
  have hserves : Scope.serves ⟨kind, receiver, name⟩ ∘ (fun p : Param ↦
      (SymbolKey.global .ofMember p.name, Definition.parameter p.name p.type)) =
        fun p ↦ p.name == name := by
    funext p
    simp [Scope.serves, SymbolKey.global, hkind]
  rw [Scope.closestMatch_of_global hglobal, hf, paramEntries, List.find?_map, hserves]

theorem Binds.enter {t : TypeId} (h : Binds c x t) (hf : f.entries = paramEntries params)
    (hx : x ∉ params.map Param.name) : Binds (c.enter f) x t := by
  intro kind receiver r fuel hkind
  have hnone : params.find? (·.name == x) = none := by
    rw [List.find?_eq_none]
    intro p hp hname
    exact hx (List.mem_map.2 ⟨p, hp, by simpa using hname⟩)
  rw [ScopeChain.closestMatch_enter, closestMatch_params hf hkind, hnone]
  have hc := h kind receiver r fuel hkind
  cases htypes : Scope.receiverTypes r fuel receiver with
  | none => rfl
  | some types =>
    rw [htypes] at hc
    exact hc

theorem binds_enter_of_find? {p : Param} (hf : f.entries = paramEntries params)
    (h : params.find? (·.name == x) = some p) : Binds (c.enter f) x p.type := by
  intro kind receiver r fuel hkind
  have hname : p.name = x := by simpa using List.find?_some h
  rw [ScopeChain.closestMatch_enter, closestMatch_params hf hkind, h, ← hname]
  cases Scope.receiverTypes r fuel receiver <;> rfl

theorem rel_resolve_of_swaps (hR : Expr.Renaming x y R) (hc : Swaps R x y c c') {kind : CallKind}
    (hkind : CallKind.ofMember.covers kind = true) (typeArgs : List TypeId) (span : Span)
    {on on' : Option Expr} (hon : Option.Rel R on on') (args args' : List (Reduction Expr)) :
    Attempt.Rel (Beside c c') R (resolve fuel ⟨kind, x, typeArgs, span, on, args⟩)
      (resolve fuel ⟨kind, y, typeArgs, span, on', args'⟩) := by
  obtain ⟨t, hx, hy⟩ := hc.binds
  refine rel_of_apply fun r o ↦ ?_
  have hleft := hx kind (on.map Expr.type) r fuel hkind
  have hright := hy kind (on'.map Expr.type) r fuel hkind
  have hsame : Scope.receiverTypes r fuel (on'.map Expr.type) =
      Scope.receiverTypes r fuel (on.map Expr.type) := by
    rw [receiverType_congr hR.toCongruence hon]
  rw [hsame] at hright
  cases htypes : Scope.receiverTypes r fuel (on.map Expr.type) with
  | none =>
    rw [htypes] at hleft hright
    rw [resolve_of_unanswered hleft, resolve_of_unanswered hright]
    exact .exhausted
  | some types =>
    rw [htypes] at hleft hright
    rw [resolve_of_closestMatch hleft, resolve_of_closestMatch hright]
    exact .done (hR.parameter t) ⟨rfl, rfl, rfl, rfl⟩

theorem Swaps.enter (hR : Expr.Renaming x y R) (h : Swaps R x y c c')
    (hf : f.entries = paramEntries params) (hx : x ∉ params.map Param.name)
    (hy : y ∉ params.map Param.name) : Swaps R x y (c.enter f) (c'.enter f) := by
  obtain ⟨t, hbx, hby⟩ := h.binds
  refine ⟨?_, t, hbx.enter hf hx, hby.enter hf hy⟩
  exact h.agree.enter hf hf (fun _ _ ↦ .inl) (fun _ _ _ _ ↦ rfl)
    fun _ p _ hp hkind ↦ hR.other p.type (hp.ne hkind)

/-- A scope that binds `x` again hides the difference. -/
theorem Swaps.agreeBut (h : Swaps R x y c c') (hf : f.entries = paramEntries params)
    (hx : x ∈ params.map Param.name) : AgreeBut y (c.enter f) (c'.enter f) := by
  refine h.agree.toEq.enter hf hf (fun kind name hname ↦ ?_) (fun _ _ _ _ ↦ rfl)
    fun _ _ _ _ _ ↦ rfl
  by_cases hbound : name = x ∧ CallKind.ofMember.covers kind = true
  · exact .inr ⟨hbound.2, hbound.1 ▸ hx⟩
  · exact .inl ⟨hname, hbound⟩

mutual

theorem rel_reduce_rename (hR : Expr.Renaming x y R) {c c' : ScopeChain Definition}
    (hc : Swaps R x y c c') : (node : Node) → node.mentions y = false →
      Attempt.Rel (Beside c c') R (reduce fuel node) (reduce fuel (node.rename false x y))
  | .literal value span, _ => by
    rw [Node.rename, reduce_literal]
    exact .pure (hR.constant _ _)
  | .symbol name span, hy => by
    have hname : name ≠ y := by simpa [Node.mentions] using hy
    by_cases hx : name = x
    · rw [Node.rename, if_pos hx, hx, reduce_symbol, reduce_symbol]
      exact rel_resolve_of_swaps hR hc rfl [] span .none [] []
    · rw [Node.rename, if_neg hx]
      exact rel_symbol hR.toCongruence hc.agree ⟨hname, fun h ↦ hx h.1⟩ span
  | .call kind name typeArgs receiver args span, hy => by
    simp only [Node.mentions, Bool.or_eq_false_iff, beq_eq_false_iff_ne] at hy
    obtain ⟨⟨hname, hreceiver⟩, hargs⟩ := hy
    have hon := rel_reduceReceiver_rename hR hc receiver hreceiver
    have hdelay := rel_delay_rename hR hc args hargs
    by_cases hbound : name = x ∧ CallKind.ofMember.covers kind = true
    · rw [Node.rename, if_pos ⟨hbound.1, hbound.2, rfl⟩, hbound.1, reduce_call, reduce_call]
      exact hon.bind fun _ _ hon ↦ rel_resolve_of_swaps hR hc hbound.2 typeArgs span hon _ _
    · rw [Node.rename, if_neg fun h ↦ hbound ⟨h.1, h.2.1⟩]
      exact rel_call hR.toCongruence hc.agree ⟨hname, hbound⟩ typeArgs span hon hdelay
  | .lambda params body span, hy => by
    simp only [Node.mentions, Bool.or_eq_false_iff, decide_eq_false_iff_not] at hy
    cases hf : ({} : Scope Definition).addAll (paramEntries params) with
    | error e =>
      rw [Node.rename]
      split <;> exact rel_lambda_of_error hc.agree.depth hf
    | ok f =>
      have hentries : f.entries = paramEntries params := Scope.entries_of_addAll hf
      by_cases hx : x ∈ params.map Param.name
      · rw [Node.rename, if_pos hx]
        have hinner : AgreeBut y (c.enter f) (c'.enter f) := hc.agreeBut hentries hx
        exact rel_lambda hc.agree.depth hf hf (rel_reduce_of_not_mentions hinner body hy.2)
          fun e _ h ↦ h ▸ hR.shadowed e _ hx
      · rw [Node.rename, if_neg hx]
        have hinner : Swaps R x y (c.enter f) (c'.enter f) := hc.enter hR hentries hx hy.1
        exact rel_lambda hc.agree.depth hf hf (rel_reduce_rename hR hinner body hy.2)
          fun _ _ ↦ hR.lambda _ hx hy.1

theorem rel_reduceReceiver_rename (hR : Expr.Renaming x y R) {c c' : ScopeChain Definition}
    (hc : Swaps R x y c c') : (receiver : Option Node) → Node.receiverMentions y receiver = false →
      Attempt.Rel (Beside c c') (Option.Rel R) (reduceReceiver fuel receiver)
        (reduceReceiver fuel (Node.renameReceiver false x y receiver))
  | none, _ => by
    rw [Node.renameReceiver]
    exact .pure .none
  | some node, hy => by
    rw [Node.renameReceiver, reduceReceiver_some, reduceReceiver_some]
    exact (rel_reduce_rename hR hc node hy).bind fun _ _ h ↦ .pure (.some h)

theorem rel_delay_rename (hR : Expr.Renaming x y R) {c c' : ScopeChain Definition}
    (hc : Swaps R x y c c') : (args : List Node) → Node.someMentions y args = false →
      List.Forall₂ (Attempt.Rel (Beside c c') R) (delay fuel args)
        (delay fuel (Node.renameAll false x y args))
  | [], _ => .nil
  | node :: nodes, hy => by
    simp only [Node.someMentions, Bool.or_eq_false_iff] at hy
    exact .cons (rel_reduce_rename hR hc node hy.1) (rel_delay_rename hR hc nodes hy.2)

end

def point : TypeId := .ofName "Point"

def pointDecl : TypeDecl where
  name := "Point"
  id := point
  kind := .classType
  fields := [{ name := "x", owner := point, type := .int }]

def pointTypes : Registry := (Registry.register pointDecl .builtin).state?.getD {}

end Reduction

end CallResolution
