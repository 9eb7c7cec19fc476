import CallResolution.Overload.MemberAccess
import CallResolution.Proofs.Overload.Soundness

namespace CallResolution

open Attempt Registry

namespace Expr

/-- What the resolution of calls sees of an expression. -/
structure Shape where
  type : TypeId
  /-- The parameter types and the body type of a lambda. -/
  lambda? : Option (List TypeId × TypeId)
  /-- The type that is used as a value. -/
  target? : Option TypeId

def shape : Expr → Shape
  | lambda params body t => ⟨t, some (params.map Param.type, body.type), none⟩
  | typeRef target t => ⟨t, none, some target⟩
  | e => ⟨e.type, none, none⟩

theorem type_shape (e : Expr) : e.shape.type = e.type := by
  cases e <;> rfl

theorem type_eq_of_shape {a b : Expr} (h : a.shape = b.shape) : a.type = b.type := by
  rw [← type_shape, h, type_shape]

theorem isLambda_shape (e : Expr) : e.isLambda = e.shape.lambda?.isSome := by
  cases e <;> rfl

/-- The relation is kept by everything that the resolution of symbols builds, and what it relates
looks the same. -/
structure Congruence (R : Expr → Expr → Prop) : Prop where
  shape : ∀ {a b}, R a b → a.shape = b.shape
  constant : ∀ v t, R (.constant v t) (.constant v t)
  typeRef : ∀ target t, R (.typeRef target t) (.typeRef target t)
  bindLambda : ∀ {a b} t, R a b → R (a.bindLambda t) (b.bindLambda t)
  convert : ∀ {a b} t, R a b → R (.convert a t) (.convert b t)
  newArray : ∀ {as bs} element t, List.Forall₂ R as bs →
    R (.newArray element as t) (.newArray element bs t)
  call : ∀ {on on' as bs} d t, Option.Rel R on on' → List.Forall₂ R as bs →
    R (.call on d as t) (.call on' d bs t)
  new : ∀ {as bs} d t, List.Forall₂ R as bs → R (.new d as t) (.new d bs t)
  member : ∀ {on on' as bs} d t, Option.Rel R on on' → List.Forall₂ R as bs →
    R (.member on d as t) (.member on' d bs t)

theorem map_eq_of_forall₂ {F : Expr → Expr} {as bs : List Expr}
    (h : List.Forall₂ (fun a b ↦ F a = b) as bs) : as.map F = bs := by
  induction h with
  | nil => rfl
  | cons hab _ ih => rw [List.map_cons, hab, ih]

theorem map_eq_of_rel {F : Expr → Expr} {x y : Option Expr}
    (h : Option.Rel (fun a b ↦ F a = b) x y) : x.map F = y := by
  cases h with
  | none => rfl
  | some hab => exact congrArg some hab

theorem Congruence.of_map {F : Expr → Expr} (shape : ∀ e, e.shape = (F e).shape)
    (constant : ∀ v t, F (.constant v t) = .constant v t)
    (typeRef : ∀ target t, F (.typeRef target t) = .typeRef target t)
    (bindLambda : ∀ e t, F (e.bindLambda t) = (F e).bindLambda t)
    (convert : ∀ e t, F (.convert e t) = .convert (F e) t)
    (newArray : ∀ element as t, F (.newArray element as t) = .newArray element (as.map F) t)
    (call : ∀ on d as t, F (.call on d as t) = .call (on.map F) d (as.map F) t)
    (new : ∀ d as t, F (.new d as t) = .new d (as.map F) t)
    (member : ∀ on d as t, F (.member on d as t) = .member (on.map F) d (as.map F) t) :
    Congruence fun a b ↦ F a = b where
  shape h := h ▸ shape _
  constant := constant
  typeRef := typeRef
  bindLambda t h := by rw [bindLambda, h]
  convert t h := by rw [convert, h]
  newArray element t h := by rw [newArray, map_eq_of_forall₂ h]
  call d t hon h := by rw [call, map_eq_of_rel hon, map_eq_of_forall₂ h]
  new d t h := by rw [new, map_eq_of_forall₂ h]
  member d t hon h := by rw [member, map_eq_of_rel hon, map_eq_of_forall₂ h]

theorem congruence_eq : Congruence Eq :=
  .of_map (F := id) (fun _ ↦ rfl) (fun _ _ ↦ rfl) (fun _ _ ↦ rfl) (fun _ _ ↦ rfl) (fun _ _ ↦ rfl)
    (by simp) (by simp) (by simp) (by simp)

end Expr

variable {R : Expr → Expr → Prop} (hR : Expr.Congruence R) {fuel : Nat} {r : Registry}
  {a b : Expr} {as bs : List Expr} {c d : Candidate}

namespace Registry

theorem allM_map {α β : Type} (f : α → β) (p : β → Option Bool) (xs : List α) :
    (xs.map f).allM p = xs.allM fun x ↦ p (f x) := by
  induction xs with
  | nil => rfl
  | cons x xs ih => simp only [List.map_cons, List.allM_cons, ih]

def acceptsShape (r : Registry) (fuel : Nat) (p : TypeId) (s : Expr.Shape) : Option Bool :=
  match s.lambda?, r.signature? p with
  | some (params, body), some signature =>
    if signature.params.length ≠ params.length then some false
    else do
      let matched ← (signature.params.zip params).allM fun (expected, actual) ↦
        if expected = actual then some true
        else if r.isParam expected then r.accepts fuel expected actual
        else some false
      if matched then r.accepts fuel signature.result body else return false
  | _, _ => r.accepts fuel p s.type

theorem acceptsExpr_eq (p : TypeId) (e : Expr) :
    r.acceptsExpr fuel p e = r.acceptsShape fuel p e.shape := by
  cases e with
  | lambda params body t =>
    unfold acceptsExpr acceptsShape Expr.shape
    cases r.signature? p with
    | none => rfl
    | some signature =>
      simp only [List.length_map, List.zip_map_right, allM_map]
      rfl
  | _ => rfl

theorem acceptsExpr_congr (h : a.shape = b.shape) (p : TypeId) :
    r.acceptsExpr fuel p a = r.acceptsExpr fuel p b := by
  rw [acceptsExpr_eq, h, ← acceptsExpr_eq]

def pairShape (r : Registry) (fuel : Nat) (p : TypeId) (s : Expr.Shape) :
    Option (List (TypeId × TypeId)) :=
  match s.lambda?, r.signature? p with
  | some (params, body), some signature => do
    let pairs ← (signature.params.zip params).mapM fun (expected, actual) ↦
      r.pairTypes fuel expected actual
    return pairs.flatten ++ (← r.pairTypes fuel signature.result body)
  | _, _ => r.pairTypes fuel p s.type

theorem pairExpr_eq (p : TypeId) (e : Expr) :
    r.pairExpr fuel p e = r.pairShape fuel p e.shape := by
  cases e with
  | lambda params body t =>
    unfold pairExpr pairShape Expr.shape
    cases r.signature? p with
    | none => rfl
    | some signature =>
      simp only [List.zip_map_right, List.mapM_map]
      rfl
  | _ => rfl

theorem pairExpr_congr (h : a.shape = b.shape) (p : TypeId) :
    r.pairExpr fuel p a = r.pairExpr fuel p b := by
  rw [pairExpr_eq, h, ← pairExpr_eq]

include hR

theorem acceptsAll_congr (h : List.Forall₂ R as bs) (types : List TypeId) :
    r.acceptsAll fuel types as = r.acceptsAll fuel types bs := by
  unfold acceptsAll
  induction h generalizing types with
  | nil => rfl
  | cons hab _ ih =>
    cases types with
    | nil => rfl
    | cons t types =>
      simp only [List.zip_cons_cons, List.allM_cons, acceptsExpr_congr (hR.shape hab), ih]

theorem coerce_congr (h : R a b) (t : TypeId) : R (r.coerce t a) (r.coerce t b) := by
  unfold coerce
  rw [Expr.isLambda_shape, hR.shape h, ← Expr.isLambda_shape]
  split
  · exact hR.bindLambda t h
  · exact h

theorem convertTo_congr (h : R a b) (t : TypeId) : R (a.convertTo t) (b.convertTo t) := by
  unfold Expr.convertTo
  rw [Expr.type_eq_of_shape (hR.shape h)]
  split
  · exact h
  · exact hR.convert t h

end Registry

theorem Method.infer_congr (hR : Expr.Congruence R) (m : Method) (h : List.Forall₂ R as bs) :
    m.infer r fuel as = m.infer r fuel bs := by
  have hpairs {γ : Type} {pair : TypeId × Expr → Option γ}
      (hpair : ∀ t a b, R a b → pair (t, a) = pair (t, b)) (types : List TypeId) :
      (types.zip as).mapM pair = (types.zip bs).mapM pair := by
    induction h generalizing types with
    | nil => rfl
    | cons hab _ ih =>
      cases types with
      | nil => rfl
      | cons t types => simp only [List.zip_cons_cons, List.mapM_cons, hpair t _ _ hab, ih]
  unfold infer
  rw [h.length_eq]
  cases m.expectedTypes r bs.length with
  | none => rfl
  | some types =>
    dsimp only
    rw [hpairs fun t a b hab ↦ pairExpr_congr (hR.shape hab) t]

theorem rel_packRest (hR : Expr.Congruence R) (m : Method) (h : List.Forall₂ R as bs) :
    Attempt.Rel Eq (List.Forall₂ R)
      (Attempt.ofExcept (m.packRest r as) : Attempt Registry CompileError (List Expr))
      (Attempt.ofExcept (m.packRest r bs)) := by
  unfold Method.packRest
  rw [h.length_eq]
  cases m.restElement r with
  | error e => exact .fail e
  | ok p =>
    obtain ⟨array, element⟩ := p
    simp only [bind, Except.bind]
    split
    · exact .fail _
    · refine .pure (List.rel_append (List.forall₂_take _ h) ?_)
      refine .cons (hR.newArray element array ?_) .nil
      rw [List.forall₂_map_left_iff, List.forall₂_map_right_iff]
      exact (List.forall₂_drop _ h).imp fun a b hab ↦
        convertTo_congr hR (coerce_congr hR hab element) element

theorem forall₂_filterMap_id {α β : Type} {Q : α → β → Prop} {xs : List (Option α)}
    {ys : List (Option β)} (h : List.Forall₂ (Option.Rel Q) xs ys) :
    List.Forall₂ Q (xs.filterMap id) (ys.filterMap id) := by
  induction h with
  | nil => exact .nil
  | cons hxy _ ih =>
    cases hxy with
    | none => exact ih
    | some hq => exact .cons hq ih

namespace Candidate

/-- The same candidate, up to its receiver and arguments. -/
structure Rel (R : Expr → Expr → Prop) (c d : Candidate) : Prop where
  receiver : Option.Rel R c.receiver d.receiver
  method : c.method = d.method
  substitution : c.substitution = d.substitution
  args : List.Forall₂ R c.args d.args
  isExtension : c.isExtension = d.isExtension

theorem isSome_of_rel {α β : Type} {R : α → β → Prop} {x : Option α} {y : Option β}
    (h : Option.Rel R x y) : x.isSome = y.isSome := by
  cases h <;> rfl

theorem rel_ofMethod {receiver receiver' : Option Expr} (hr : Option.Rel R receiver receiver')
    (h : List.Forall₂ R as bs) (m : Method) :
    Rel R (ofMethod receiver as m) (ofMethod receiver' bs m) := by
  unfold ofMethod
  split
  · refine ⟨.none, rfl, rfl, ?_, rfl⟩
    cases hr with
    | none => exact h
    | some hab => exact .cons hab h
  · exact ⟨hr, rfl, rfl, h, rfl⟩

include hR

theorem isApplicable_congr (h : Rel R c d) : c.isApplicable fuel = d.isApplicable fuel := by
  have hsome := isSome_of_rel h.receiver
  have hnone : c.receiver.isNone = d.receiver.isNone := by
    rw [← Option.not_isSome, hsome, Option.not_isSome]
  have hfits : c.receiverFits = d.receiverFits := by
    simp only [receiverFits, h.method, hsome, hnone]
  unfold isApplicable
  simp only [hfits, h.method, h.args.length_eq, acceptsAll_congr hR h.args]

omit hR in
theorem rel_specialize (h : Rel R c d) (map : Substitution) :
    Attempt.Rel Eq (Rel R) (c.specialize fuel map) (d.specialize fuel map) := by
  unfold specialize
  rw [h.method]
  refine .same_bind _ fun m ↦ ?_
  exact .pure ⟨h.receiver, rfl, rfl, h.args, h.isExtension⟩

omit hR in
theorem rel_bindExplicit (h : Rel R c d) (typeArgs : List TypeId) :
    Attempt.Rel Eq (Option.Rel (Rel R)) (c.bindExplicit fuel typeArgs)
      (d.bindExplicit fuel typeArgs) := by
  unfold bindExplicit
  simp only [h.method]
  split
  · exact .pure .none
  · refine .same_bind _ fun suits ↦ ?_
    split
    · refine .same_bind _ fun map ↦ ?_
      exact (rel_specialize h map).bind fun _ _ hc ↦ .pure (.some hc)
    · exact .pure .none

theorem rel_bindInferred (h : Rel R c d) :
    Attempt.Rel Eq (Option.Rel (Rel R)) (c.bindInferred fuel) (d.bindInferred fuel) := by
  unfold bindInferred
  simp only [h.method, Method.infer_congr hR d.method h.args]
  refine .same_bind _ fun found ↦ ?_
  cases found with
  | none => exact .pure .none
  | some map =>
    refine (rel_specialize h map).bind fun c' d' hc ↦ ?_
    rw [isApplicable_congr hR hc]
    refine .same_bind _ fun applies ↦ ?_
    split
    · exact .pure (.some hc)
    · exact .pure .none

theorem rel_settle (h : Rel R c d) :
    Attempt.Rel Eq (Option.Rel (Rel R)) (c.settle fuel) (d.settle fuel) := by
  unfold settle
  rw [isApplicable_congr hR h, h.method]
  refine .same_bind _ fun applies ↦ ?_
  split
  · split
    · exact rel_bindInferred hR h
    · exact .pure (.some h)
  · exact .pure .none

omit hR in
theorem rel_bindTypeArgs {cs ds : List Candidate} (h : List.Forall₂ (Rel R) cs ds)
    (typeArgs : List TypeId) :
    Attempt.Rel Eq (List.Forall₂ (Rel R)) (bindTypeArgs fuel typeArgs cs)
      (bindTypeArgs fuel typeArgs ds) := by
  unfold bindTypeArgs
  split
  · exact .pure h
  · refine (Attempt.Rel.mapM (R := Rel R) (fun c d hcd ↦ rel_bindExplicit hcd typeArgs) h).bind
      fun _ _ hf ↦ ?_
    exact .pure (forall₂_filterMap_id hf)

theorem rel_pack (h : Rel R c d) : Attempt.Rel Eq (Rel R) c.pack d.pack := by
  unfold pack
  rw [h.method]
  split
  · refine .same_bind _ fun r ↦ ?_
    refine (rel_packRest hR d.method h.args).bind fun _ _ hargs ↦ ?_
    exact .pure ⟨h.receiver, rfl, h.substitution, hargs, h.isExtension⟩
  · exact .pure h

omit hR in
theorem rank_congr (h : Rel R c d) : c.rank = d.rank := by
  unfold rank
  rw [h.method, h.isExtension, h.substitution]

omit hR in
theorem forall₂_insertRanked (h : Rel R c d) {cs ds : List Candidate}
    (hcs : List.Forall₂ (Rel R) cs ds) :
    List.Forall₂ (Rel R) (insertRanked c cs) (insertRanked d ds) := by
  induction hcs with
  | nil => exact .cons h .nil
  | cons hxy hxs ih =>
    rw [insertRanked, insertRanked, rank_congr h, rank_congr hxy]
    split
    · exact .cons h (.cons hxy hxs)
    · exact .cons hxy ih

omit hR in
theorem forall₂_ranked {cs ds : List Candidate} (h : List.Forall₂ (Rel R) cs ds) :
    List.Forall₂ (Rel R) (ranked cs) (ranked ds) := by
  induction h with
  | nil => exact .nil
  | cons hxy _ ih => exact forall₂_insertRanked hxy ih

omit hR in
theorem forall₂_takeWhile_rank {cs ds : List Candidate} (h : List.Forall₂ (Rel R) cs ds) (k : Rank) :
    List.Forall₂ (Rel R) (cs.takeWhile (·.rank = k)) (ds.takeWhile (·.rank = k)) := by
  induction h with
  | nil => exact .nil
  | cons hxy _ ih =>
    rw [List.takeWhile_cons, List.takeWhile_cons, rank_congr hxy]
    split
    · exact .cons hxy ih
    · exact .nil

omit hR in
theorem map_describe_congr {cs ds : List Candidate} (h : List.Forall₂ (Rel R) cs ds) :
    cs.map (describe r) = ds.map (describe r) := by
  induction h with
  | nil => rfl
  | cons hxy _ ih => rw [List.map_cons, List.map_cons, ih, describe, describe, hxy.method]

omit hR in
theorem rel_best (ambiguity : Ambiguity) (span : Span) {cs ds : List Candidate}
    (h : List.Forall₂ (Rel R) cs ds) :
    Attempt.Rel Eq (Option.Rel (Rel R))
      (Attempt.ofExcept (best r ambiguity span cs) : Attempt Registry CompileError (Option Candidate))
      (Attempt.ofExcept (best r ambiguity span ds)) := by
  have hranked := forall₂_ranked h
  unfold best
  generalize ranked cs = xs at hranked
  generalize ranked ds = ys at hranked
  cases hranked with
  | nil => exact .pure .none
  | @cons x y xs ys hxy hxs =>
    have htied := forall₂_takeWhile_rank hxs y.rank
    have hnil : xs.takeWhile (·.rank = y.rank) ≠ [] ↔ ys.takeWhile (·.rank = y.rank) ≠ [] := by
      rw [← List.length_pos_iff, ← List.length_pos_iff, htied.length_eq]
    simp only [rank_congr hxy, hnil, map_describe_congr (.cons hxy htied), hxy.method]
    split
    · exact .fail _
    · exact .pure (.some hxy)

theorem rel_emit (h : Rel R c d) : R (c.emit r) (d.emit r) := by
  have hargs : List.Forall₂ R (c.emitted r) (d.emitted r) := by
    unfold emitted
    rw [h.method]
    generalize d.method.params = ps
    have hcd := h.args
    generalize c.args = as at hcd
    generalize d.args = bs at hcd
    induction hcd generalizing ps with
    | nil => cases ps <;> exact .nil
    | cons hab _ ih =>
      cases ps with
      | nil => exact .nil
      | cons p ps => exact .cons (coerce_congr hR hab p.type) (ih ps)
  rw [emit_eq, emit_eq, h.method]
  split
  · exact hR.new _ _ hargs
  · exact hR.call _ _ h.receiver hargs

end Candidate

/-- Related receivers and arguments lead to related calls, by way of the same registries. -/
theorem rel_dispatch (hR : Expr.Congruence R) (ambiguity : Ambiguity) (span : Span)
    {receiver receiver' : Option Expr} (hr : Option.Rel R receiver receiver') (members : List Method)
    (typeArgs : List TypeId) (h : List.Forall₂ R as bs) :
    Attempt.Rel Eq (Option.Rel R) (dispatch fuel ambiguity span receiver members typeArgs as)
      (dispatch fuel ambiguity span receiver' members typeArgs bs) := by
  have hcandidates : List.Forall₂ (Candidate.Rel R) (members.map (.ofMethod receiver as))
      (members.map (.ofMethod receiver' bs)) := by
    rw [List.forall₂_map_left_iff, List.forall₂_map_right_iff]
    exact List.forall₂_same.2 fun m _ ↦ Candidate.rel_ofMethod hr h m
  unfold dispatch
  refine (Candidate.rel_bindTypeArgs hcandidates typeArgs).bind fun _ _ hbound ↦ ?_
  refine (Attempt.Rel.mapM (R := Candidate.Rel R) (fun c d hcd ↦ Candidate.rel_settle hR hcd)
    hbound).bind fun _ _ hsettled ↦ ?_
  refine (Attempt.Rel.mapM (R := Candidate.Rel R) (fun c d hcd ↦ Candidate.rel_pack hR hcd)
    (forall₂_filterMap_id hsettled)).bind fun _ _ hpacked ↦ ?_
  refine .same_bind _ fun r ↦ (Candidate.rel_best ambiguity span hpacked).bind fun _ _ hbest ↦ ?_
  cases hbest with
  | none => exact .pure .none
  | some hcd => exact .pure (.some (Candidate.rel_emit hR hcd))

theorem rel_accessMember (hR : Expr.Congruence R) {receiver receiver' : Option Expr}
    (hr : Option.Rel R receiver receiver') (members : List Member) (h : List.Forall₂ R as bs) :
    Option.Rel R (accessMember r receiver members as) (accessMember r receiver' members bs) := by
  have hempty : as.isEmpty = bs.isEmpty := by
    cases h <;> rfl
  have htakes : (fun d : Member ↦ d.takes r as) = fun d ↦ d.takes r bs := by
    funext d
    rw [Member.takes, Member.takes, hempty]
  unfold accessMember
  rw [htakes]
  cases members.find? (·.takes r bs) with
  | none => exact .none
  | some d =>
    refine .some (hR.member d d.type ?_ h)
    split
    · exact .none
    · exact hr

end CallResolution
