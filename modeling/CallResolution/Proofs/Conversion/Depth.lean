import CallResolution.Conversion
import CallResolution.Proofs.Answer

namespace CallResolution.Registry

variable (r : Registry)

theorem isOpen_succ (fuel : Nat) (t : TypeId) : Refines (r.isOpen fuel t) (r.isOpen (fuel + 1) t) := by
  induction fuel generalizing t with
  | zero => exact .none _
  | succ fuel ih =>
    rw [isOpen, isOpen]
    split
    · exact .refl _
    · exact .anyM ih _

theorem normalize_succ (fuel : Nat) (t : TypeId) :
    Refines (r.normalize fuel t) (r.normalize (fuel + 1) t) := by
  unfold normalize
  split
  · exact .refl _
  · exact (r.isOpen_succ fuel t).bind fun _ ↦ .refl _

theorem baseChain_succ (fuel : Nat) (seen : List TypeId) (base : Option TypeId) :
    Refines (r.baseChain fuel seen base) (r.baseChain (fuel + 1) seen base) := by
  induction fuel generalizing seen base with
  | zero =>
    cases base with
    | none => exact .refl _
    | some t => exact .none _
  | succ fuel ih =>
    cases base with
    | none => exact .refl _
    | some t =>
      rw [baseChain, baseChain]
      split
      · exact .refl _
      · exact (ih _ _).bind fun _ ↦ .refl _

theorem visitContract_succ (fuel : Nat) (seen : List TypeId) (t : TypeId) :
    Refines (r.visitContract fuel seen t) (r.visitContract (fuel + 1) seen t) := by
  induction fuel generalizing seen t with
  | zero => exact .none _
  | succ fuel ih =>
    rw [visitContract, visitContract]
    split
    · exact .refl _
    · exact .foldlM ih _ _

theorem visitConvertible_succ (fuel : Nat) (seen : List TypeId) (t : TypeId) :
    Refines (r.visitConvertible fuel seen t) (r.visitConvertible (fuel + 1) seen t) := by
  induction fuel generalizing seen t with
  | zero => exact .none _
  | succ fuel ih =>
    rw [visitConvertible, visitConvertible]
    refine (r.baseChain_succ fuel _ _).bind fun chain ↦ ?_
    refine (Refines.foldlM (r.visitContract_succ fuel) _ _).bind fun visited ↦ ?_
    dsimp only
    split
    · exact .refl _
    · refine (r.isOpen_succ fuel t).bind fun b ↦ ?_
      cases b with
      | true => exact .refl _
      | false => exact ih _ _

theorem convertible_succ (fuel : Nat) (t : TypeId) :
    Refines (r.convertible fuel t) (r.convertible (fuel + 1) t) := r.visitConvertible_succ fuel [] t

theorem satisfies_accepts_succ (fuel : Nat) (param arg : TypeId) :
    Refines (r.satisfies fuel param arg) (r.satisfies (fuel + 1) param arg) ∧
      Refines (r.accepts fuel param arg) (r.accepts (fuel + 1) param arg) := by
  induction fuel generalizing param arg with
  | zero => exact ⟨.none _, .none _⟩
  | succ fuel ih =>
    constructor
    · rw [satisfies, satisfies]
      split
      · exact .refl _
      · split
        · exact .allM (fun bound ↦ (ih bound arg).2) _
        · exact .refl _
    · rw [accepts, accepts]
      split
      · exact .refl _
      · split
        · exact (ih param arg).1
        · refine (r.normalize_succ fuel param).bind fun target ↦ ?_
          refine (r.convertible_succ fuel arg).bind fun types ↦ .anyM (fun t ↦ ?_) types
          split
          · exact .refl _
          · exact (r.normalize_succ fuel t).bind fun _ ↦ .refl _

theorem satisfies_succ (fuel : Nat) (param arg : TypeId) :
    Refines (r.satisfies fuel param arg) (r.satisfies (fuel + 1) param arg) :=
  (r.satisfies_accepts_succ fuel param arg).1

theorem acceptsExpr_succ (fuel : Nat) (param : TypeId) (arg : Expr) :
    Refines (r.acceptsExpr fuel param arg) (r.acceptsExpr (fuel + 1) param arg) := by
  have haccepts (param arg : TypeId) := (r.satisfies_accepts_succ fuel param arg).2
  unfold acceptsExpr
  split
  · split
    · exact .refl _
    · refine .bind (.allM (fun p ↦ ?_) _) fun matched ↦ ?_
      · dsimp only
        split
        · exact .refl _
        · split
          · exact haccepts _ _
          · exact .refl _
      · split
        · exact haccepts _ _
        · exact .refl _
  · exact haccepts _ _

end CallResolution.Registry
