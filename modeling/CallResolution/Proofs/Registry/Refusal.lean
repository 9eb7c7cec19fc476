import CallResolution.Proofs.Registry.Failure

namespace CallResolution.Registry

open Attempt

variable {r r' : Registry} {fuel : Nat} {t template : TypeId} {args : List TypeId} {d entry : TypeDecl}
  {e : RegistrationError}

/-- The instance cannot be made, for the reason that the error gives. -/
inductive Malformed (r : Registry) (template : TypeId) (args : List TypeId) : RegistrationError → Prop
  | unknown (h : r.find? template = none) : Malformed r template args (.typeNotFound template.render)
  | notATemplate {d : TypeDecl} (hd : r.find? template = some d) (h : d.isTemplate = false) :
      Malformed r template args (.notATemplate d.name)
  | arity {d : TypeDecl} (hd : r.find? template = some d) (ht : d.isTemplate = true)
      (h : d.typeParams.length ≠ args.length) :
      Malformed r template args (.typeArgCount d.name d.typeParams.length args.length)

theorem refused_iff : Refused r template args e ↔
    r.contains (.ofInstance template args) = false ∧ Malformed r template args e := by
  constructor
  · intro h
    cases h with
    | unknown hnew h => exact ⟨hnew, .unknown h⟩
    | notATemplate hnew hd h => exact ⟨hnew, .notATemplate hd h⟩
    | arity hnew hd ht h => exact ⟨hnew, .arity hd ht h⟩
  · rintro ⟨hnew, h⟩
    cases h with
    | unknown h => exact .unknown hnew h
    | notATemplate hd h => exact .notATemplate hnew hd h
    | arity hd ht h => exact .arity hnew hd ht h

theorem not_malformed (hd : r.find? template = some d) (ht : d.isTemplate = true)
    (ha : d.typeParams.length = args.length) : ¬Malformed r template args e := by
  intro h
  cases h with
  | unknown h => simp [hd] at h
  | notATemplate hd' h =>
    cases hd.symm.trans hd'
    simp [ht] at h
  | arity hd' _ h =>
    cases hd.symm.trans hd'
    exact h ha

/-- The handle of the instance, if it is taken, has been given to that instance. -/
def Reserved (r : Registry) (template : TypeId) (args : List TypeId) : Prop :=
  ∀ e, r.find? (.ofInstance template args) = some e →
    r.instances.find? (.ofInstance template args) = some e ∧ e.template = some template ∧ e.typeArgs = args

/-- What is kept under its own handle has passed the checks. -/
theorem Reserved.not_malformed (h : r.Reserved template args) (hr : r.Coherent)
    (hknown : r.contains (.ofInstance template args) = true) : ¬Malformed r template args e := by
  obtain ⟨entry, hentry⟩ := exists_find?_of_contains hknown
  obtain ⟨hmade, htemplate, hargs⟩ := h entry hentry
  cases (hr.origin _ entry hmade).2 with
  | ofTemplate htemplate' hdecl isTemplate arity _ _ =>
    cases htemplate'.symm.trans htemplate
    refine Registry.not_malformed ?_ isTemplate (arity.trans (congrArg List.length hargs))
    rw [find?, hdecl, Option.some_or]
  | ofTarget _ hnone _ _ =>
    rw [hnone] at htemplate
    cases htemplate

/-- The request is refused at once. -/
theorem instantiate_failed_iff (hnew : r.contains (.ofInstance template args) = false) :
    instantiate (fuel + 1) template args r = .failed e r ↔ Malformed r template args e := by
  constructor
  · intro h
    rcases known_or_refused_or_new r template args with hknown | ⟨e', hrefused⟩ | ⟨d, hmake⟩
    · simp [hnew] at hknown
    · rw [instantiate_of_refused hrefused] at h
      cases h
      exact (refused_iff.1 hrefused).2
    · exact absurd (instantiate_failed_of_new hmake h).2.2.1 (lt_irrefl _)
  · intro h
    exact instantiate_of_refused (refused_iff.2 ⟨hnew, h⟩)

/-- A malformed request is refused, and no other request is refused at once, except that the template itself
stands under the handle of its instance at no arguments: to such a request every known type is the answer,
whether or not it has parameters. -/
theorem instantiate_refuses (hr : Reachable (fun _ ↦ True) r) (hclash : args ≠ [] → r.Reserved template args) :
    (instantiate (fuel + 1) template args r = .failed e r ↔
      Malformed r template args e ∧ (args = [] → r.contains template = false)) ∧
    (args = [] → r.contains template = true → instantiate (fuel + 1) template args r = .done template r) := by
  constructor
  · cases hknown : r.contains (.ofInstance template args) with
    | false =>
      rw [instantiate_failed_iff hknown]
      refine ⟨fun h ↦ ⟨h, ?_⟩, fun h ↦ h.1⟩
      rintro rfl
      exact hknown
    | true =>
      rw [instantiate_of_known hknown]
      refine iff_of_false nofun ?_
      rintro ⟨hmalformed, hnil⟩
      by_cases hargs : args = []
      · subst hargs
        simp [hnil rfl] at hknown
      · exact (hclash hargs).not_malformed hr.coherent hknown hmalformed
  · rintro rfl hknown
    exact instantiate_of_known hknown

theorem instantiate_refuses_array :
    Malformed builtin .array [] (.typeArgCount arrayDecl.name 1 0) ∧
      instantiate 1 .array [] builtin = .done .array builtin ∧
      instantiate 1 .array [.int, .int] builtin = .failed (.typeArgCount arrayDecl.name 1 2) builtin := by
  have hd : builtin.find? .array = some arrayDecl := by decide +kernel
  have hfree : builtin.find? (.ofInstance .array [.int, .int]) = none := by decide +kernel
  have hnil : Malformed builtin .array [] (.typeArgCount arrayDecl.name 1 0) := .arity hd rfl (by decide)
  refine ⟨hnil, ?_, ?_⟩
  · exact (instantiate_refuses (e := .typeArgCount arrayDecl.name 1 0) .builtin fun h ↦ absurd rfl h).2 rfl
      (by decide +kernel)
  · refine (instantiate_refuses .builtin fun _ e he ↦ ?_).1.2 ⟨.arity hd rfl (by decide), nofun⟩
    rw [hfree] at he
    cases he

end CallResolution.Registry
