import CallResolution.Conversion
import CallResolution.Proofs.Answer
import CallResolution.Proofs.Registry.Steady

namespace CallResolution.Registry

variable {r : Registry} {n : Nat} {map : Substitution} {t x template : TypeId}

theorem isOpen_eq_false_iff : r.isOpen (n + 1) t = some false ↔
    r.isParam t = false ∧ ∀ a ∈ r.typeArgs t, r.isOpen n a = some false := by
  rw [isOpen, ← anyM_eq_some_false_iff]
  cases r.isParam t <;> simp

theorem not_isParam_of_not_open (h : r.isOpen n t = some false) :
    r.isParam t = false ∧ ∃ m, ∀ a ∈ r.typeArgs t, r.isOpen m a = some false := by
  cases n with
  | zero => cases h
  | succ n =>
    obtain ⟨hparam, hargs⟩ := isOpen_eq_false_iff.1 h
    exact ⟨hparam, n, hargs⟩

/-- `x` is what `t` is the static view of, or something among the arguments of `t`, however deep. Whether a
type is open is asked of its arguments only, while a substitution goes on from a view to what it views. -/
inductive Exposes (r : Registry) : TypeId → TypeId → Prop
  | view {t x : TypeId} (hs : r.staticTarget? t = some x) : Exposes r t x
  | arg {t a x template : TypeId} (hs : r.staticTarget? t = none) (ht : r.template? t = some template)
      (ha : a ∈ r.typeArgs t) (h : Exposes r a x) : Exposes r t x

variable (hmap : ∀ k b, map.find? k = some b → r.isParam k = true)

include hmap

theorem find?_eq_none_of_isParam (h : r.isParam t = false) : map.find? t = none := by
  cases hb : map.find? t with
  | none => rfl
  | some b =>
    rw [hmap t b hb] at h
    cases h

theorem becomes_self_of_exposes (hopen : r.isOpen n t = some false)
    (hviews : ∀ x, r.Exposes t x → r.Becomes map x x) : r.Becomes map t t := by
  induction n generalizing t with
  | zero => cases hopen
  | succ n ih =>
    obtain ⟨hparam, hargs⟩ := isOpen_eq_false_iff.1 hopen
    have hkey := find?_eq_none_of_isParam hmap hparam
    cases hs : r.staticTarget? t with
    | some x => exact (becomes_view_iff hkey hs).2 ⟨x, hviews x (.view hs), .inl ⟨not_not.2 rfl, rfl⟩⟩
    | none =>
      cases ht : r.template? t with
      | none => exact (becomes_plain_iff hkey hs ht).2 rfl
      | some template =>
        refine (becomes_instance_iff hkey hs ht).2 ⟨r.typeArgs t, ?_, .inl ⟨not_not.2 rfl, rfl⟩⟩
        refine List.forall₂_same.2 fun a ha ↦ ih (hargs a ha) fun x hx ↦ ?_
        exact hviews x (.arg hs ht ha hx)

/-- Handles that have not been mistaken give away that something under them was replaced. -/
theorem exposes_becomes_self (hx : r.Exposes t x) (hopen : r.isOpen n t = some false)
    (hclear : ∀ u, r.Comprises t u → r.Unmistaken map u) (h : r.Becomes map t t) : r.Becomes map x x := by
  induction hx generalizing n with
  | view hs =>
    rename_i t x
    have hkey := find?_eq_none_of_isParam hmap (not_isParam_of_not_open hopen).1
    obtain ⟨w, hw, hsame | ⟨hne, heq, hknown⟩⟩ := (becomes_view_iff hkey hs).1 h
    · rwa [not_not.1 hsame.1] at hw
    · have hview : r.staticTarget? t = some w := heq ▸ (hclear t .refl).view x w hs hw hknown
      exact absurd (Option.some.inj (hview.symm.trans hs)) hne
  | arg hs ht ha _ ih =>
    rename_i t a x template _
    obtain ⟨hparam, m, hargs⟩ := not_isParam_of_not_open hopen
    have hkey := find?_eq_none_of_isParam hmap hparam
    have hpart : r.HasPart t a := .inr ha
    obtain ⟨ws, hws, hsame | ⟨hne, heq, hknown⟩⟩ := (becomes_instance_iff hkey hs ht).1 h
    · rw [not_not.1 hsame.1] at hws
      exact ih (hargs a ha) (fun u hu ↦ hclear u (.head hpart hu)) (List.forall₂_same.1 hws a ha)
    · have hinst := ((hclear t .refl).inst template ws hs ht hws hknown).typeArgs
      rw [← heq] at hinst
      exact absurd hinst.symm hne

/-- A type that is not open stays what it is under every substitution of type parameters if all types stay
that it exposes through static views. If no handles clash, this is also necessary. -/
theorem not_open_becomes_self (hopen : r.isOpen n t = some false) :
    ((∀ x, r.Exposes t x → r.Becomes map x x) → r.Becomes map t t) ∧
      ((∀ u, r.Comprises t u → r.Unmistaken map u) → r.Becomes map t t →
        ∀ x, r.Exposes t x → r.Becomes map x x) :=
  ⟨becomes_self_of_exposes hmap hopen, fun hclear h _ hx ↦ exposes_becomes_self hmap hx hopen hclear h⟩

omit hmap

def tag : TypeId := .ofName "Tag"
def tagParam : TypeId := .ofParam "Tag" "T"

/-- A tag is made for a type that is used as a value. -/
def tagOf (x : TypeId) : TypeId := .ofInstance tag [.ofStatic x]

def makeTag : Attempt Registry RegistrationError TypeId := do
  let item ← registerParam "T" { owner := "Tag", index := 0 }
  let _ ← register { name := "Tag", id := tag, kind := .classType, typeParams := [item] }
  let view ← staticWrapper item
  let _ ← instantiate 2 tag [view]
  let view ← staticWrapper .int
  instantiate 2 tag [view]

def tagTypes : Registry := (makeTag builtin).state?.getD {}

theorem reachable_tagTypes : Reachable TypeDecl.IsDeclaration tagTypes := by
  refine reachable_getD ((keeps_registerParam _ _).bind fun _ ↦ (keeps_register ⟨rfl, rfl⟩).bind fun _ ↦ ?_)
  refine (keeps_staticWrapper _).bind fun _ ↦ (keeps_instantiate _ _ _).bind fun _ ↦ ?_
  exact (keeps_staticWrapper _).bind fun _ ↦ keeps_instantiate _ _ _

theorem exposes_tagOf_int (h : tagTypes.Exposes (tagOf .int) x) : x = .int := by
  have hs : tagTypes.staticTarget? (tagOf .int) = none := by decide +kernel
  have hargs : tagTypes.typeArgs (tagOf .int) = [.ofStatic .int] := by decide +kernel
  have hview : tagTypes.staticTarget? (.ofStatic .int) = some .int := by decide +kernel
  cases h with
  | view h => simp [hs] at h
  | arg _ _ ha h =>
    rw [hargs, List.mem_singleton] at ha
    subst ha
    cases h with
    | view h => exact Option.some.inj (h.symm.trans hview)
    | arg h => simp [hview] at h

/-- A tag of the parameter is not open, and yet it becomes a tag of `int`. A tag of `int` stays. -/
theorem not_open_becomes_self_tag :
    Reachable TypeDecl.IsDeclaration tagTypes ∧
      tagTypes.isOpen 2 (tagOf tagParam) = some false ∧
      tagTypes.Becomes (.ofList [(tagParam, .int)]) (tagOf tagParam) (tagOf .int) ∧
      ¬tagTypes.Becomes (.ofList [(tagParam, .int)]) (tagOf tagParam) (tagOf tagParam) ∧
      tagTypes.isOpen 2 (tagOf .int) = some false ∧
      tagTypes.Becomes (.ofList [(tagParam, .int)]) (tagOf .int) (tagOf .int) := by
  have hmap : ∀ k b, (Dictionary.ofList [(tagParam, TypeId.int)]).find? k = some b →
      tagTypes.isParam k = true := by
    intro k b hb
    cases List.mem_singleton.1 (Dictionary.mem_of_find?_ofList hb)
    decide +kernel
  have hclear : ∀ u, tagTypes.Comprises (tagOf tagParam) u →
      tagTypes.Unmistaken (.ofList [(tagParam, .int)]) u :=
    unmistaken_of_parts 4 [tagOf tagParam, .ofStatic tagParam, tagParam] (by decide +kernel) (by decide +kernel)
      (by decide +kernel) (by decide +kernel) (by decide +kernel)
  have htemplate : tagTypes.template? (tagOf tagParam) = some tag := by decide +kernel
  have hview : tagTypes.Exposes (tagOf tagParam) tagParam :=
    .arg (a := .ofStatic tagParam) (by decide +kernel) htemplate (by decide +kernel) (.view (by decide +kernel))
  have hopen : tagTypes.isOpen 2 (tagOf tagParam) = some false := by decide +kernel
  have hclosed : tagTypes.isOpen 2 (tagOf .int) = some false := by decide +kernel
  refine ⟨reachable_tagTypes, hopen, becomes_of_size (n := 4) (by decide +kernel) (by decide +kernel), ?_,
    hclosed, (not_open_becomes_self hmap hclosed).1 ?_⟩
  · intro h
    have hself := (not_open_becomes_self hmap hopen).2 hclear h tagParam hview
    rw [becomes_bound_iff (u := .int) (by decide +kernel)] at hself
    revert hself
    decide +kernel
  · intro x hx
    rw [exposes_tagOf_int hx]
    exact becomes_of_size (n := 1) (by decide +kernel) (by decide +kernel)

end CallResolution.Registry
