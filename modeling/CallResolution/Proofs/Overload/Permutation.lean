import CallResolution.Proofs.Overload.Survivors
import CallResolution.Proofs.Registry.Steady
import Mathlib.Data.List.Perm.Basic

namespace CallResolution

open Attempt Registry

namespace Sieve

variable {α β : Type} {step : α → Registry → Option β → Registry → Prop} {as as' : List α} {bs : List β}
  {r s : Registry}

/-- A pass after which the registry is as before takes every element in that registry. -/
theorem steady_iff (hstep : ∀ a r o s, step a r o s → Gains r s) :
    Sieve step as r bs r ↔ ∃ os, List.Forall₂ (step · r · r) as os ∧ os.filterMap id = bs := by
  constructor
  · intro h
    induction as generalizing bs with
    | nil =>
      cases h
      exact ⟨[], .nil, rfl⟩
    | cons a as ih =>
      cases h with
      | drop ha hrest =>
        obtain rfl := (hstep _ _ _ _ ha).antisymm (hrest.along hstep)
        obtain ⟨os, hos, rfl⟩ := ih hrest
        exact ⟨none :: os, .cons ha hos, rfl⟩
      | keep ha hrest =>
        obtain rfl := (hstep _ _ _ _ ha).antisymm (hrest.along hstep)
        obtain ⟨os, hos, rfl⟩ := ih hrest
        exact ⟨some _ :: os, .cons ha hos, rfl⟩
  · rintro ⟨os, hos, rfl⟩
    induction hos with
    | nil => exact .nil
    | @cons a o _ _ ha _ ih =>
      cases o with
      | none => exact .drop ha ih
      | some b => exact .keep ha ih

/-- In another order it keeps the same, in another order. -/
theorem exists_of_perm (hstep : ∀ a r o s, step a r o s → Gains r s) (hperm : as.Perm as')
    (h : Sieve step as r bs r) : ∃ bs', bs.Perm bs' ∧ Sieve step as' r bs' r := by
  obtain ⟨os, hos, rfl⟩ := (steady_iff hstep).1 h
  obtain ⟨os', hos', hperm'⟩ := List.perm_comp_forall₂ hperm.symm hos
  exact ⟨os'.filterMap id, hperm'.symm.filterMap id, (steady_iff hstep).2 ⟨os', hos', rfl⟩⟩

end Sieve

namespace Candidate

variable {fuel : Nat} {typeArgs : List TypeId} {c : Candidate} {o : Option Candidate}
  {cs ds : List Candidate} {r s : Registry}

theorem Binds.gains (h : Binds fuel typeArgs c r o s) : Gains r s := by
  cases h with
  | absent => exact refl _
  | miscounted => exact refl _
  | unsuited => exact refl _
  | bound _ _ _ hd =>
    exact (Method.along_specialize (fun n ↦ (along_instantiate changes_gains n).1) _ _ _).of_done hd

theorem Settles.gains (h : Settles fuel c r o s) : Gains r s :=
  (along_settle (fun n ↦ (along_instantiate changes_gains n).1) c).of_done (settle_eq_done_iff.2 h)

theorem leading_perm (h : cs.Perm ds) : (leading cs).Perm (leading ds) := by
  have hbest (c : Candidate) : (cs.all fun d ↦ c.rank.lex ≤ d.rank.lex) =
      ds.all fun d ↦ c.rank.lex ≤ d.rank.lex := h.all_eq
  simp only [leading, hbest]
  exact h.filter _

end Candidate

section

variable {fuel : Nat} {receiver : Option Expr} {members members' : List Method} {typeArgs : List TypeId}
  {args : List Expr} {r : Registry} {cs : List Candidate} {span : Span} {found : Option Expr}

theorem Survivors.exists_of_perm (hperm : members.Perm members')
    (h : Survivors fuel receiver members typeArgs args r cs r) :
    ∃ cs', cs.Perm cs' ∧ Survivors fuel receiver members' typeArgs args r cs' r := by
  obtain ⟨bound, s, hbound, hsettled⟩ := h
  have hgains : Gains r s := hbound.along fun _ _ _ _ ↦ Candidate.Binds.gains
  obtain rfl := hgains.antisymm (hsettled.along fun _ _ _ _ ↦ Candidate.Settles.gains)
  obtain ⟨bound', hperm', hbound'⟩ :=
    hbound.exists_of_perm (fun _ _ _ _ ↦ Candidate.Binds.gains) (hperm.map _)
  obtain ⟨cs', hperm', hsettled'⟩ :=
    hsettled.exists_of_perm (fun _ _ _ _ ↦ Candidate.Settles.gains) hperm'
  exact ⟨cs', hperm', bound', s, hbound', hsettled'⟩

/-- Where ties are rejected, a call that succeeds and makes no types is the same call however the
members are ordered. -/
theorem dispatch_reject_of_perm (hperm : members.Perm members')
    (h : dispatch fuel .reject span receiver members typeArgs args r = .done found r) :
    dispatch fuel .reject span receiver members' typeArgs args r = .done found r := by
  obtain ⟨cs, hcs⟩ := exists_survivors_of_dispatch h
  obtain ⟨cs', hperm', hcs'⟩ := hcs.exists_of_perm hperm
  by_cases hnil : cs = []
  · subst hnil
    obtain rfl := hperm'.nil_eq
    rw [← h, hcs.dispatch_nil, hcs'.dispatch_nil]
  · obtain ⟨c, tied, hleading⟩ := Candidate.exists_leading hnil
    obtain ⟨packed, hpack, hrun⟩ := hcs.dispatch_of_leading hleading span
    rw [hrun] at h
    split at h
    · cases h
    · rename_i htied
      obtain rfl : tied = [] := by simpa using htied
      have hleading' : Candidate.leading cs' = [c] := by
        rw [← List.perm_singleton, ← hleading]
        exact (Candidate.leading_perm hperm').symm
      obtain ⟨packed', hpack', hrun'⟩ := hcs'.dispatch_of_leading hleading' span
      cases hpack.symm.trans hpack'
      rw [hrun', if_neg htied, h]

end

def showItem : TypeId := .ofParam "show" "T"

def showItemTypes : Registry :=
  showTypes.insertParam { name := "T", id := showItem, kind := .parameter { owner := "show", index := 0 } }

/-- Methods `show` for several integers, for a value of any type, for an integer, for an integer as an
extension, and for a string. -/
def showOverloads : List Method :=
  [showOf 81 (.ofInstance .array [.int]) true, { showOf 85 showItem false with typeParams := [showItem] },
    showOf 83 .int false, (showOf 86 .int false).asExtension, showOf 82 .string false]

/-- The call `show(1)`: the generic method is the best of the four that take it, from either end. -/
theorem dispatch_reject_of_perm_show : ∃ e,
    dispatch 6 .reject .unknown none showOverloads [] [.literal (.int 1)] showItemTypes =
      .done (some e) showItemTypes ∧
    e.call?.map (·.2.1.typeArgs) = some [.int] ∧
    dispatch 6 .reject .unknown none showOverloads.reverse [] [.literal (.int 1)] showItemTypes =
      .done (some e) showItemTypes := by
  have hvalue : (dispatch 6 .reject .unknown none showOverloads [] [.literal (.int 1)]
      showItemTypes).value?.any (fun found ↦ found.any fun e ↦
        decide (e.call?.map (·.2.1.typeArgs) = some [.int])) = true := by decide +kernel
  have hsize : (dispatch 6 .reject .unknown none showOverloads [] [.literal (.int 1)]
      showItemTypes).state?.map (·.instances.size) = some showItemTypes.instances.size := by decide +kernel
  obtain ⟨found, hfound, hvalue⟩ := (Option.any_eq_true _ _).1 hvalue
  obtain ⟨e, rfl, he⟩ := (Option.any_eq_true _ _).1 hvalue
  obtain ⟨r', hrun⟩ := Outcome.exists_done hfound
  rw [hrun] at hsize
  have hgains : Gains showItemTypes r' :=
    (along_dispatch (fun n ↦ (along_instantiate changes_gains n).1) _ _ _ _ _ _).of_done hrun
  obtain rfl := hgains.eq_of_size ((along_dispatch grows_substitute _ _ _ _ _ _).of_done hrun)
    (Option.some.inj hsize)
  exact ⟨e, hrun, of_decide_eq_true he, dispatch_reject_of_perm (List.reverse_perm _).symm hrun⟩

end CallResolution
