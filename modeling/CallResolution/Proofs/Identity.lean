import CallResolution.TypeId
import Mathlib.Logic.ExistsUnique
import Mathlib.Logic.Function.Basic

namespace CallResolution

variable {α : Type} {xs ys : List α}

/-- Lists of one length that differ at exactly one position. -/
def DifferOnce (xs ys : List α) : Prop := xs.length = ys.length ∧ ∃! i : Nat, xs[i]? ≠ ys[i]?

theorem DifferOnce.exists_split (h : DifferOnce xs ys) :
    ∃ before x y after, x ≠ y ∧ xs = before ++ x :: after ∧ ys = before ++ y :: after := by
  obtain ⟨hlen, i, hi, hunique⟩ := h
  have hsame : ∀ j, j ≠ i → xs[j]? = ys[j]? := fun j hj ↦ not_not.1 fun hne ↦ hj (hunique j hne)
  have hx : i < xs.length := by
    by_contra hout
    refine hi ?_
    rw [List.getElem?_eq_none (by omega), List.getElem?_eq_none (by omega)]
  have hy : i < ys.length := hlen ▸ hx
  have htake : xs.take i = ys.take i := by
    refine List.ext_getElem? fun j ↦ ?_
    rw [List.getElem?_take, List.getElem?_take]
    split
    · exact hsame j (by omega)
    · rfl
  have hdrop : xs.drop (i + 1) = ys.drop (i + 1) := by
    refine List.ext_getElem? fun j ↦ ?_
    rw [List.getElem?_drop, List.getElem?_drop]
    exact hsame (i + 1 + j) (by omega)
  refine ⟨xs.take i, xs[i], ys[i], xs.drop (i + 1), fun heq ↦ hi ?_, ?_, ?_⟩
  · rw [List.getElem?_eq_getElem hx, List.getElem?_eq_getElem hy, heq]
  · rw [← List.drop_eq_getElem_cons hx, List.take_append_drop]
  · rw [htake, hdrop, ← List.drop_eq_getElem_cons hy, List.take_append_drop]

theorem differOnce_append_cons {x y : α} (before after : List α) (hne : x ≠ y) :
    DifferOnce (before ++ x :: after) (before ++ y :: after) := by
  refine ⟨by simp, before.length, by simpa using hne, fun j hj ↦ ?_⟩
  by_contra hother
  refine hj ?_
  rcases Nat.lt_or_gt_of_ne hother with hlt | hgt
  · rw [List.getElem?_append_left hlt, List.getElem?_append_left hlt]
  · obtain ⟨k, hk⟩ : ∃ k, j - before.length = k + 1 := ⟨j - before.length - 1, by omega⟩
    rw [List.getElem?_append_right (by omega), List.getElem?_append_right (by omega), hk,
      List.getElem?_cons_succ, List.getElem?_cons_succ]

namespace TypeId

variable {ps qs : List TypeId}

theorem bits_injective : Function.Injective bits := by
  rintro ⟨x⟩ ⟨y⟩ h
  exact congrArg mk h

def separatorInverse : UInt64 := 0xd3f20f0a40208825

theorem separator_mul_inverse : separator * separatorInverse = 1 := by decide

theorem mul_separator_injective : Function.Injective fun x : UInt64 ↦ x * separator := by
  intro x y h
  have hback := congrArg (· * separatorInverse) h
  simpa only [UInt64.mul_assoc, separator_mul_inverse, UInt64.mul_one] using hback

theorem xor_mul_separator_injective (mark : UInt64) :
    Function.Injective fun x : UInt64 ↦ mark ^^^ (x * separator) :=
  fun _ _ h ↦ mul_separator_injective ((UInt64.xor_right_inj mark).1 h)

theorem mixFrom_injective (i : Nat) (parts : List TypeId) : Function.Injective (mixFrom i · parts) := by
  induction parts generalizing i with
  | nil => exact Function.injective_id
  | cons part parts ih =>
    intro x y h
    have hround := ih (i + 1) h
    exact mul_separator_injective ((UInt64.add_left_inj _).1 hround)

theorem mixFrom_cons_injective (i : Nat) (seed : UInt64) (parts : List TypeId) :
    Function.Injective fun part ↦ mixFrom i seed (part :: parts) := by
  intro x y h
  have hround := mixFrom_injective (i + 1) parts h
  have hxor := (UInt64.add_right_inj _).1 hround
  exact bits_injective ((UInt64.xor_right_inj _).1 hxor)

theorem mixFrom_append (i : Nat) (seed : UInt64) (ps qs : List TypeId) :
    mixFrom i seed (ps ++ qs) = mixFrom (i + ps.length) (mixFrom i seed ps) qs := by
  induction ps generalizing i seed with
  | nil => rfl
  | cons p ps ih =>
    rw [List.cons_append, mixFrom, mixFrom, ih, List.length_cons, Nat.add_right_comm, Nat.add_assoc]

theorem mix_ne_of_differOnce (seed : UInt64) (h : DifferOnce ps qs) : mix seed ps ≠ mix seed qs := by
  obtain ⟨before, x, y, after, hne, rfl, rfl⟩ := h.exists_split
  intro heq
  rw [mix, mix, mixFrom_append, mixFrom_append] at heq
  exact hne (mixFrom_cons_injective _ _ _ heq)

/-- Identities tell their parts apart one at a time: what an instance, a method or a constructor belongs
to, each single argument or parameter type wherever it stands, and what a static view or a slot is of. -/
theorem apart_of_single_difference :
    (∀ args, Function.Injective (ofInstance · args)) ∧
      (∀ template args args', DifferOnce args args' → ofInstance template args ≠ ofInstance template args') ∧
      (∀ name params, Function.Injective (ofMethod · name params)) ∧
      (∀ owner name params params', DifferOnce params params' →
        ofMethod owner name params ≠ ofMethod owner name params') ∧
      (∀ params, Function.Injective (ofConstructor · params)) ∧
      (∀ owner params params', DifferOnce params params' →
        ofConstructor owner params ≠ ofConstructor owner params') ∧
      Function.Injective ofStatic ∧ Function.Injective builtin := by
  have hseed : ∀ parts {x y}, mk (mix x parts) = mk (mix y parts) → x = y := fun parts _ _ h ↦
    mixFrom_injective 0 parts (congrArg bits h)
  have hparts : ∀ seed {ps qs}, DifferOnce ps qs → mk (mix seed ps) ≠ mk (mix seed qs) :=
    fun seed _ _ h heq ↦ mix_ne_of_differOnce seed h (congrArg bits heq)
  refine ⟨fun args x y h ↦ bits_injective (hseed args h), fun template _ _ ↦ hparts _,
    fun name params x y h ↦ ?_, fun owner name _ _ ↦ hparts _, fun params x y h ↦ ?_,
    fun owner _ _ ↦ hparts _, fun x y h ↦ ?_, fun x y h ↦ ?_⟩
  · have howner := (UInt64.xor_left_inj _).1 (hseed params h)
    exact bits_injective ((UInt64.xor_right_inj _).1 howner)
  · exact bits_injective ((UInt64.xor_right_inj _).1 (hseed params h))
  · exact bits_injective (xor_mul_separator_injective staticMark (congrArg bits h))
  · exact xor_mul_separator_injective builtinMark (congrArg bits h)

/-- Two more types than there are markers, with `t` as the last. -/
def eighteenTypes (t : TypeId) : List TypeId := List.replicate 17 int ++ [t]

theorem apart_of_single_difference_eighteen :
    DifferOnce (eighteenTypes int) (eighteenTypes string) ∧
      ofInstance array (eighteenTypes int) ≠ ofInstance array (eighteenTypes string) ∧
      ofMethod object "pack" (eighteenTypes int) ≠ ofMethod object "pack" (eighteenTypes string) ∧
      ofConstructor object (eighteenTypes int) ≠ ofConstructor object (eighteenTypes string) := by
  have hdiffer : DifferOnce (eighteenTypes int) (eighteenTypes string) :=
    differOnce_append_cons (List.replicate 17 int) [] (by decide)
  obtain ⟨-, hinstance, -, hmethod, -, hconstructor, -⟩ := apart_of_single_difference
  exact ⟨hdiffer, hinstance _ _ _ hdiffer, hmethod _ _ _ _ hdiffer, hconstructor _ _ _ hdiffer⟩

example : ofInstance array [⟨0⟩, ⟨0⟩] = ofInstance array [⟨1⟩, ⟨0xb479d3b5f1a1dcdf⟩] := by decide

end TypeId

end CallResolution
