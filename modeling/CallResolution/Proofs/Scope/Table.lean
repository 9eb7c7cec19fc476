import CallResolution.Proofs.Scope.Inherited
import CallResolution.Scope.TableForest
import Mathlib.Data.List.Nodup
import Mathlib.Data.List.Perm.Basic

namespace CallResolution

open Attempt

variable {α β : Type} {t : SymbolTable α} {k : SymbolKey} {a : α} {ss : List (Slot α)}

def Slot.entry (s : Slot α) : SymbolKey × α := (s.key, s.value)

theorem Scope.digestKeys_perm {ks ls : List SymbolKey} (h : ks.Perm ls) : digestKeys ks = digestKeys ls := by
  apply h.foldl_eq'
  intro k _ l _ acc
  rw [UInt64.xor_assoc, UInt64.xor_assoc, UInt64.xor_comm k.digest]

namespace SymbolTable

/-- The scope that the table stands for. -/
def toScope (t : SymbolTable α) : Scope α where
  entries := t.inOrder.map Slot.entry
  isFrozen := t.isFrozen

/-- No number and no symbol is used twice, and what is remembered is up to date. -/
structure Sound (t : SymbolTable α) : Prop where
  below : ∀ s ∈ t.slots, s.number < t.next
  numbers : (t.slots.map Slot.number).Nodup
  symbols : (t.slots.map (·.key.canonical)).Nodup
  remembered : ∀ value, t.remembered = some value → value = Scope.digestKeys (t.slots.map Slot.key)

theorem sound_empty : ({} : SymbolTable α).Sound := ⟨by simp, by simp, by simp, by simp⟩

theorem toScope_empty : ({} : SymbolTable α).toScope = {} := by simp [toScope, inOrder]

theorem perm_inOrder (t : SymbolTable α) : t.inOrder.Perm t.slots := List.mergeSort_perm _ _

theorem ascending_inOrder (t : SymbolTable α) : t.inOrder.Pairwise fun s u ↦ s.number ≤ u.number := by
  have htrans (s u v : Slot α) (hsu : decide (s.number ≤ u.number) = true)
      (huv : decide (u.number ≤ v.number) = true) : decide (s.number ≤ v.number) = true := by
    simp only [decide_eq_true_eq] at *
    omega
  have htotal (s u : Slot α) : (decide (s.number ≤ u.number) || decide (u.number ≤ s.number)) = true := by
    simp only [Bool.or_eq_true, decide_eq_true_eq]
    omega
  exact (List.pairwise_mergeSort htrans htotal t.slots).imp of_decide_eq_true

theorem strictly_ascending (ht : t.Sound) : t.inOrder.Pairwise fun s u ↦ s.number < u.number := by
  have hne : t.inOrder.Pairwise fun s u ↦ s.number ≠ u.number :=
    List.pairwise_map.1 ((t.perm_inOrder.map Slot.number).nodup_iff.2 ht.numbers)
  exact (t.ascending_inOrder.and hne).imp fun h ↦ lt_of_le_of_ne h.1 h.2

/-- There is one way to put the slots in order. -/
theorem inOrder_eq (hperm : ss.Perm t.slots) (hss : ss.Pairwise fun s u ↦ s.number < u.number) :
    t.inOrder = ss := by
  have hnumbers : (ss.map Slot.number).Nodup := List.pairwise_map.2 (hss.imp fun h ↦ h.ne)
  apply (t.perm_inOrder.trans hperm.symm).eq_of_pairwise _ t.ascending_inOrder (hss.imp fun h ↦ h.le)
  intro s u hs hu hsu hus
  have hs : s ∈ ss := (t.perm_inOrder.trans hperm.symm).mem_iff.1 hs
  exact List.inj_on_of_nodup_map hnumbers hs hu (le_antisymm hsu hus)

/-- It does not matter in which order the slots are kept. -/
theorem toScope_shuffle (ht : t.Sound) (h : t.slots.Perm ss) :
    ({ t with slots := ss } : SymbolTable α).toScope = t.toScope := by
  have horder : ({ t with slots := ss } : SymbolTable α).inOrder = t.inOrder :=
    inOrder_eq (t.perm_inOrder.trans h) (strictly_ascending ht)
  rw [toScope, toScope, horder]

theorem sound_shuffle (ht : t.Sound) (h : t.slots.Perm ss) :
    ({ t with slots := ss } : SymbolTable α).Sound where
  below s hs := ht.below s (h.mem_iff.2 hs)
  numbers := (h.map _).nodup_iff.1 ht.numbers
  symbols := (h.map _).nodup_iff.1 ht.symbols
  remembered value hvalue := by
    rw [ht.remembered value hvalue]
    exact Scope.digestKeys_perm (h.map _)

theorem isFrozen_toScope (t : SymbolTable α) : t.toScope.isFrozen = t.isFrozen := rfl

theorem size_toScope (t : SymbolTable α) : t.toScope.size = t.size := by
  simp [toScope, Scope.size, size, t.perm_inOrder.length_eq]

theorem keys_toScope (t : SymbolTable α) : t.toScope.keys = t.keys := by
  simp [toScope, Scope.keys, keys, Slot.entry]

theorem contains_toScope (t : SymbolTable α) (k : SymbolKey) : t.toScope.contains k = t.contains k := by
  simp only [toScope, Scope.contains, contains, List.any_map]
  exact t.perm_inOrder.any_eq

theorem contains_eq_isSome_find? (t : SymbolTable α) (k : SymbolKey) :
    t.contains k = (t.find? k).isSome := by
  rw [Bool.eq_iff_iff, contains, find?, Option.isSome_map, List.any_eq_true, List.find?_isSome]

theorem eq_of_agrees (ht : t.Sound) {s u : Slot α} (hs : s ∈ t.slots) (hu : u ∈ t.slots)
    (h : s.key.agrees u.key = true) : s = u :=
  List.inj_on_of_nodup_map ht.symbols hs hu (SymbolKey.agrees_iff.1 h)

theorem find?_eq_some_iff (ht : t.Sound) {s : Slot α} (h : ss.Perm t.slots) :
    ss.find? (·.key.agrees k) = some s ↔ s ∈ t.slots ∧ s.key.agrees k = true := by
  constructor
  · intro hs
    exact ⟨h.mem_iff.1 (List.mem_of_find?_eq_some hs), by simpa using List.find?_some hs⟩
  · intro hs
    obtain ⟨hmem, hagrees⟩ := hs
    have hsome : (ss.find? (·.key.agrees k)).isSome = true := by
      rw [List.find?_isSome]
      exact ⟨s, h.mem_iff.2 hmem, hagrees⟩
    obtain ⟨u, hu⟩ := Option.isSome_iff_exists.1 hsome
    have huk : u.key.agrees k = true := by simpa using List.find?_some hu
    have husk : s.key.agrees u.key = true := by
      rw [SymbolKey.agrees_comm] at huk
      exact SymbolKey.agrees_trans hagrees huk
    rw [hu, eq_of_agrees ht hmem (h.mem_iff.1 (List.mem_of_find?_eq_some hu)) husk]

theorem find?_toScope (ht : t.Sound) (k : SymbolKey) : t.toScope.find? k = t.find? k := by
  have hslots : t.inOrder.find? (·.key.agrees k) = t.slots.find? (·.key.agrees k) := by
    apply Option.ext
    intro s
    rw [find?_eq_some_iff ht t.perm_inOrder, find?_eq_some_iff ht (.refl _)]
  simp only [toScope, Scope.find?, find?, List.find?_map, Option.map_map, ← hslots]
  rfl

theorem digest_toScope (t : SymbolTable α) :
    t.toScope.digest = Scope.digestKeys (t.slots.map Slot.key) := by
  rw [Scope.digest, keys_toScope]
  exact Scope.digestKeys_perm (t.perm_inOrder.map _)

theorem distinct_toScope (ht : t.Sound) :
    t.toScope.entries.Pairwise fun e e' ↦ e.1.agrees e'.1 = false := by
  have hnodup : (t.inOrder.map (·.key.canonical)).Nodup := (t.perm_inOrder.map _).nodup_iff.2 ht.symbols
  rw [toScope, List.pairwise_map]
  exact (List.pairwise_map.1 hnodup).imp fun h ↦ decide_eq_false h

/-- What has come out of an action on the table `t`, against the outcome on its scope. An action that
fails has left the table as it was. -/
inductive Mirrored (t : SymbolTable α) :
    Outcome (SymbolTable α) SymbolError β → Except SymbolError (β × Scope α) → Prop
  | ok {b : β} {t' : SymbolTable α} {s : Scope α} (ht' : t'.Sound) (hs : t'.toScope = s) :
      Mirrored t (.done b t') (.ok (b, s))
  | error (e : SymbolError) : Mirrored t (.failed e t) (.error e)

def Mirrors (x : Action α β) (act : Scope α → Except SymbolError (β × Scope α)) : Prop :=
  ∀ t : SymbolTable α, t.Sound → Mirrored t (x t) (act t.toScope)

theorem requireWritable_of_frozen (h : t.isFrozen = true) :
    (requireWritable : Action α Unit) t = .failed .readOnly t := by
  rw [requireWritable, get_bind, if_pos h]
  rfl

theorem requireWritable_of_open (h : t.isFrozen = false) :
    (requireWritable : Action α Unit) t = .done () t := by
  rw [requireWritable, get_bind, h]
  rfl

theorem sound_add (ht : t.Sound) (hk : t.contains k = false) :
    ({ t with slots := ⟨k, t.next, a⟩ :: t.slots, next := t.next + 1, remembered := none } :
      SymbolTable α).Sound where
  below s hs := by
    rcases List.mem_cons.1 hs with rfl | hs
    · exact Nat.lt_succ_self _
    · exact Nat.lt_succ_of_lt (ht.below s hs)
  numbers := by
    rw [List.map_cons, List.nodup_cons]
    refine ⟨fun hmem ↦ ?_, ht.numbers⟩
    obtain ⟨s, hs, hnumber⟩ := List.mem_map.1 hmem
    exact absurd hnumber (ht.below s hs).ne
  symbols := by
    rw [List.map_cons, List.nodup_cons]
    refine ⟨fun hmem ↦ ?_, ht.symbols⟩
    obtain ⟨s, hs, hkey⟩ := List.mem_map.1 hmem
    have hnone := List.any_eq_false.1 hk s hs
    exact hnone (SymbolKey.agrees_iff.2 hkey)
  remembered value hvalue := by cases hvalue

/-- No number is used again, so what is added comes last. -/
theorem toScope_add (ht : t.Sound) :
    ({ t with slots := ⟨k, t.next, a⟩ :: t.slots, next := t.next + 1, remembered := none } :
      SymbolTable α).toScope = { t.toScope with entries := t.toScope.entries ++ [(k, a)] } := by
  have horder : ({ t with
      slots := ⟨k, t.next, a⟩ :: t.slots, next := t.next + 1, remembered := none } :
        SymbolTable α).inOrder = t.inOrder ++ [⟨k, t.next, a⟩] := by
    apply inOrder_eq
    · exact (List.perm_append_singleton _ _).trans (t.perm_inOrder.cons _)
    · rw [List.pairwise_append]
      refine ⟨strictly_ascending ht, List.pairwise_singleton _ _, fun s hs u hu ↦ ?_⟩
      rw [List.mem_singleton.1 hu]
      exact ht.below s (t.perm_inOrder.mem_iff.1 hs)
  rw [toScope, horder, List.map_append]
  rfl

theorem add_cases (ht : t.Sound) (k : SymbolKey) (a : α) :
    (∃ t', add k a t = .done () t' ∧ t'.Sound ∧ t.toScope.add k a = .ok t'.toScope) ∨
      ∃ e, add k a t = .failed e t ∧ t.toScope.add k a = .error e := by
  simp only [add, bind_apply]
  cases h : t.isFrozen with
  | true =>
    rw [requireWritable_of_frozen h]
    exact .inr ⟨.readOnly, rfl, if_pos h⟩
  | false =>
    rw [requireWritable_of_open h]
    cases hk : t.contains k with
    | true =>
      have hadd : t.toScope.add k a = .error (.duplicateKey k) := by
        simp [Scope.add, isFrozen_toScope, contains_toScope, h, hk]
      refine .inr ⟨.duplicateKey k, ?_, hadd⟩
      simp [Attempt.get, hk, Attempt.fail]
    | false =>
      have hadd := Scope.add_eq_ok_iff.2 ⟨h, (t.contains_toScope k).trans hk, toScope_add (a := a) ht⟩
      refine .inl ⟨_, ?_, sound_add ht hk, hadd⟩
      simp [Attempt.get, hk, Attempt.modify]

theorem mirrors_add (k : SymbolKey) (a : α) (b : β) :
    Mirrors (do add k a; return b) fun s ↦ do return (b, ← s.add k a) := by
  intro t ht
  dsimp only
  rcases add_cases ht k a with ⟨t', hadd, ht', hs⟩ | ⟨e, hadd, hs⟩
  · rw [bind_apply, hadd, hs]
    exact .ok ht' rfl
  · rw [bind_apply, hadd, hs]
    exact .error e

/-- Filling adds what is not known already. One that fails may have added some of it. -/
theorem fill_cases [BEq α] (known : SymbolKey → Option α) (entries : List (SymbolKey × α))
    (ht : t.Sound) :
    (∃ t', fill known entries t = .done () t' ∧ t'.Sound ∧
      t.toScope.addAll (entries.filter fun e ↦ !(known e.1 == some e.2)) = .ok t'.toScope) ∨
    ∃ e t', fill known entries t = .failed e t' ∧
      t.toScope.addAll (entries.filter fun e ↦ !(known e.1 == some e.2)) = .error e := by
  induction entries generalizing t with
  | nil => exact .inl ⟨t, rfl, ht, rfl⟩
  | cons e entries ih =>
    obtain ⟨k, a⟩ := e
    cases hknown : known k == some a with
    | true =>
      simp only [fill, hknown, if_true, List.filter_cons, Bool.not_true, Bool.false_eq_true, if_false]
      exact ih ht
    | false =>
      simp only [fill, hknown, Bool.false_eq_true, if_false, List.filter_cons, Bool.not_false, if_true,
        Scope.addAll, bind_apply]
      rcases add_cases ht k a with ⟨t', hadd, ht', hs⟩ | ⟨e, hadd, hs⟩
      · rw [hadd, hs]
        exact ih ht'
      · rw [hadd, hs]
        exact .inr ⟨e, t, rfl, rfl⟩

theorem sound_filter (ht : t.Sound) (p : Slot α → Bool) :
    ({ t with slots := t.slots.filter p, remembered := none } : SymbolTable α).Sound where
  below s hs := ht.below s (List.mem_filter.1 hs).1
  numbers := ht.numbers.sublist (List.filter_sublist.map _)
  symbols := ht.symbols.sublist (List.filter_sublist.map _)
  remembered value hvalue := by cases hvalue

theorem toScope_filter (ht : t.Sound) (p : SymbolKey × α → Bool) :
    ({ t with slots := t.slots.filter fun s ↦ p s.entry, remembered := none } : SymbolTable α).toScope =
      { t.toScope with entries := t.toScope.entries.filter p } := by
  have horder : ({ t with slots := t.slots.filter fun s ↦ p s.entry, remembered := none } :
      SymbolTable α).inOrder = t.inOrder.filter fun s ↦ p s.entry :=
    inOrder_eq (t.perm_inOrder.filter _) ((strictly_ascending ht).filter _)
  rw [toScope, horder, toScope, List.filter_map]
  rfl

theorem mirrors_remove (k : SymbolKey) (g : Bool → β) :
    Mirrors (do return g (← remove k)) fun s : Scope α ↦ do
      let (found, s) ← s.remove k
      return (g found, s) := by
  intro t ht
  simp only [remove, bind_apply]
  cases h : t.isFrozen with
  | true =>
    have hremove : t.toScope.remove k = .error .readOnly := if_pos h
    rw [requireWritable_of_frozen h, hremove]
    exact .error _
  | false =>
    rw [requireWritable_of_open h]
    cases hk : t.contains k with
    | true =>
      have hremove : t.toScope.remove k =
          .ok (true, { t.toScope with entries := t.toScope.entries.filter (!·.1.agrees k) }) := by
        simp [Scope.remove, isFrozen_toScope, contains_toScope, h, hk]
      simp only [Attempt.get, hk, hremove]
      exact .ok (sound_filter ht _) (toScope_filter ht fun e ↦ !e.1.agrees k)
    | false =>
      have hremove : t.toScope.remove k = .ok (false, t.toScope) := by
        simp [Scope.remove, isFrozen_toScope, contains_toScope, h, hk]
      simp only [Attempt.get, hk, hremove]
      exact .ok ht rfl

theorem mirrors_clear (b : β) : Mirrors (α := α) (do clear; return b) fun s ↦ do return (b, ← s.clear) := by
  intro t ht
  simp only [clear, bind_apply]
  cases h : t.isFrozen with
  | true =>
    have hclear : t.toScope.clear = .error .readOnly := if_pos h
    rw [requireWritable_of_frozen h, hclear]
    exact .error _
  | false =>
    have hclear : t.toScope.clear = .ok { t.toScope with entries := [] } := by
      simp [Scope.clear, isFrozen_toScope, h]
    rw [requireWritable_of_open h, hclear]
    refine .ok ⟨?_, .nil, .nil, fun value h ↦ by cases h⟩ ?_
    · simp
    · simp [toScope, inOrder]

theorem mirrors_freeze (b : β) : Mirrors (α := α) (do freeze; return b) fun s ↦ return (b, s.freeze) :=
  fun _ ht ↦ .ok ⟨ht.below, ht.numbers, ht.symbols, ht.remembered⟩ rfl

/-- What is remembered of the keys does not show in their digest. -/
theorem mirrors_digest : Mirrors (α := α) digest fun s ↦ .ok (s.digest, s) := by
  intro t ht
  rw [digest, get_bind]
  cases h : t.remembered with
  | some value =>
    obtain rfl : value = t.toScope.digest := (ht.remembered value h).trans t.digest_toScope.symm
    exact .ok ht rfl
  | none =>
    have hvalue : t.slots.foldl (fun acc s ↦ acc ^^^ s.key.digest) 0 = t.toScope.digest := by
      rw [digest_toScope, Scope.digestKeys, List.foldl_map]
    simp only [modify_bind, hvalue]
    refine .ok ⟨ht.below, ht.numbers, ht.symbols, fun value h ↦ ?_⟩ rfl
    cases h
    exact t.digest_toScope

end SymbolTable

end CallResolution
