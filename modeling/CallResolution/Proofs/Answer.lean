import Mathlib.Data.List.Basic

namespace CallResolution

variable {α β : Type}

theorem mapM_eq_some_iff {f : α → Option β} {xs : List α} {ys : List β} :
    xs.mapM f = some ys ↔ xs.map f = ys.map some := by
  induction xs generalizing ys with
  | nil => cases ys <;> simp
  | cons x xs ih =>
    rw [List.mapM_cons, List.map_cons]
    constructor
    · intro h
      obtain ⟨y, hy, h⟩ := Option.bind_eq_some_iff.1 h
      obtain ⟨zs, hzs, h⟩ := Option.bind_eq_some_iff.1 h
      cases h
      rw [List.map_cons, hy, ih.1 hzs]
    · intro h
      cases ys with
      | nil => cases h
      | cons y ys =>
        obtain ⟨hy, hys⟩ := List.cons.inj h
        rw [hy, ih.2 hys]
        rfl

theorem length_eq_of_mapM_eq_some {f : α → Option β} {xs : List α} {ys : List β}
    (h : xs.mapM f = some ys) : xs.length = ys.length := by
  simpa using congrArg List.length (mapM_eq_some_iff.1 h)

theorem exists_mem_of_mapM_eq_some {f : α → Option β} {xs : List α} {ys : List β}
    (h : xs.mapM f = some ys) {x : α} (hx : x ∈ xs) : ∃ y ∈ ys, f x = some y := by
  have hmem : f x ∈ ys.map some := mapM_eq_some_iff.1 h ▸ List.mem_map_of_mem hx
  obtain ⟨y, hy, hfx⟩ := List.mem_map.1 hmem
  exact ⟨y, hy, hfx.symm⟩

theorem eq_some_of_mem_zip_mapM {f : α → Option β} {xs : List α} {ys : List β} (h : xs.mapM f = some ys)
    {p : α × β} (hp : p ∈ xs.zip ys) : f p.1 = some p.2 := by
  obtain ⟨i, hi⟩ := List.mem_iff_getElem?.1 hp
  obtain ⟨hx, hy⟩ := List.getElem?_zip_eq_some.1 hi
  have hmap := congrArg (·[i]?) (mapM_eq_some_iff.1 h)
  simpa [hx, hy] using hmap

theorem exists_of_mem_mapM_eq_some {f : α → Option β} {xs : List α} {ys : List β}
    (h : xs.mapM f = some ys) {y : β} (hy : y ∈ ys) : ∃ x ∈ xs, f x = some y := by
  have hmem : some y ∈ xs.map f := mapM_eq_some_iff.1 h ▸ List.mem_map_of_mem hy
  exact List.mem_map.1 hmem

theorem exists_mapM_iff {f : α → Option β} {xs : List α} :
    (∃ ys, xs.mapM f = some ys) ↔ ∀ x ∈ xs, (f x).isSome = true := by
  induction xs with
  | nil => simp
  | cons x xs ih =>
    rw [List.forall_mem_cons, ← ih, List.mapM_cons]
    cases f x with
    | none => simp
    | some y => cases xs.mapM f <;> simp

theorem mem_of_mapM_pair {f : α → Option β} {xs : List α} {ys : List (β × α)}
    (h : xs.mapM (fun x ↦ do return (← f x, x)) = some ys) {x : α} {y : β} :
    (y, x) ∈ ys ↔ x ∈ xs ∧ f x = some y := by
  constructor
  · intro hy
    obtain ⟨x', hx', hfx⟩ := exists_of_mem_mapM_eq_some h hy
    obtain ⟨y', hy', hpair⟩ := Option.bind_eq_some_iff.1 hfx
    cases hpair
    exact ⟨hx', hy'⟩
  · rintro ⟨hx, hfx⟩
    obtain ⟨p, hp, hpair⟩ := exists_mem_of_mapM_eq_some h hx
    simp only [hfx] at hpair
    cases hpair
    exact hp

theorem exists_of_anyM {p : α → Option Bool} {xs : List α} (h : xs.anyM p = some true) :
    ∃ x ∈ xs, p x = some true := by
  induction xs with
  | nil => cases h
  | cons x xs ih =>
    rw [List.anyM_cons] at h
    obtain ⟨b, hb, h⟩ := Option.bind_eq_some_iff.1 h
    cases b with
    | true => exact ⟨x, List.mem_cons_self, hb⟩
    | false =>
      obtain ⟨y, hy, hp⟩ := ih h
      exact ⟨y, List.mem_cons_of_mem x hy, hp⟩

theorem exists_of_allM {p : α → Option Bool} {xs : List α} (h : xs.allM p = some false) :
    ∃ x ∈ xs, p x = some false := by
  induction xs with
  | nil => cases h
  | cons x xs ih =>
    rw [List.allM_cons] at h
    obtain ⟨b, hb, h⟩ := Option.bind_eq_some_iff.1 h
    cases b with
    | false => exact ⟨x, List.mem_cons_self, hb⟩
    | true =>
      obtain ⟨y, hy, hp⟩ := ih h
      exact ⟨y, List.mem_cons_of_mem x hy, hp⟩

theorem anyM_eq_some_false_iff {p : α → Option Bool} {xs : List α} :
    xs.anyM p = some false ↔ ∀ x ∈ xs, p x = some false := by
  induction xs with
  | nil => simp [List.anyM]
  | cons x xs ih =>
    rw [List.anyM_cons]
    cases hx : p x with
    | none => simp [hx]
    | some b => cases b <;> simp [hx, ih]

/-- The members are tested in turn up to the first for which the test says yes. -/
theorem exists_eq_some_of_anyM {p : α → Option Bool} {before after : List α} {x : α} {b : Bool}
    (h : (before ++ x :: after).anyM p = some b) (hbefore : ∀ y ∈ before, p y ≠ some true) :
    ∃ c, p x = some c := by
  induction before with
  | nil =>
    rw [List.nil_append, List.anyM_cons] at h
    obtain ⟨c, hc, -⟩ := Option.bind_eq_some_iff.1 h
    exact ⟨c, hc⟩
  | cons y before ih =>
    obtain ⟨hy, hbefore⟩ := List.forall_mem_cons.1 hbefore
    rw [List.cons_append, List.anyM_cons] at h
    obtain ⟨c, hc, h⟩ := Option.bind_eq_some_iff.1 h
    cases c with
    | true => exact absurd hc hy
    | false => exact ih h hbefore

theorem exists_eq_some_of_allM {p : α → Option Bool} {before after : List α} {x : α} {b : Bool}
    (h : (before ++ x :: after).allM p = some b) (hbefore : ∀ y ∈ before, p y ≠ some false) :
    ∃ c, p x = some c := by
  induction before with
  | nil =>
    rw [List.nil_append, List.allM_cons] at h
    obtain ⟨c, hc, -⟩ := Option.bind_eq_some_iff.1 h
    exact ⟨c, hc⟩
  | cons y before ih =>
    obtain ⟨hy, hbefore⟩ := List.forall_mem_cons.1 hbefore
    rw [List.cons_append, List.allM_cons] at h
    obtain ⟨c, hc, h⟩ := Option.bind_eq_some_iff.1 h
    cases c with
    | true => exact ih h hbefore
    | false => exact absurd hc hy

theorem allM_eq_some_true_iff {p : α → Option Bool} {xs : List α} :
    xs.allM p = some true ↔ ∀ x ∈ xs, p x = some true := by
  induction xs with
  | nil => simp [List.allM]
  | cons x xs ih =>
    rw [List.allM_cons]
    cases hx : p x with
    | none => simp [hx]
    | some b => cases b <;> simp [hx, ih]

theorem prefix_foldlM {f : List β → α → Option (List β)}
    (hf : ∀ x bs cs, f bs x = some cs → bs <+: cs) {xs : List α} {bs cs : List β}
    (h : xs.foldlM f bs = some cs) : bs <+: cs := by
  induction xs generalizing bs with
  | nil =>
    cases h
    exact List.prefix_rfl
  | cons x xs ih =>
    rw [List.foldlM_cons] at h
    obtain ⟨ds, hds, h⟩ := Option.bind_eq_some_iff.1 h
    exact (hf x bs ds hds).trans (ih h)

/-- What the first says, the second says too. -/
def Refines (x y : Option α) : Prop := ∀ a, x = some a → y = some a

namespace Refines

theorem refl (x : Option α) : Refines x x := fun _ h ↦ h

theorem none (x : Option α) : Refines none x := fun _ h ↦ by cases h

theorem of_le {query : Nat → Option α} (h : ∀ n, Refines (query n) (query (n + 1))) {m n : Nat}
    (hmn : m ≤ n) : Refines (query m) (query n) := by
  induction hmn with
  | refl => exact refl _
  | step _ ih => exact fun a ha ↦ h _ a (ih a ha)

theorem bind {x y : Option α} {f g : α → Option β} (hx : Refines x y) (hf : ∀ a, Refines (f a) (g a)) :
    Refines (x >>= f) (y >>= g) := by
  intro b h
  obtain ⟨a, ha, hb⟩ := Option.bind_eq_some_iff.1 h
  exact Option.bind_eq_some_iff.2 ⟨a, hx a ha, hf a b hb⟩

variable {p q : α → Option Bool}

theorem anyM (h : ∀ x, Refines (p x) (q x)) (xs : List α) : Refines (xs.anyM p) (xs.anyM q) := by
  induction xs with
  | nil => exact refl _
  | cons x xs ih =>
    rw [List.anyM_cons, List.anyM_cons]
    refine (h x).bind fun b ↦ ?_
    cases b with
    | true => exact refl _
    | false => exact ih

theorem allM (h : ∀ x, Refines (p x) (q x)) (xs : List α) : Refines (xs.allM p) (xs.allM q) := by
  induction xs with
  | nil => exact refl _
  | cons x xs ih =>
    rw [List.allM_cons, List.allM_cons]
    refine (h x).bind fun b ↦ ?_
    cases b with
    | true => exact ih
    | false => exact refl _

theorem foldlM {f g : β → α → Option β} (h : ∀ b x, Refines (f b x) (g b x)) (xs : List α) (b : β) :
    Refines (xs.foldlM f b) (xs.foldlM g b) := by
  induction xs generalizing b with
  | nil => exact refl _
  | cons x xs ih =>
    rw [List.foldlM_cons, List.foldlM_cons]
    exact (h b x).bind ih

end Refines

/-- To every sufficient depth the query has the answer `a`. -/
def Answers (query : Nat → Option α) (a : α) : Prop := ∃ n, ∀ fuel, n ≤ fuel → query fuel = some a

namespace Answers

variable {query : Nat → Option α} {a b : α}

theorem of_eq (h : ∀ n, Refines (query n) (query (n + 1))) {n : Nat} (hn : query n = some a) :
    Answers query a := ⟨n, fun _ hle ↦ Refines.of_le h hle a hn⟩

theorem exists_eq (h : Answers query a) : ∃ n, query n = some a := by
  obtain ⟨n, hn⟩ := h
  exact ⟨n, hn n (Nat.le_refl n)⟩

theorem unique (ha : Answers query a) (hb : Answers query b) : a = b := by
  obtain ⟨m, hm⟩ := ha
  obtain ⟨n, hn⟩ := hb
  have heq := (hm (max m n) (Nat.le_max_left m n)).symm.trans (hn _ (Nat.le_max_right m n))
  exact Option.some.inj heq

theorem const (a : α) : Answers (fun _ ↦ some a) a := ⟨0, fun _ _ ↦ rfl⟩

theorem succ (h : Answers (fun n ↦ query (n + 1)) a) : Answers query a := by
  obtain ⟨n, hn⟩ := h
  refine ⟨n + 1, fun fuel hle ↦ ?_⟩
  obtain ⟨fuel, rfl⟩ := Nat.exists_eq_add_of_le' (Nat.le_of_add_left_le hle)
  exact hn fuel (Nat.le_of_add_le_add_right hle)

theorem bind {f : Nat → α → Option β} {c : β} (ha : Answers query a) (hc : Answers (f · a) c) :
    Answers (fun n ↦ query n >>= f n) c := by
  obtain ⟨m, hm⟩ := ha
  obtain ⟨n, hn⟩ := hc
  refine ⟨max m n, fun fuel hle ↦ Option.bind_eq_some_iff.2 ⟨a, ?_, ?_⟩⟩
  · exact hm fuel (Nat.le_trans (Nat.le_max_left m n) hle)
  · exact hn fuel (Nat.le_trans (Nat.le_max_right m n) hle)

variable {xs : List α}

theorem anyM_false {p : Nat → α → Option Bool} (h : ∀ x ∈ xs, Answers (p · x) false) :
    Answers (fun n ↦ xs.anyM (p n)) false := by
  induction xs with
  | nil => exact .const false
  | cons x xs ih =>
    obtain ⟨hx, hxs⟩ := List.forall_mem_cons.1 h
    simp only [List.anyM_cons]
    exact hx.bind (ih hxs)

theorem allM_true {p : Nat → α → Option Bool} (h : ∀ x ∈ xs, Answers (p · x) true) :
    Answers (fun n ↦ xs.allM (p n)) true := by
  induction xs with
  | nil => exact .const true
  | cons x xs ih =>
    obtain ⟨hx, hxs⟩ := List.forall_mem_cons.1 h
    simp only [List.allM_cons]
    exact hx.bind (ih hxs)

theorem exists_mapM {f : Nat → α → Option β} {Q : α → β → Prop}
    (h : ∀ x ∈ xs, ∃ y, Answers (f · x) y ∧ Q x y) :
    ∃ ys, Answers (fun n ↦ xs.mapM (f n)) ys ∧ (∀ x ∈ xs, ∃ y ∈ ys, Q x y) ∧ ∀ y ∈ ys, ∃ x ∈ xs, Q x y := by
  induction xs with
  | nil => exact ⟨[], .const [], by simp, by simp⟩
  | cons x xs ih =>
    obtain ⟨⟨y, hy, hQ⟩, hxs⟩ := List.forall_mem_cons.1 h
    obtain ⟨ys, hys, hleft, hright⟩ := ih hxs
    simp only [List.mapM_cons, List.exists_mem_cons_iff, List.forall_mem_cons]
    refine ⟨y :: ys, hy.bind (hys.bind (.const _)), ?_⟩
    simp only [List.exists_mem_cons_iff, List.forall_mem_cons]
    exact ⟨⟨.inl hQ, fun x hx ↦ .inr (hleft x hx)⟩, .inl hQ, fun y hy ↦ .inr (hright y hy)⟩

theorem exists_mapM_zip {γ : Type} {ys : List β} {f : Nat → α × β → Option γ} {Q : α → γ → Prop}
    (hlen : xs.length ≤ ys.length) (h : ∀ q ∈ xs.zip ys, ∃ z, Answers (f · q) z ∧ Q q.1 z) :
    ∃ zs, Answers (fun n ↦ (xs.zip ys).mapM (f n)) zs ∧ (∀ x ∈ xs, ∃ z ∈ zs, Q x z) ∧
      ∀ z ∈ zs, ∃ x ∈ xs, Q x z := by
  obtain ⟨zs, hzs, hleft, hright⟩ := exists_mapM h
  have hfst : (xs.zip ys).map Prod.fst = xs := List.map_fst_zip hlen
  refine ⟨zs, hzs, fun x hx ↦ ?_, fun z hz ↦ ?_⟩
  · rw [← hfst] at hx
    obtain ⟨q, hq, rfl⟩ := List.mem_map.1 hx
    exact hleft q hq
  · obtain ⟨q, hq, hQ⟩ := hright z hz
    exact ⟨q.1, (List.of_mem_zip hq).1, hQ⟩

end Answers

/-- A search has an answer as soon as the tests have one that it comes to. -/
theorem exists_answers_anyM {p : Nat → α → Option Bool} {xs : List α}
    (h : ∀ before x after, xs = before ++ x :: after → (∀ y ∈ before, Answers (p · y) false) →
      ∃ b, Answers (p · x) b) : ∃ b, Answers (fun n ↦ xs.anyM (p n)) b := by
  induction xs with
  | nil => exact ⟨false, .const false⟩
  | cons x xs ih =>
    simp only [List.anyM_cons]
    obtain ⟨b, hb⟩ := h [] x xs rfl (by simp)
    cases b with
    | true => exact ⟨true, hb.bind (.const true)⟩
    | false =>
      obtain ⟨c, hc⟩ := ih fun before y after hsplit hbefore ↦
        h (x :: before) y after (by rw [hsplit, List.cons_append])
          (List.forall_mem_cons.2 ⟨hb, hbefore⟩)
      exact ⟨c, hb.bind hc⟩

theorem exists_answers_allM {p : Nat → α → Option Bool} {xs : List α}
    (h : ∀ before x after, xs = before ++ x :: after → (∀ y ∈ before, Answers (p · y) true) →
      ∃ b, Answers (p · x) b) : ∃ b, Answers (fun n ↦ xs.allM (p n)) b := by
  induction xs with
  | nil => exact ⟨true, .const true⟩
  | cons x xs ih =>
    simp only [List.allM_cons]
    obtain ⟨b, hb⟩ := h [] x xs rfl (by simp)
    cases b with
    | false => exact ⟨false, hb.bind (.const false)⟩
    | true =>
      obtain ⟨c, hc⟩ := ih fun before y after hsplit hbefore ↦
        h (x :: before) y after (by rw [hsplit, List.cons_append])
          (List.forall_mem_cons.2 ⟨hb, hbefore⟩)
      exact ⟨c, hb.bind hc⟩

/-- What the first says, the second says too, and `P` holds of it. -/
def Echoes (P : α → Prop) (x y : Option α) : Prop := ∀ a, x = some a → y = some a ∧ P a

namespace Echoes

variable {P : α → Prop} {Q : β → Prop} {x y : Option α} {xs : List α}

theorem none (y : Option α) : Echoes P none y := fun _ h ↦ by cases h

theorem some {a : α} (ha : P a) : Echoes P (some a) (some a) := by
  intro b h
  cases h
  exact ⟨rfl, ha⟩

theorem antisymm {P' : α → Prop} (h : Echoes P x y) (h' : Echoes P' y x) : x = y := by
  cases x with
  | none =>
    cases y with
    | none => rfl
    | some b => exact (h' b rfl).1
  | some a => exact (h a rfl).1.symm

theorem bind {f g : α → Option β} (hx : Echoes P x y) (hf : ∀ a, P a → Echoes Q (f a) (g a)) :
    Echoes Q (x >>= f) (y >>= g) := by
  intro b h
  obtain ⟨a, ha, hb⟩ := Option.bind_eq_some_iff.1 h
  obtain ⟨hy, hP⟩ := hx a ha
  obtain ⟨hg, hQ⟩ := hf a hP b hb
  exact ⟨Option.bind_eq_some_iff.2 ⟨a, hy, hg⟩, hQ⟩

variable {p q : α → Option Bool}

theorem anyM (h : ∀ x ∈ xs, Echoes (fun _ ↦ True) (p x) (q x)) :
    Echoes (fun _ ↦ True) (xs.anyM p) (xs.anyM q) := by
  induction xs with
  | nil => exact .some trivial
  | cons x xs ih =>
    obtain ⟨hx, hxs⟩ := List.forall_mem_cons.1 h
    rw [List.anyM_cons, List.anyM_cons]
    refine hx.bind fun b _ ↦ ?_
    cases b with
    | true => exact .some trivial
    | false => exact ih hxs

theorem allM (h : ∀ x ∈ xs, Echoes (fun _ ↦ True) (p x) (q x)) :
    Echoes (fun _ ↦ True) (xs.allM p) (xs.allM q) := by
  induction xs with
  | nil => exact .some trivial
  | cons x xs ih =>
    obtain ⟨hx, hxs⟩ := List.forall_mem_cons.1 h
    rw [List.allM_cons, List.allM_cons]
    refine hx.bind fun b _ ↦ ?_
    cases b with
    | true => exact ih hxs
    | false => exact .some trivial

theorem mapM {f g : α → Option β} (h : ∀ x ∈ xs, Echoes Q (f x) (g x)) :
    Echoes (fun ys ↦ ∀ y ∈ ys, Q y) (xs.mapM f) (xs.mapM g) := by
  induction xs with
  | nil => exact .some (by simp)
  | cons x xs ih =>
    obtain ⟨hx, hxs⟩ := List.forall_mem_cons.1 h
    rw [List.mapM_cons, List.mapM_cons]
    exact hx.bind fun y hy ↦ (ih hxs).bind fun ys hys ↦ .some (List.forall_mem_cons.2 ⟨hy, hys⟩)

theorem foldlM {f g : β → α → Option β} (h : ∀ x ∈ xs, ∀ b, Q b → Echoes Q (f b x) (g b x)) {b : β}
    (hb : Q b) : Echoes Q (xs.foldlM f b) (xs.foldlM g b) := by
  induction xs generalizing b with
  | nil => exact .some hb
  | cons x xs ih =>
    obtain ⟨hx, hxs⟩ := List.forall_mem_cons.1 h
    rw [List.foldlM_cons, List.foldlM_cons]
    exact (hx b hb).bind fun b hb ↦ ih hxs hb

end Echoes

end CallResolution
