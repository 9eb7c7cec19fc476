import CallResolution.Attempt
import Mathlib.Data.List.Forall2
import Mathlib.Order.Defs.Unbundled

namespace CallResolution

variable {σ τ ε δ α β : Type}

def Outcome.state? : Outcome σ ε α → Option σ
  | done _ s | failed _ s => some s
  | exhausted => none

def Outcome.value? : Outcome σ ε α → Option α
  | done a _ => some a
  | failed _ _ | exhausted => none

theorem Outcome.exists_done {o : Outcome σ ε α} {a : α} (h : o.value? = some a) :
    ∃ s, o = .done a s := by
  cases o with
  | done b s =>
    cases h
    exact ⟨s, rfl⟩
  | failed e s => cases h
  | exhausted => cases h

theorem Outcome.eq_done {o : Outcome σ ε α} {a : α} (h : o.value? = some a) (s : σ) :
    o = .done a (o.state?.getD s) := by
  obtain ⟨t, rfl⟩ := exists_done h
  rfl

namespace Attempt

theorem state?_bind (x : Attempt σ ε α) (f : α → Attempt σ ε β) (s : σ) :
    ((x >>= f) s).state? = match x s with
      | .done a s => (f a s).state?
      | .failed _ s => some s
      | .exhausted => none := by
  rw [bind_apply]
  cases x s <;> rfl

theorem map_apply (f : α → β) (x : Attempt σ ε α) (s : σ) :
    (f <$> x) s = match x s with
      | .done a s => .done (f a) s
      | .failed e s => .failed e s
      | .exhausted => .exhausted := by
  rw [← bind_pure_comp]
  rfl

theorem map_eq_done_iff {f : α → β} {x : Attempt σ ε α} {s t : σ} {b : β} :
    (f <$> x) s = .done b t ↔ ∃ a, x s = .done a t ∧ f a = b := by
  rw [map_apply]
  cases x s with
  | done a s' =>
    constructor
    · intro h
      cases h
      exact ⟨a, rfl, rfl⟩
    · rintro ⟨a', h, rfl⟩
      cases h
      rfl
  | failed e s' => simp
  | exhausted => simp

theorem mapError_eq_done_iff {f : ε → δ} {x : Attempt σ ε α} {s t : σ} {a : α} :
    mapError f x s = .done a t ↔ x s = .done a t := by
  unfold mapError
  cases x s <;> simp

theorem ofExcept_eq_done_iff {x : Except ε α} {s t : σ} {a : α} :
    (ofExcept x : Attempt σ ε α) s = .done a t ↔ x = .ok a ∧ s = t := by
  cases x with
  | ok b => simp [ofExcept, pure_apply]
  | error e => simp [ofExcept, fail]

theorem ask_eq_done_iff {query : σ → Option α} {s t : σ} {a : α} :
    (ask query : Attempt σ ε α) s = .done a t ↔ query s = some a ∧ s = t := by
  unfold ask
  cases query s <;> simp

theorem pure_eq_done_iff {a b : α} {s t : σ} :
    (pure a : Attempt σ ε α) s = .done b t ↔ a = b ∧ s = t := by
  simp [pure_apply]

theorem fail_ne_done {e : ε} {s t : σ} {a : α} : (fail e : Attempt σ ε α) s ≠ .done a t := by
  simp [fail]

theorem ask_ne_failed {query : σ → Option α} {s t : σ} {e : ε} :
    (ask query : Attempt σ ε α) s ≠ .failed e t := by
  intro h
  unfold ask at h
  cases hq : query s <;> rw [hq] at h <;> cases h

theorem get_bind (f : σ → Attempt σ ε α) (s : σ) : ((get : Attempt σ ε σ) >>= f) s = f s s := rfl

theorem modify_bind (g : σ → σ) (f : Unit → Attempt σ ε α) (s : σ) :
    ((modify g : Attempt σ ε Unit) >>= f) s = f () (g s) := rfl

theorem mapM_cons_eq_done_iff {f : α → Attempt σ ε β} {x : α} {xs : List α} {ys : List β}
    {s t : σ} : (x :: xs).mapM f s = .done ys t ↔
      ∃ y s' zs, f x s = .done y s' ∧ xs.mapM f s' = .done zs t ∧ ys = y :: zs := by
  rw [List.mapM_cons]
  constructor
  · intro h
    obtain ⟨y, s', hy, h⟩ := bind_eq_done_iff.1 h
    obtain ⟨zs, s'', hz, h⟩ := bind_eq_done_iff.1 h
    obtain ⟨rfl, rfl⟩ := pure_eq_done_iff.1 h
    exact ⟨y, s', zs, hy, hz, rfl⟩
  · rintro ⟨y, s', zs, hy, hz, rfl⟩
    exact bind_eq_done_iff.2 ⟨y, s', hy, bind_eq_done_iff.2 ⟨zs, t, hz, rfl⟩⟩

theorem mapM_eq_done_map {f : α → Attempt σ ε β} {g : α → β} {xs : List α} {s : σ}
    (h : ∀ x ∈ xs, f x s = .done (g x) s) : xs.mapM f s = .done (xs.map g) s := by
  induction xs with
  | nil => rfl
  | cons x xs ih =>
    obtain ⟨hx, hxs⟩ := List.forall_mem_cons.1 h
    exact mapM_cons_eq_done_iff.2 ⟨g x, s, xs.map g, hx, ih hxs, rfl⟩

/-- Each result of a run comes from one item, in the state that the items before it leave. -/
theorem exists_split_of_mem_mapM {f : α → Attempt σ ε β} {xs : List α} {ys : List β} {s t : σ}
    (h : xs.mapM f s = .done ys t) {y : β} (hy : y ∈ ys) :
    ∃ before x after zs s₀ s₁ ws, xs = before ++ x :: after ∧ before.mapM f s = .done zs s₀ ∧
      f x s₀ = .done y s₁ ∧ after.mapM f s₁ = .done ws t := by
  induction xs generalizing ys s with
  | nil =>
    obtain ⟨rfl, -⟩ := pure_eq_done_iff.1 h
    cases hy
  | cons x xs ih =>
    obtain ⟨z, s', zs, hx, hxs, rfl⟩ := mapM_cons_eq_done_iff.1 h
    rcases List.mem_cons.1 hy with rfl | hy
    · exact ⟨[], x, xs, [], s, s', zs, rfl, rfl, hx, hxs⟩
    · obtain ⟨before, x', after, us, s₀, s₁, ws, rfl, hb, hx', ha⟩ := ih hxs hy
      exact ⟨x :: before, x', after, z :: us, s₀, s₁, ws, rfl,
        mapM_cons_eq_done_iff.2 ⟨z, s', us, hx, hb, rfl⟩, hx', ha⟩

/-- A run fails at one item, in the state that the items before it leave. -/
theorem exists_split_of_mapM_failed {f : α → Attempt σ ε β} {xs : List α} {s t : σ} {e : ε}
    (h : xs.mapM f s = .failed e t) : ∃ before x after zs u, xs = before ++ x :: after ∧
      before.mapM f s = .done zs u ∧ f x u = .failed e t := by
  induction xs generalizing s with
  | nil => cases h
  | cons x xs ih =>
    rw [List.mapM_cons] at h
    rcases bind_eq_failed_iff.1 h with h | ⟨y, s', hy, h⟩
    · exact ⟨[], x, xs, [], s, rfl, rfl, h⟩
    · rcases bind_eq_failed_iff.1 h with h | ⟨ys, s'', -, h⟩
      · obtain ⟨before, x', after, zs, u, rfl, hbefore, hx'⟩ := ih h
        exact ⟨x :: before, x', after, y :: zs, u, rfl,
          mapM_cons_eq_done_iff.2 ⟨y, s', zs, hy, hbefore, rfl⟩, hx'⟩
      · cases h

/-- Whatever error the computation fails with is one that `P` allows. -/
def Raises (P : ε → Prop) (x : Attempt σ ε α) : Prop := ∀ s e t, x s = .failed e t → P e

namespace Raises

variable {P : ε → Prop}

theorem mono {Q : ε → Prop} {x : Attempt σ ε α} (h : Raises P x) (hPQ : ∀ e, P e → Q e) :
    Raises Q x := fun s e t hx ↦ hPQ e (h s e t hx)

theorem pure (a : α) : Raises P (Pure.pure a : Attempt σ ε α) := fun s e t h ↦ by cases h

theorem fail {e : ε} (he : P e) : Raises P (Attempt.fail e : Attempt σ ε α) := by
  intro s e' t h
  cases h
  exact he

theorem get : Raises P (Attempt.get : Attempt σ ε σ) := fun s e t h ↦ by cases h

theorem ask (query : σ → Option α) : Raises P (Attempt.ask query : Attempt σ ε α) :=
  fun _ _ _ h ↦ absurd h ask_ne_failed

theorem ofExcept {x : Except ε α} (hx : ∀ e, x = .error e → P e) :
    Raises P (Attempt.ofExcept x : Attempt σ ε α) := by
  cases x with
  | ok a => exact pure a
  | error e => exact fail (hx e rfl)

theorem mapError {f : ε → δ} {Q : δ → Prop} {x : Attempt σ ε α} (h : Raises (fun e ↦ Q (f e)) x) :
    Raises Q (x.mapError f) := by
  intro s e t hst
  unfold Attempt.mapError at hst
  cases hx : x s <;> rw [hx] at hst <;> cases hst
  exact h s _ _ hx

theorem bind {x : Attempt σ ε α} {f : α → Attempt σ ε β} (hx : Raises P x) (hf : ∀ a, Raises P (f a)) :
    Raises P (x >>= f) := by
  intro s e t h
  rcases bind_eq_failed_iff.1 h with h | ⟨a, s', -, h⟩
  · exact hx s e t h
  · exact hf a s' e t h

theorem mapM {f : α → Attempt σ ε β} (hf : ∀ x, Raises P (f x)) (xs : List α) :
    Raises P (xs.mapM f) := by
  intro s e t h
  obtain ⟨_, x, _, _, u, -, -, hx⟩ := exists_split_of_mapM_failed h
  exact hf x u e t hx

end Raises

/-- However the computation ends, `R` relates the state it began in to the state it leaves. -/
def Along (R : σ → σ → Prop) (x : Attempt σ ε α) : Prop := ∀ s t, (x s).state? = some t → R s t

namespace Along

variable {R : σ → σ → Prop}

theorem of_done {x : Attempt σ ε α} (h : Along R x) {s t : σ} {a : α} (hx : x s = .done a t) :
    R s t := h s t (by rw [hx]; rfl)

theorem mono {S : σ → σ → Prop} {x : Attempt σ ε α} (h : Along R x) (hRS : ∀ s t, R s t → S s t) :
    Along S x := fun s t hx ↦ hRS s t (h s t hx)

theorem exhausted : Along R (Attempt.exhausted : Attempt σ ε α) := fun s t h ↦ by cases h

theorem mapError {f : ε → δ} {x : Attempt σ ε α} (h : Along R x) : Along R (x.mapError f) := by
  intro s t hst
  refine h s t ?_
  unfold Attempt.mapError at hst
  cases hx : x s <;> rw [hx] at hst <;> exact hst

section Reflexive

variable [Std.Refl R]

theorem of_eq {x : Attempt σ ε α} (h : Along Eq x) : Along R x := by
  refine h.mono ?_
  rintro s _ rfl
  exact refl s

theorem pure (a : α) : Along R (Pure.pure a : Attempt σ ε α) := by
  intro s t h
  cases h
  exact refl s

theorem fail (e : ε) : Along R (Attempt.fail e : Attempt σ ε α) := by
  intro s t h
  cases h
  exact refl s

theorem get : Along R (Attempt.get : Attempt σ ε σ) := by
  intro s t h
  cases h
  exact refl s

theorem ask (query : σ → Option α) : Along R (Attempt.ask query : Attempt σ ε α) := by
  intro s t h
  unfold Attempt.ask at h
  cases hq : query s <;> rw [hq] at h <;> cases h
  exact refl s

theorem ofExcept (x : Except ε α) : Along R (Attempt.ofExcept x : Attempt σ ε α) := by
  cases x with
  | ok a => exact pure a
  | error e => exact fail e

end Reflexive

theorem bind [IsTrans σ R] {x : Attempt σ ε α} {f : α → Attempt σ ε β} (hx : Along R x)
    (hf : ∀ a, Along R (f a)) : Along R (x >>= f) := by
  intro s t h
  rw [state?_bind] at h
  cases hs : x s with
  | done a s' =>
    rw [hs] at h
    exact IsTrans.trans _ _ _ (hx s s' (by rw [hs]; rfl)) (hf a s' t h)
  | failed e s' =>
    rw [hs] at h
    cases h
    exact hx s t (by rw [hs]; rfl)
  | exhausted =>
    rw [hs] at h
    cases h

variable [Std.Refl R] [IsTrans σ R]

theorem map {x : Attempt σ ε α} (f : α → β) (hx : Along R x) : Along R (f <$> x) := by
  rw [← bind_pure_comp]
  exact hx.bind fun a ↦ pure (f a)

theorem mapM_of_mem {f : α → Attempt σ ε β} {xs : List α} (hf : ∀ x ∈ xs, Along R (f x)) :
    Along R (xs.mapM f) := by
  induction xs with
  | nil => exact pure []
  | cons x xs ih =>
    obtain ⟨hx, hxs⟩ := List.forall_mem_cons.1 hf
    rw [List.mapM_cons]
    exact hx.bind fun y ↦ (ih hxs).bind fun ys ↦ pure (y :: ys)

theorem mapM {f : α → Attempt σ ε β} (xs : List α) (hf : ∀ x, Along R (f x)) :
    Along R (xs.mapM f) :=
  mapM_of_mem fun x _ ↦ hf x

end Along

end Attempt

namespace Attempt

/-- Wherever `x` comes to an end, `y` ends in the same way. -/
def Deepens (x y : Attempt σ ε α) : Prop := ∀ s, x s ≠ .exhausted → y s = x s

namespace Deepens

theorem refl (x : Attempt σ ε α) : Deepens x x := fun _ _ ↦ rfl

theorem trans {x y z : Attempt σ ε α} (h : Deepens x y) (h' : Deepens y z) : Deepens x z := by
  intro s hs
  have hy := h s hs
  rw [h' s (by rwa [hy]), hy]

theorem exhausted (y : Attempt σ ε α) : Deepens Attempt.exhausted y := fun _ h ↦ absurd rfl h

theorem bind {x y : Attempt σ ε α} {f g : α → Attempt σ ε β} (hx : Deepens x y)
    (hf : ∀ a, Deepens (f a) (g a)) : Deepens (x >>= f) (y >>= g) := by
  intro s hs
  rw [bind_apply] at hs
  rw [bind_apply, bind_apply]
  cases h : x s with
  | done a t =>
    rw [h] at hs
    rw [hx s (by rw [h]; simp), h]
    exact hf a t hs
  | failed e t => rw [hx s (by rw [h]; simp), h]
  | exhausted => exact absurd (by rw [h]) hs

theorem map {x y : Attempt σ ε α} (f : α → β) (hx : Deepens x y) : Deepens (f <$> x) (f <$> y) := by
  rw [← bind_pure_comp, ← bind_pure_comp]
  exact hx.bind fun a ↦ refl _

theorem mapM {f g : α → Attempt σ ε β} (hf : ∀ a, Deepens (f a) (g a)) (xs : List α) :
    Deepens (xs.mapM f) (xs.mapM g) := by
  induction xs with
  | nil => exact refl _
  | cons x xs ih =>
    rw [List.mapM_cons, List.mapM_cons]
    exact (hf x).bind fun _ ↦ ih.bind fun _ ↦ refl _

theorem done {x y : Attempt σ ε α} (h : Deepens x y) {s t : σ} {a : α} (hx : x s = .done a t) :
    y s = .done a t := by
  rw [h s (by rw [hx]; simp), hx]

end Deepens

theorem bind_ne_exhausted_iff {x : Attempt σ ε α} {f : α → Attempt σ ε β} {s : σ} :
    (x >>= f) s ≠ .exhausted ↔
      x s ≠ .exhausted ∧ ∀ a t, x s = .done a t → f a t ≠ .exhausted := by
  rw [bind_apply]
  cases x s <;> simp

theorem mapM_ne_exhausted_iff {f : α → Attempt σ ε β} {xs : List α} {s : σ} :
    xs.mapM f s ≠ .exhausted ↔ ∀ before x after zs t, xs = before ++ x :: after →
      before.mapM f s = .done zs t → f x t ≠ .exhausted := by
  induction xs generalizing s with
  | nil => simp [pure_apply]
  | cons x xs ih =>
    rw [List.mapM_cons, bind_ne_exhausted_iff]
    constructor
    · intro h before x' after zs t hsplit hbefore
      obtain ⟨hx, hxs⟩ := h
      cases before with
      | nil =>
        cases hsplit
        cases hbefore
        exact hx
      | cons b before =>
        cases hsplit
        obtain ⟨y, s', ys, hy, hys, -⟩ := mapM_cons_eq_done_iff.1 hbefore
        have hrest := (bind_ne_exhausted_iff.1 (hxs y s' hy)).1
        exact ih.1 hrest before x' after ys t rfl hys
    · intro h
      refine ⟨h [] x xs [] s rfl rfl, ?_⟩
      intro y s' hy
      rw [bind_ne_exhausted_iff]
      refine ⟨ih.2 ?_, by simp [pure_apply]⟩
      intro before x' after zs t hsplit hbefore
      exact h (x :: before) x' after (y :: zs) t (by rw [hsplit]; rfl)
        (mapM_cons_eq_done_iff.2 ⟨y, s', zs, hy, hbefore, rfl⟩)

/-- If every item comes to an end after the items before it, each to some depth, then there is a depth
to which all items do. -/
theorem exists_mapM_ne_exhausted {f : Nat → α → Attempt σ ε β}
    (hf : ∀ m n, m ≤ n → ∀ a, Deepens (f m a) (f n a)) {xs : List α} {s : σ}
    (h : ∀ before x after zs t n, xs = before ++ x :: after → before.mapM (f n) s = .done zs t →
      ∃ m, f m x t ≠ .exhausted) : ∃ n, xs.mapM (f n) s ≠ .exhausted := by
  induction xs generalizing s with
  | nil => exact ⟨0, by simp [pure_apply]⟩
  | cons x xs ih =>
    obtain ⟨m, hm⟩ := h [] x xs [] s 0 rfl rfl
    cases hx : f m x s with
    | exhausted => exact absurd hx hm
    | failed e t =>
      refine ⟨m, ?_⟩
      rw [List.mapM_cons, bind_ne_exhausted_iff, hx]
      exact ⟨by simp, by simp⟩
    | done y s' =>
      have hrest : ∃ n, xs.mapM (f n) s' ≠ .exhausted := by
        apply ih
        intro before x' after zs t n hsplit hbefore
        refine h (x :: before) x' after (y :: zs) t (max m n) (by rw [hsplit]; rfl) ?_
        rw [mapM_cons_eq_done_iff]
        exact ⟨y, s', zs, (hf m _ (Nat.le_max_left m n) x).done hx,
          (Deepens.mapM (hf n _ (Nat.le_max_right m n)) before).done hbefore, rfl⟩
      obtain ⟨n, hn⟩ := hrest
      refine ⟨max m n, ?_⟩
      rw [List.mapM_cons, bind_ne_exhausted_iff, (hf m _ (Nat.le_max_left m n) x).done hx]
      refine ⟨by simp, ?_⟩
      intro y' t hy
      cases hy
      rw [bind_ne_exhausted_iff, Deepens.mapM (hf n _ (Nat.le_max_right m n)) xs s' hn]
      exact ⟨hn, by simp [pure_apply]⟩

/-- To whatever depths the items of a run come to an end, they end alike. -/
theorem mapM_agree {f : Nat → α → Attempt σ ε β} (hf : ∀ m n, m ≤ n → ∀ a, Deepens (f m a) (f n a))
    {xs : List α} {ys : List β} {s t : σ} {m n : Nat} (hm : xs.mapM (f m) s = .done ys t)
    (hn : xs.mapM (f n) s ≠ .exhausted) : xs.mapM (f n) s = .done ys t := by
  rcases Nat.le_total m n with h | h
  · exact (Deepens.mapM (hf m n h) xs).done hm
  · rw [← Deepens.mapM (hf n m h) xs s hn, hm]

/-- The items of a run that comes to an end do so too, after the items before them. -/
theorem ne_exhausted_of_mapM {f : Nat → α → Attempt σ ε β}
    (hf : ∀ m n, m ≤ n → ∀ a, Deepens (f m a) (f n a)) {before after : List α} {x : α} {zs : List β}
    {s t : σ} {m n : Nat} (hn : (before ++ x :: after).mapM (f n) s ≠ .exhausted)
    (hbefore : before.mapM (f m) s = .done zs t) : f n x t ≠ .exhausted := by
  have hends : before.mapM (f n) s ≠ .exhausted := by
    rw [List.mapM_append] at hn
    exact (bind_ne_exhausted_iff.1 hn).1
  exact mapM_ne_exhausted_iff.1 hn before x after zs t rfl (mapM_agree hf hbefore hends)

end Attempt

/-- The two computations have ended alike: with values that `R` relates or with the same error, in
states that `S` relates. -/
inductive Outcome.Rel (S : σ → τ → Prop) (R : α → β → Prop) :
    Outcome σ ε α → Outcome τ ε β → Prop
  | done {a : α} {b : β} {s : σ} {t : τ} (hv : R a b) (hs : S s t) : Rel S R (.done a s) (.done b t)
  | failed (e : ε) {s : σ} {t : τ} (hs : S s t) : Rel S R (.failed e s) (.failed e t)
  | exhausted : Rel S R .exhausted .exhausted

/-- The two computations have ended in the same way and in the same state, with values that `R`
relates or with whatever errors. -/
inductive Outcome.Alike (R : α → β → Prop) : Outcome σ ε α → Outcome σ ε β → Prop
  | done {a : α} {b : β} (hv : R a b) (s : σ) : Alike R (.done a s) (.done b s)
  | failed (e e' : ε) (s : σ) : Alike R (.failed e s) (.failed e' s)
  | exhausted : Alike R .exhausted .exhausted

theorem Outcome.Alike.exists_done {R : α → β → Prop} {o : Outcome σ ε α} {o' : Outcome σ ε β}
    (h : Alike R o o') (hdone : o.value?.isSome = true) :
    ∃ a b s, R a b ∧ o = .done a s ∧ o' = .done b s := by
  cases h with
  | done hv s => exact ⟨_, _, s, hv, rfl, rfl⟩
  | failed e e' s => cases hdone
  | exhausted => cases hdone

namespace Attempt

/-- From related states the two computations end alike. -/
def Rel (S : σ → τ → Prop) (R : α → β → Prop) (x : Attempt σ ε α) (y : Attempt τ ε β) : Prop :=
  ∀ s t, S s t → Outcome.Rel S R (x s) (y t)

namespace Rel

variable {S : σ → τ → Prop} {R : α → β → Prop}

theorem pure {a : α} {b : β} (h : R a b) :
    Rel S R (Pure.pure a : Attempt σ ε α) (Pure.pure b : Attempt τ ε β) := fun _ _ hs ↦ .done h hs

theorem fail (e : ε) : Rel S R (Attempt.fail e : Attempt σ ε α) (Attempt.fail e : Attempt τ ε β) :=
  fun _ _ hs ↦ .failed e hs

theorem get : Rel S S (Attempt.get : Attempt σ ε σ) (Attempt.get : Attempt τ ε τ) :=
  fun _ _ hs ↦ .done hs hs

theorem ask {p : σ → Option α} {q : τ → Option β} (h : ∀ s t, S s t → Option.Rel R (p s) (q t)) :
    Rel S R (Attempt.ask p : Attempt σ ε α) (Attempt.ask q : Attempt τ ε β) := by
  intro s t hs
  have hpq := h s t hs
  unfold Attempt.ask
  cases hp : p s <;> cases hq : q t <;> rw [hp, hq] at hpq <;> cases hpq
  · exact .exhausted
  · exact .done ‹_› hs

theorem same (x : Attempt σ ε α) : Rel Eq Eq x x := by
  rintro s _ rfl
  cases x s with
  | done a t => exact .done rfl rfl
  | failed e t => exact .failed e rfl
  | exhausted => exact .exhausted

theorem bind {γ ζ : Type} {Q : γ → ζ → Prop} {x : Attempt σ ε α} {y : Attempt τ ε β}
    {f : α → Attempt σ ε γ} {g : β → Attempt τ ε ζ} (hx : Rel S R x y)
    (hf : ∀ a b, R a b → Rel S Q (f a) (g b)) : Rel S Q (x >>= f) (y >>= g) := by
  intro s t hs
  have hxy := hx s t hs
  rw [bind_apply, bind_apply]
  cases hx : x s <;> cases hy : y t <;> rw [hx, hy] at hxy <;> cases hxy
  · exact hf _ _ ‹_› _ _ ‹_›
  · exact .failed _ ‹_›
  · exact .exhausted

theorem same_bind {γ ζ : Type} {Q : γ → ζ → Prop} (x : Attempt σ ε α) {f : α → Attempt σ ε γ}
    {g : α → Attempt σ ε ζ} (hf : ∀ a, Rel Eq Q (f a) (g a)) : Rel Eq Q (x >>= f) (x >>= g) := by
  refine (same x).bind ?_
  rintro a _ rfl
  exact hf a

theorem mapM {γ ζ : Type} {Q : γ → ζ → Prop} {f : α → Attempt σ ε γ} {g : β → Attempt τ ε ζ}
    (hf : ∀ a b, R a b → Rel S Q (f a) (g b)) {xs : List α} {ys : List β}
    (h : List.Forall₂ R xs ys) : Rel S (List.Forall₂ Q) (xs.mapM f) (ys.mapM g) := by
  induction h with
  | nil => exact .pure .nil
  | cons hxy _ ih =>
    rw [List.mapM_cons, List.mapM_cons]
    exact (hf _ _ hxy).bind fun _ _ hq ↦ ih.bind fun _ _ hqs ↦ .pure (.cons hq hqs)

end Rel

end Attempt

end CallResolution
