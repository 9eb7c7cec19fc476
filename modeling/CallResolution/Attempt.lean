namespace CallResolution

/-- How a computation over a state ends: with a value or an error, either way with the state it
leaves, or beyond the nesting bound it was given. -/
inductive Outcome (σ ε α : Type) where
  | done (value : α) (state : σ)
  | failed (error : ε) (state : σ)
  | exhausted
deriving DecidableEq

/-- A computation over a state of type `σ`. A failure keeps what was changed before it. -/
def Attempt (σ ε α : Type) := σ → Outcome σ ε α

namespace Attempt

variable {σ τ ε δ α β : Type}

protected def pure (a : α) : Attempt σ ε α := fun s ↦ .done a s

protected def bind (x : Attempt σ ε α) (f : α → Attempt σ ε β) : Attempt σ ε β := fun s ↦
  match x s with
  | .done a s => f a s
  | .failed e s => .failed e s
  | .exhausted => .exhausted

instance : Monad (Attempt σ ε) where
  pure := Attempt.pure
  bind := Attempt.bind

def fail (e : ε) : Attempt σ ε α := fun s ↦ .failed e s

def exhausted : Attempt σ ε α := fun _ ↦ .exhausted

def get : Attempt σ ε σ := fun s ↦ .done s s

def modify (f : σ → σ) : Attempt σ ε Unit := fun s ↦ .done () (f s)

def ask (query : σ → Option α) : Attempt σ ε α := fun s ↦
  match query s with
  | some a => .done a s
  | none => .exhausted

def ofExcept : Except ε α → Attempt σ ε α
  | .ok a => pure a
  | .error e => fail e

def mapError (f : ε → δ) (x : Attempt σ ε α) : Attempt σ δ α := fun s ↦
  match x s with
  | .done a s => .done a s
  | .failed e s => .failed (f e) s
  | .exhausted => .exhausted

def within (part : τ → σ) (update : σ → τ → τ) (x : Attempt σ ε α) : Attempt τ ε α := fun t ↦
  match x (part t) with
  | .done a s => .done a (update s t)
  | .failed e s => .failed e (update s t)
  | .exhausted => .exhausted

/-- Runs `cleanup` once `x` has ended, well or not. An error of `cleanup` takes precedence. -/
def ensuring (x : Attempt σ ε α) (cleanup : Attempt σ ε Unit) : Attempt σ ε α := fun s ↦
  match x s with
  | .done a s => (do cleanup; return a) s
  | .failed e s => (do cleanup; fail e) s
  | .exhausted => .exhausted

theorem pure_apply (a : α) (s : σ) : (pure a : Attempt σ ε α) s = .done a s := rfl

theorem bind_apply (x : Attempt σ ε α) (f : α → Attempt σ ε β) (s : σ) :
    (x >>= f) s = match x s with
      | .done a s => f a s
      | .failed e s => .failed e s
      | .exhausted => .exhausted := rfl

instance : LawfulMonad (Attempt σ ε) :=
  LawfulMonad.mk' _
    (fun x ↦ by
      funext s
      change (match x s with
        | .done a s => Outcome.done (id a) s
        | .failed e s => .failed e s
        | .exhausted => .exhausted) = x s
      cases x s <;> rfl)
    (fun _ _ ↦ rfl)
    (fun x f g ↦ by
      funext s
      simp only [bind_apply]
      cases x s <;> rfl)

theorem bind_eq_done_iff {x : Attempt σ ε α} {f : α → Attempt σ ε β} {s t : σ} {b : β} :
    (x >>= f) s = .done b t ↔ ∃ a s', x s = .done a s' ∧ f a s' = .done b t := by
  rw [bind_apply]
  constructor
  · intro h
    cases hx : x s with
    | done a s' => exact ⟨a, s', rfl, by simpa only [hx] using h⟩
    | failed e s' => simp only [hx] at h; contradiction
    | exhausted => simp only [hx] at h; contradiction
  · rintro ⟨a, s', hx, h⟩
    simpa only [hx] using h

theorem bind_eq_failed_iff {x : Attempt σ ε α} {f : α → Attempt σ ε β} {s t : σ} {e : ε} :
    (x >>= f) s = .failed e t ↔
      x s = .failed e t ∨ ∃ a s', x s = .done a s' ∧ f a s' = .failed e t := by
  rw [bind_apply]
  constructor
  · intro h
    cases hx : x s with
    | done a s' => exact .inr ⟨a, s', rfl, by simpa only [hx] using h⟩
    | failed e' s' =>
      simp only [hx] at h
      cases h
      exact .inl rfl
    | exhausted => simp only [hx] at h; contradiction
  · rintro (hx | ⟨a, s', hx, h⟩)
    · simp only [hx]
    · simpa only [hx] using h

end Attempt

end CallResolution
