import CallResolution.Overload.Dispatch
import CallResolution.Proofs.Registry.Accounted
import CallResolution.Reduction.State
import Mathlib.Data.List.Forall2

namespace CallResolution

open Attempt Registry

variable {σ τ ε δ α β γ : Type}

namespace Outcome

/-- What a computation comes out with, whatever state it ends in. -/
def answer? : Outcome σ ε α → Option (Except ε α)
  | done a _ => some (.ok a)
  | failed e _ => some (.error e)
  | exhausted => none

/-- The outcome as it is seen from outside. -/
def lift (g : σ → τ) (f : ε → δ) : Outcome σ ε α → Outcome τ δ α
  | done a s => .done a (g s)
  | failed e s => .failed (f e) (g s)
  | exhausted => .exhausted

end Outcome

class Cites (α : Type) where
  cites : α → TypeId → Prop

export Cites (cites)

instance : Cites TypeId := ⟨fun t u ↦ u = t⟩
instance : Cites Unit := ⟨fun _ _ ↦ False⟩
instance : Cites Bool := ⟨fun _ _ ↦ False⟩
instance : Cites String := ⟨fun _ _ ↦ False⟩
instance : Cites Expr := ⟨fun e u ↦ u ∈ e.handles⟩
instance : Cites Method := ⟨fun d u ↦ u ∈ d.handles⟩
instance : Cites Param := ⟨fun p u ↦ u = p.type⟩
instance : Cites Substitution := ⟨fun map u ↦ ∃ t, map.find? t = some u⟩
instance [Cites α] : Cites (Option α) := ⟨fun o u ↦ ∃ a, o = some a ∧ cites a u⟩
instance [Cites α] : Cites (List α) := ⟨fun xs u ↦ ∃ a ∈ xs, cites a u⟩

/-- Two runs, of which the second is to do what the first does. Both begin to differ where the handle of
a type comes up that is neither known nor void; all that is said of them is said as long as the registry
of the first is `live`. -/
structure Tandem where
  void : TypeId → Prop
  live : Registry → Prop
  /-- How the registries of the two runs are related. -/
  holds : Registry → Registry → Prop
  /-- Whether the second run fails to make a type where the first does. -/
  strict : Prop
  /-- What is said of the first run alone where it has failed to make a type. -/
  left : Registry → Prop
  live_of_grows : ∀ {r r'}, Grows r r' → live r' → live r

/-- Where a state has the registry, and the errors that say that a type could not be made. -/
structure Vantage (σ ε : Type) where
  embed : Registry → σ
  unmade : ε → Prop

namespace Tandem

variable {T : Tandem} {V : Vantage σ ε} {r r' r'' s s' s'' : Registry}

def Runs (T : Tandem) (r s : Registry) : Prop := T.live r → T.holds r s

/-- What the value cites is known or void. -/
def Knows [Cites α] (T : Tandem) (r : Registry) (a : α) : Prop :=
  T.live r → ∀ t, cites a t → Accounted T.void r t

/-- The two runs have gone on to `r'` and `s'`. -/
structure Extends (T : Tandem) (r r' s' : Registry) : Prop where
  grows : Grows r r'
  runs : T.Runs r' s'

theorem Runs.extends (h : T.Runs r s) : T.Extends r r s := ⟨refl r, h⟩

theorem Extends.trans (h : T.Extends r r' s') (h' : T.Extends r' r'' s'') : T.Extends r r'' s'' :=
  ⟨IsTrans.trans _ _ _ h.grows h'.grows, h'.runs⟩

theorem Knows.grows [Cites α] {a : α} (h : T.Knows r a) (hgrows : Grows r r') : T.Knows r' a :=
  fun hlive t ht ↦ (h (T.live_of_grows hgrows hlive) t ht).mono fun _ hu ↦ hgrows.contains hu

theorem Knows.of_subset [Cites α] [Cites β] {a : α} {b : β} (h : T.Knows r a)
    (hsub : ∀ t, cites b t → cites a t) : T.Knows r b :=
  fun hlive t ht ↦ h hlive t (hsub t ht)

theorem knows_of_not [Cites α] {a : α} (h : ∀ t, ¬cites a t) : T.Knows r a :=
  fun _ t ht ↦ absurd ht (h t)

theorem Knows.some [Cites α] {a : α} (h : T.Knows r a) : T.Knows r (some a) := by
  rintro hlive t ⟨_, ⟨⟩, ht⟩
  exact h hlive t ht

theorem knows_none [Cites α] : T.Knows r (none : Option α) := by
  rintro - t ⟨_, ⟨⟩, -⟩

theorem knows_list_iff [Cites α] {xs : List α} : T.Knows r xs ↔ ∀ x ∈ xs, T.Knows r x := by
  constructor
  · intro h x hx hlive t ht
    exact h hlive t ⟨x, hx, ht⟩
  · rintro h hlive t ⟨x, hx, ht⟩
    exact h x hx hlive t ht

/-- The first run has ended with the one outcome and the second with the other. -/
inductive Follows [Cites α] (T : Tandem) (V : Vantage σ ε) (r : Registry) :
    Outcome σ ε α → Outcome σ ε α → Prop
  | done {a : α} {r' s' : Registry} {o : Outcome σ ε α} (h : T.Extends r r' s')
      (hrun : T.live r' → o = .done a (V.embed s')) (ha : T.Knows r' a) :
      Follows T V r (.done a (V.embed r')) o
  | failed {e : ε} {r' s' : Registry} {o : Outcome σ ε α} (h : T.Extends r r' s')
      (hrun : T.live r' → o = .failed e (V.embed s')) : Follows T V r (.failed e (V.embed r')) o
  | unmade {e : ε} {r' : Registry} {o : Outcome σ ε α} (he : V.unmade e) (hgrows : Grows r r')
      (hleft : T.live r' → T.left r')
      (hrun : T.strict → T.live r' → ∃ s', o = .failed e (V.embed s')) :
      Follows T V r (.failed e (V.embed r')) o
  | exhausted {o : Outcome σ ε α} : Follows T V r .exhausted o

theorem Follows.weaken [Cites α] {o p q : Outcome σ ε α} (hgrows : Grows r r')
    (h : T.Follows V r' o p) (hq : T.live r' → q = p) : T.Follows V r o q := by
  cases h with
  | done h hrun ha =>
    refine .done ⟨IsTrans.trans _ _ _ hgrows h.grows, h.runs⟩ (fun hlive ↦ ?_) ha
    rw [hq (T.live_of_grows h.grows hlive), hrun hlive]
  | failed h hrun =>
    refine .failed ⟨IsTrans.trans _ _ _ hgrows h.grows, h.runs⟩ fun hlive ↦ ?_
    rw [hq (T.live_of_grows h.grows hlive), hrun hlive]
  | unmade he hgrows' hleft hrun =>
    refine .unmade he (IsTrans.trans _ _ _ hgrows hgrows') hleft fun hstrict hlive ↦ ?_
    rw [hq (T.live_of_grows hgrows' hlive)]
    exact hrun hstrict hlive
  | exhausted => exact .exhausted

theorem Follows.lift [Cites α] {W : Vantage τ δ} {g : σ → τ} {f : ε → δ} {o p : Outcome σ ε α}
    (hembed : ∀ r, W.embed r = g (V.embed r)) (hunmade : ∀ e, V.unmade e → W.unmade (f e))
    (h : T.Follows V r o p) : T.Follows W r (o.lift g f) (p.lift g f) := by
  cases h with
  | done h hrun ha =>
    rw [Outcome.lift, ← hembed]
    refine .done h (fun hlive ↦ ?_) ha
    rw [hrun hlive, Outcome.lift, hembed]
  | failed h hrun =>
    rw [Outcome.lift, ← hembed]
    refine .failed h fun hlive ↦ ?_
    rw [hrun hlive, Outcome.lift, hembed]
  | unmade he hgrows hleft hrun =>
    rw [Outcome.lift, ← hembed]
    refine .unmade (hunmade _ he) hgrows hleft fun hstrict hlive ↦ ?_
    obtain ⟨s', hs'⟩ := hrun hstrict hlive
    exact ⟨s', by rw [hs', Outcome.lift, hembed]⟩
  | exhausted => exact .exhausted

/-- Where the first run has ended, either the two are still in tandem or a type could not be made. -/
theorem Follows.exists_state [Cites α] {o p : Outcome σ ε α} {a : σ} (h : T.Follows V r o p)
    (ha : o.state? = some a) : ∃ r', a = V.embed r' ∧ Grows r r' ∧
      ((∃ s', T.Runs r' s') ∨
        (T.live r' → T.left r') ∧ ∃ e, V.unmade e ∧ o.answer? = some (.error e)) := by
  cases h with
  | done h _ _ =>
    cases ha
    exact ⟨_, rfl, h.grows, .inl ⟨_, h.runs⟩⟩
  | failed h _ =>
    cases ha
    exact ⟨_, rfl, h.grows, .inl ⟨_, h.runs⟩⟩
  | unmade he hgrows hleft _ =>
    cases ha
    exact ⟨_, rfl, hgrows, .inr ⟨hleft, _, he, rfl⟩⟩
  | exhausted => cases ha

/-- If the end of the first run is live, the second comes out with the same. -/
theorem Follows.answer?_eq [Cites α] {o p : Outcome σ ε α} {a : Except ε α} (h : T.Follows V r o p)
    (ha : o.answer? = some a) (hlive : ∀ r', o.state? = some (V.embed r') → T.live r')
    (hstrict : ∀ e, V.unmade e → a = .error e → T.strict) : p.answer? = some a := by
  cases h with
  | done _ hrun _ =>
    cases ha
    rw [hrun (hlive _ rfl)]
    rfl
  | failed _ hrun =>
    cases ha
    rw [hrun (hlive _ rfl)]
    rfl
  | unmade he _ _ hrun =>
    cases ha
    obtain ⟨s', hs'⟩ := hrun (hstrict _ he rfl) (hlive _ rfl)
    rw [hs']
    rfl
  | exhausted => cases ha

/-- Begun in `r` and `s`, the computation `y` does what `x` does. -/
def Tracks [Cites α] (T : Tandem) (V : Vantage σ ε) (r s : Registry) (x y : Attempt σ ε α) : Prop :=
  T.Follows V r (x (V.embed r)) (y (V.embed s))

namespace Tracks

variable [Cites α] [Cites β] {x y : Attempt σ ε α}

theorem pure (h : T.Runs r s) {a : α} (ha : T.Knows r a) :
    T.Tracks V r s (Pure.pure a) (Pure.pure a) := .done h.extends (fun _ ↦ rfl) ha

theorem fail (h : T.Runs r s) (e : ε) :
    T.Tracks V r s (Attempt.fail e : Attempt σ ε α) (Attempt.fail e) := .failed h.extends fun _ ↦ rfl

theorem congr_right (h : T.Tracks V r s x y) {z : Attempt σ ε α}
    (hz : T.live r → z (V.embed s) = y (V.embed s)) : T.Tracks V r s x z :=
  Follows.weaken (refl r) h hz

/-- What the second run goes by is what the first goes by. -/
theorem subst {p q : γ} {g : γ → Attempt σ ε α} (hq : T.live r → q = p)
    (h : T.Tracks V r s x (g p)) : T.Tracks V r s x (g q) :=
  h.congr_right fun hlive ↦ by rw [hq hlive]

theorem get_bind {f g : σ → Attempt σ ε α} (h : T.Tracks V r s (f (V.embed r)) (g (V.embed s))) :
    T.Tracks V r s (Attempt.get >>= f) (Attempt.get >>= g) := h

theorem bind_of_done {f g : α → Attempt σ ε β} (hx : T.Tracks V r s x y)
    (hf : ∀ a r' s', x (V.embed r) = .done a (V.embed r') → T.Extends r r' s' → T.Knows r' a →
      T.Tracks V r' s' (f a) (g a)) : T.Tracks V r s (x >>= f) (y >>= g) := by
  unfold Tracks at hx ⊢
  rw [bind_apply, bind_apply]
  generalize x (V.embed r) = o at hx hf
  cases hx with
  | done h hrun ha =>
    refine Follows.weaken h.grows (hf _ _ _ rfl h ha) fun hlive ↦ ?_
    rw [hrun hlive]
  | failed h hrun =>
    refine .failed h fun hlive ↦ ?_
    rw [hrun hlive]
  | unmade he hgrows hleft hrun =>
    refine .unmade he hgrows hleft fun hstrict hlive ↦ ?_
    obtain ⟨s', hs'⟩ := hrun hstrict hlive
    rw [hs']
    exact ⟨s', rfl⟩
  | exhausted => exact .exhausted

theorem bind {f g : α → Attempt σ ε β} (hx : T.Tracks V r s x y)
    (hf : ∀ a r' s', T.Extends r r' s' → T.Knows r' a → T.Tracks V r' s' (f a) (g a)) :
    T.Tracks V r s (x >>= f) (y >>= g) := hx.bind_of_done fun a r' s' _ ↦ hf a r' s'

theorem map (f : α → β) (hx : T.Tracks V r s x y)
    (hf : ∀ a r' s', T.Extends r r' s' → T.Knows r' a → T.Knows r' (f a)) :
    T.Tracks V r s (f <$> x) (f <$> y) := by
  rw [← bind_pure_comp, ← bind_pure_comp]
  exact hx.bind fun a r' s' h ha ↦ pure h.runs (hf a r' s' h ha)

/-- A query that both runs answer alike. -/
theorem ask_bind {p q : σ → Option γ} {f g : γ → Attempt σ ε β}
    (hq : T.live r → ∀ c, p (V.embed r) = some c → q (V.embed s) = some c)
    (hf : ∀ c, p (V.embed r) = some c → T.Tracks V r s (f c) (g c)) :
    T.Tracks V r s (Attempt.ask p >>= f) (Attempt.ask q >>= g) := by
  unfold Tracks
  rw [bind_apply, bind_apply, Attempt.ask]
  cases hp : p (V.embed r) with
  | none => exact .exhausted
  | some c =>
    refine Follows.weaken (refl r) (hf c hp) fun hlive ↦ ?_
    rw [Attempt.ask, hq hlive c hp]

theorem ask (h : T.Runs r s) {p q : σ → Option α}
    (hq : T.live r → ∀ a, p (V.embed r) = some a → q (V.embed s) = some a)
    (ha : ∀ a, p (V.embed r) = some a → T.Knows r a) :
    T.Tracks V r s (Attempt.ask p) (Attempt.ask q) := by
  have hbind := ask_bind hq fun a hp ↦ pure h (ha a hp)
  rwa [bind_pure, bind_pure] at hbind

theorem ofExcept_bind {p q : Except ε γ} {f g : γ → Attempt σ ε β} (h : T.Runs r s)
    (hq : T.live r → q = p) (hf : ∀ c, p = .ok c → T.Tracks V r s (f c) (g c)) :
    T.Tracks V r s (Attempt.ofExcept p >>= f) (Attempt.ofExcept q >>= g) := by
  have hsame : T.Tracks V r s (Attempt.ofExcept p >>= f) (Attempt.ofExcept p >>= g) := by
    cases p with
    | ok c => exact hf c rfl
    | error e => exact fail h e
  exact hsame.congr_right fun hlive ↦ by rw [hq hlive]

theorem mapError {W : Vantage σ δ} {f : ε → δ} (hembed : W.embed = V.embed)
    (hunmade : ∀ e, V.unmade e → W.unmade (f e)) (hx : T.Tracks V r s x y) :
    T.Tracks W r s (x.mapError f) (y.mapError f) := by
  have hlift : ∀ (z : Attempt σ ε α) t, z.mapError f t = (z t).lift id f := by
    intro z t
    unfold Attempt.mapError
    cases z t <;> rfl
  unfold Tracks
  rw [hlift, hlift, hembed]
  exact Follows.lift (fun r ↦ congrFun hembed r) hunmade hx

/-- Two loops over computations that go in tandem one by one, each begun where the ones before it have
led. -/
theorem mapM_forall₂ {xs ys : List γ} {f g : γ → Attempt σ ε α} (h : T.Runs r s)
    (hf : List.Forall₂ (fun x y ↦ ∀ r' s', T.Extends r r' s' → T.Tracks V r' s' (f x) (g y)) xs ys) :
    T.Tracks V r s (xs.mapM f) (ys.mapM g) := by
  induction xs generalizing r s ys with
  | nil =>
    cases hf
    exact pure h (knows_list_iff.2 (by simp))
  | cons x xs ih =>
    cases hf with
    | cons hx hxs =>
      rw [List.mapM_cons, List.mapM_cons]
      refine (hx r s h.extends).bind fun a r₁ s₁ h₁ ha ↦ ?_
      have hrest := ih h₁.runs (hxs.imp fun x y hxy r' s' h' ↦ hxy r' s' (h₁.trans h'))
      refine hrest.bind fun as r₂ s₂ h₂ has ↦ pure h₂.runs (knows_list_iff.2 ?_)
      exact List.forall_mem_cons.2 ⟨ha.grows h₂.grows, knows_list_iff.1 has⟩

theorem mapM {xs : List γ} {f g : γ → Attempt σ ε α} (h : T.Runs r s)
    (hf : ∀ x ∈ xs, ∀ r' s', T.Extends r r' s' → T.Tracks V r' s' (f x) (g x)) :
    T.Tracks V r s (xs.mapM f) (xs.mapM g) :=
  mapM_forall₂ h (List.forall₂_same.2 hf)

end Tracks

abbrev atRegistry (_ : Tandem) : Vantage Registry RegistrationError := ⟨fun r ↦ r, fun _ ↦ True⟩

abbrev atTypes (_ : Tandem) : Vantage Registry CompileError :=
  ⟨fun r ↦ r, fun e ↦ ∃ cause, e = .registration cause⟩

abbrev atReducer (T : Tandem) (c : ScopeChain Definition) (o : Options) : Vantage Reducer CompileError :=
  ⟨fun r ↦ ⟨r, c, o⟩, T.atTypes.unmade⟩

theorem Follows.of_done [Cites α] {a : α} {o : Outcome Registry RegistrationError α}
    (h : T.Follows T.atRegistry r (.done a r') o) :
    ∃ s', T.Extends r r' s' ∧ (T.live r' → o = .done a s') ∧ T.Knows r' a := by
  cases h with
  | done h hrun ha => exact ⟨_, h, hrun, ha⟩

theorem Follows.of_failed [Cites α] {e : RegistrationError} {o : Outcome Registry RegistrationError α}
    (h : T.Follows T.atRegistry r (.failed e r') o) :
    Grows r r' ∧ (T.strict → T.live r' → ∃ s', o = .failed e s') := by
  cases h with
  | failed h hrun => exact ⟨h.grows, fun _ hlive ↦ ⟨_, hrun hlive⟩⟩
  | unmade _ hgrows _ hrun => exact ⟨hgrows, hrun⟩

/-- Nothing is said of a run whose end is not live. -/
theorem Follows.vacuous [Cites α] {x : Attempt Registry RegistrationError α}
    {o : Outcome Registry RegistrationError α} (hx : Along Grows x)
    (h : ∀ r', (x r).state? = some r' → ¬T.live r') : T.Follows T.atRegistry r (x r) o := by
  have hgrows := hx r
  cases hrun : x r with
  | done a r' =>
    rw [hrun] at h hgrows
    have hdead := h r' rfl
    have hend : T.Extends r r' r := ⟨hgrows r' rfl, fun hlive ↦ absurd hlive hdead⟩
    exact .done hend (fun hlive ↦ absurd hlive hdead) fun hlive ↦ absurd hlive hdead
  | failed e r' =>
    rw [hrun] at h hgrows
    have hdead := h r' rfl
    exact .unmade trivial (hgrows r' rfl) (fun hlive ↦ absurd hlive hdead) fun _ hlive ↦ absurd hlive hdead
  | exhausted => exact .exhausted

theorem Tracks.of_not_live [Cites α] {x y : Attempt Registry RegistrationError α} (hx : Along Grows x)
    (h : ¬T.live r) : T.Tracks T.atRegistry r s x y :=
  Follows.vacuous hx fun r' hr' hlive ↦ h (T.live_of_grows (hx r r' hr') hlive)

/-- What makes it possible to compile to the depths `m` and `n` in tandem. -/
structure Valid (T : Tandem) (m n : Nat) : Prop where
  le : m ≤ n
  agrees : ∀ {r s}, T.live r → T.holds r s → Agrees T.void r s
  substitute : ∀ {r s} {map : Substitution} {t : TypeId}, T.Runs r s → T.Knows r map → T.Knows r t →
    T.Tracks T.atRegistry r s (substitute m map t) (substitute n map t)
  staticWrapper : ∀ {r s} {t : TypeId}, T.Runs r s → T.Knows r t →
    T.Tracks T.atRegistry r s (staticWrapper t) (staticWrapper t)

end Tandem

end CallResolution
