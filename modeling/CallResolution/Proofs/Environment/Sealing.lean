import CallResolution.Proofs.Reduction.WellScoped
import CallResolution.Proofs.Registry.Reachable
import CallResolution.Proofs.Scope.Match
import Mathlib.Logic.Relation

namespace CallResolution

open Attempt Relation

namespace Registry

variable {r : Registry} {d : TypeDecl}

/-- The declaration is new, and what it derives from is known. -/
structure Admits (r : Registry) (d : TypeDecl) : Prop where
  unknown : r.contains d.id = false
  parents : ∀ t ∈ d.base.toList ++ d.interfaces, r.contains t = true

theorem register_of_admits (h : r.Admits d) :
    register d r = .done d.id (r.insert (withImplicitBase d)) := by
  have hfind : (d.base.toList ++ d.interfaces).find? (!r.contains ·) = none :=
    List.find?_eq_none.2 fun t ht ↦ by simp [h.parents t ht]
  simp only [register, get_bind, h.unknown, Bool.false_eq_true, if_false, hfind]
  rfl

theorem register_of_not_admits (h : ¬r.Admits d) : ∃ e, register d r = .failed e r := by
  simp only [register, get_bind]
  cases hc : r.contains d.id with
  | true => exact ⟨_, rfl⟩
  | false =>
    simp only [Bool.false_eq_true, if_false]
    cases hf : (d.base.toList ++ d.interfaces).find? (!r.contains ·) with
    | some t => exact ⟨_, rfl⟩
    | none =>
      exact absurd ⟨hc, fun t ht ↦ by simpa using List.find?_eq_none.1 hf t ht⟩ h

theorem find?_insert_withImplicitBase (r : Registry) (d : TypeDecl) :
    (r.insert (withImplicitBase d)).find? d.id = some (withImplicitBase d) ∧
      (r.insert (withImplicitBase d)).lookup d.name = some d.id := by
  obtain ⟨base, hbase⟩ := withImplicitBase_eq d
  rw [hbase, find?_insert, if_pos rfl]
  exact ⟨rfl, Dictionary.find?_insert_self _ _ _⟩

end Registry

/-- There is a root scope for the bindings if and only if no symbol is bound twice. -/
theorem Bindings.exists_install_iff (b : Bindings) :
    (∃ root, b.install = .ok root) ↔
      b.entries.Pairwise fun p q ↦ p.1.agrees q.1 = false := by
  have hempty : ∀ p ∈ b.entries, ({} : Scope Definition).contains p.1 = false := fun _ _ ↦ rfl
  have hadd : (∃ t, ({} : Scope Definition).addAll b.entries = .ok t) ↔
      b.entries.Pairwise fun p q ↦ p.1.agrees q.1 = false :=
    (Scope.exists_addAll_iff rfl).trans (and_iff_right hempty)
  rw [← hadd]
  unfold install
  cases ({} : Scope Definition).addAll b.entries with
  | ok t => exact ⟨fun _ ↦ ⟨t, rfl⟩, fun _ ↦ ⟨_, rfl⟩⟩
  | error e =>
    constructor
    · rintro ⟨root, h⟩
      cases h
    · rintro ⟨t, h⟩
      cases h

namespace Environment

variable {e e' e₁ : Environment} {b : Bindings} {root : Scope Definition} {d : TypeDecl}

theorem onPending_of_none (f : Bindings → Bindings) (h : e.pending = none) :
    onPending f e = .failed .alreadySealed e := by
  simp only [onPending, get_bind, h]
  rfl

theorem onPending_of_some (f : Bindings → Bindings) (h : e.pending = some b) :
    onPending f e = .done () { e with pending := some (f b) } := by
  simp only [onPending, get_bind, h]
  rfl

theorem requireUnsealed_of_sealed (h : e.isSealed = true) :
    requireUnsealed e = .failed .alreadySealed e := by
  simp only [requireUnsealed, get_bind, h]
  rfl

theorem requireUnsealed_of_unsealed (h : e.isSealed = false) : requireUnsealed e = .done () e := by
  simp only [requireUnsealed, get_bind, h]
  rfl

theorem registerExtension_of_unsealed (m : Method) (h : e.isSealed = false) :
    registerExtension m e = .done () { e with types := e.types.addExtension m } := by
  rw [registerExtension, bind_apply, requireUnsealed_of_unsealed h]
  rfl

theorem sealRoot_of_none (h : e.pending = none) : sealRoot e = .done () e := by
  simp only [sealRoot, get_bind, h]
  rfl

theorem sealRoot_of_ok (h : e.pending = some b) (hb : b.install = .ok root) :
    sealRoot e = .done () { e with pending := none, root := some root } := by
  simp only [sealRoot, get_bind, modify_bind, h, hb]
  rfl

theorem sealRoot_of_error {cause : SymbolError} (h : e.pending = some b)
    (hb : b.install = .error cause) :
    sealRoot e = .failed (.symbol cause) { e with pending := none } := by
  simp only [sealRoot, get_bind, modify_bind, h, hb]
  rfl

theorem compile_of_unsealed (fuel : Nat) (node : Node) (h : e.root = none) :
    compile fuel node e = .failed .notSealed e := by
  simp only [compile, reduceWith, get_bind, h]
  rfl

theorem compile_ne_notSealed (fuel : Nat) (node : Node) (h : e.root = some root) :
    compile fuel node e ≠ .failed .notSealed e' := by
  rw [compile, reduceWith_apply h]
  cases Reduction.reduce fuel node ⟨e.types, ⟨root, []⟩, e.options⟩ with
  | done a s => simp
  | failed err s => simp
  | exhausted => simp

theorem registerType_of_sealed (h : e.isSealed = true) :
    registerType d e = .failed .alreadySealed e := by
  rw [registerType, bind_apply, requireUnsealed_of_sealed h]

theorem registerType_of_unsealed (h : e.isSealed = false) :
    registerType d e = match Registry.register d e.types with
      | .done id r => (do onPending (·.addType d.name id); return id : Action TypeId)
          { e with types := r }
      | .failed cause r => .failed (.registration cause) { e with types := r }
      | .exhausted => .exhausted := by
  rw [registerType, bind_apply, requireUnsealed_of_unsealed h]
  simp only [bind_apply, onTypes, mapError, within]
  cases Registry.register d e.types <;> rfl

theorem registerType_of_not_admits (h : e.isSealed = false) (hd : ¬e.types.Admits d) :
    ∃ cause, registerType d e = .failed (.registration cause) e := by
  obtain ⟨cause, hrun⟩ := Registry.register_of_not_admits hd
  refine ⟨cause, ?_⟩
  rw [registerType_of_unsealed h, hrun]

theorem registerType_of_pending (h : e.isSealed = false) (hd : e.types.Admits d)
    (hp : e.pending = some b) :
    registerType d e = .done d.id
      { e with types := e.types.insert (Registry.withImplicitBase d),
               pending := some (b.addType d.name d.id) } := by
  have hbind := onPending_of_some (e := { e with types := e.types.insert (Registry.withImplicitBase d) })
    (·.addType d.name d.id) hp
  rw [registerType_of_unsealed h, Registry.register_of_admits hd]
  dsimp only
  rw [bind_apply, hbind]
  rfl

/-- The type is entered before it turns out that its name cannot be bound. -/
theorem registerType_of_spent (h : e.isSealed = false) (hd : e.types.Admits d)
    (hp : e.pending = none) :
    registerType d e = .failed .alreadySealed
      { e with types := e.types.insert (Registry.withImplicitBase d) } := by
  have hbind := onPending_of_none (e := { e with types := e.types.insert (Registry.withImplicitBase d) })
    (·.addType d.name d.id) hp
  rw [registerType_of_unsealed h, Registry.register_of_admits hd]
  dsimp only
  rw [bind_apply, hbind]

/-! An environment collects registrations until it is sealed. When that fails, the registrations are
gone and there is no root: nothing can be registered or compiled any more. -/

/-- One operation, whether it succeeds or fails. -/
inductive Step : Environment → Environment → Prop
  | registerType {e e' : Environment} {d : TypeDecl}
      (h : (registerType d e).state? = some e') : Step e e'
  | registerExtension {e e' : Environment} {m : Method}
      (h : (registerExtension m e).state? = some e') : Step e e'
  | registerFunction {e e' : Environment} {name : String} {overloads : List Method}
      (h : (registerFunction name overloads e).state? = some e') : Step e e'
  | register {e e' : Environment} {k : SymbolKey} {d : Definition}
      (h : (register k d e).state? = some e') : Step e e'
  | sealRoot {e e' : Environment} (h : (sealRoot e).state? = some e') : Step e e'
  | compile {e e' : Environment} {fuel : Nat} {node : Node}
      (h : (compile fuel node e).state? = some e') : Step e e'

/-- The environment has come from a new one by a sequence of operations. -/
def Reachable (e : Environment) : Prop := ∃ options, ReflTransGen Step { options := options } e

/-- An attempt to seal failed on the way to `e`. -/
def SealFailed (e : Environment) : Prop :=
  ∃ e₀ cause e₁, Reachable e₀ ∧ Environment.sealRoot e₀ = .failed cause e₁ ∧ ReflTransGen Step e₁ e

/-- The registrations are used up and there is no root. -/
structure IsSpent (e : Environment) : Prop where
  pending : e.pending = none
  root : e.root = none

/-- What an operation can do to the registrations and the root. -/
inductive Moves (e e' : Environment) : Prop
  | stay (hpending : e'.pending = e.pending) (hroot : e'.root = e.root)
  | collect {b b' : Bindings} (hb : e.pending = some b) (hpending : e'.pending = some b')
      (hroot : e'.root = e.root)
  | settle {b : Bindings} {root : Scope Definition} (hb : e.pending = some b)
      (hpending : e'.pending = none) (hroot : e'.root = some root)
  | spoil {cause : EnvironmentError} (hfailed : Environment.sealRoot e = .failed cause e')

theorem moves_onPending {f : Bindings → Bindings} (h : (onPending f e).state? = some e') :
    Moves e e' := by
  cases hb : e.pending with
  | none =>
    rw [onPending_of_none f hb] at h
    cases h
    exact .stay rfl rfl
  | some b =>
    rw [onPending_of_some f hb] at h
    cases h
    exact .collect hb rfl rfl

theorem moves_registerType (h : (registerType d e).state? = some e') : Moves e e' := by
  cases hs : e.isSealed with
  | true =>
    rw [registerType_of_sealed hs] at h
    cases h
    exact .stay rfl rfl
  | false =>
    by_cases hd : e.types.Admits d
    · cases hb : e.pending with
      | none =>
        rw [registerType_of_spent hs hd hb] at h
        cases h
        exact .stay rfl rfl
      | some b =>
        rw [registerType_of_pending hs hd hb] at h
        cases h
        exact .collect hb rfl rfl
    · obtain ⟨cause, hrun⟩ := registerType_of_not_admits hs hd
      rw [hrun] at h
      cases h
      exact .stay rfl rfl

theorem moves_registerExtension {m : Method} (h : (registerExtension m e).state? = some e') :
    Moves e e' := by
  cases hs : e.isSealed with
  | true =>
    rw [registerExtension, bind_apply, requireUnsealed_of_sealed hs] at h
    cases h
    exact .stay rfl rfl
  | false =>
    rw [registerExtension_of_unsealed m hs] at h
    cases h
    exact .stay rfl rfl

theorem moves_sealRoot (h : (Environment.sealRoot e).state? = some e') : Moves e e' := by
  cases hb : e.pending with
  | none =>
    rw [sealRoot_of_none hb] at h
    cases h
    exact .stay rfl rfl
  | some b =>
    cases hi : b.install with
    | ok root =>
      rw [sealRoot_of_ok hb hi] at h
      cases h
      exact .settle hb rfl rfl
    | error cause =>
      have hrun := sealRoot_of_error hb hi
      rw [hrun] at h
      cases h
      exact .spoil hrun

theorem moves_compile {fuel : Nat} {node : Node} (h : (compile fuel node e).state? = some e') :
    Moves e e' := by
  cases hr : e.root with
  | none =>
    rw [compile_of_unsealed fuel node hr] at h
    cases h
    exact .stay rfl rfl
  | some root =>
    rw [compile, reduceWith_apply hr] at h
    cases hrun : Reduction.reduce fuel node ⟨e.types, ⟨root, []⟩, e.options⟩ with
    | done a s =>
      rw [hrun] at h
      cases h
      exact .stay rfl rfl
    | failed err s =>
      rw [hrun] at h
      cases h
      exact .stay rfl rfl
    | exhausted =>
      rw [hrun] at h
      cases h

theorem Step.moves (h : Step e e') : Moves e e' := by
  cases h with
  | registerType h => exact moves_registerType h
  | registerExtension h => exact moves_registerExtension h
  | registerFunction h => exact moves_onPending h
  | register h => exact moves_onPending h
  | sealRoot h => exact moves_sealRoot h
  | compile h => exact moves_compile h

theorem exists_pending_of_failed {cause : EnvironmentError}
    (h : Environment.sealRoot e = .failed cause e') :
    ∃ b, e.pending = some b ∧ (¬∃ root, b.install = .ok root) ∧ e' = { e with pending := none } := by
  cases hb : e.pending with
  | none =>
    rw [sealRoot_of_none hb] at h
    cases h
  | some b =>
    cases hi : b.install with
    | ok root =>
      rw [sealRoot_of_ok hb hi] at h
      cases h
    | error cause' =>
      rw [sealRoot_of_error hb hi] at h
      cases h
      refine ⟨b, rfl, ?_, rfl⟩
      rintro ⟨root, hroot⟩
      rw [hi] at hroot
      cases hroot

/-- While there are registrations to come there is no root. -/
def IsOrdered (e : Environment) : Prop := e.pending = none ∨ e.root = none

theorem IsOrdered.step (h : e.IsOrdered) (hstep : Step e e') : e'.IsOrdered := by
  unfold IsOrdered at h ⊢
  cases hstep.moves with
  | stay hp hr => rwa [hp, hr]
  | collect hb hp hr =>
    rw [hb] at h
    rw [hr]
    exact .inr (h.resolve_left (by simp))
  | settle hb hp hr => exact .inl hp
  | spoil hfailed =>
    obtain ⟨b, -, -, rfl⟩ := exists_pending_of_failed hfailed
    exact .inl rfl

theorem Reachable.isOrdered (h : Reachable e) : e.IsOrdered := by
  obtain ⟨options, hsteps⟩ := h
  induction hsteps with
  | refl => exact .inr rfl
  | tail _ hstep ih => exact ih.step hstep

theorem sealed_of_step (h : e.isSealed = true ∧ e.pending = none) (hstep : Step e e') :
    e'.isSealed = true ∧ e'.pending = none := by
  obtain ⟨hs, hp⟩ := h
  cases hstep.moves with
  | stay hp' hr => exact ⟨by rw [isSealed, hr]; exact hs, hp'.trans hp⟩
  | collect hb =>
    rw [hp] at hb
    cases hb
  | settle hb =>
    rw [hp] at hb
    cases hb
  | spoil hfailed =>
    rw [sealRoot_of_none hp] at hfailed
    cases hfailed

theorem sealed_of_steps (h : e.isSealed = true ∧ e.pending = none) (hsteps : ReflTransGen Step e e') :
    e'.isSealed = true := by
  suffices hboth : e'.isSealed = true ∧ e'.pending = none from hboth.1
  induction hsteps with
  | refl => exact h
  | tail _ hstep ih => exact sealed_of_step ih hstep

theorem IsSpent.step (h : e.IsSpent) (hstep : Step e e') : e'.IsSpent := by
  cases hstep.moves with
  | stay hp hr => exact ⟨hp.trans h.pending, hr.trans h.root⟩
  | collect hb =>
    rw [h.pending] at hb
    cases hb
  | settle hb =>
    rw [h.pending] at hb
    cases hb
  | spoil hfailed =>
    rw [sealRoot_of_none h.pending] at hfailed
    cases hfailed

theorem IsSpent.steps (h : e.IsSpent) (hsteps : ReflTransGen Step e e') : e'.IsSpent := by
  induction hsteps with
  | refl => exact h
  | tail _ hstep ih => exact ih.step hstep

theorem isSpent_of_failed {cause : EnvironmentError} (he : Reachable e)
    (h : Environment.sealRoot e = .failed cause e') : e'.IsSpent := by
  obtain ⟨b, hb, -, rfl⟩ := exists_pending_of_failed h
  refine ⟨rfl, ?_⟩
  have hor := he.isOrdered
  rw [IsOrdered, hb] at hor
  exact hor.resolve_left (by simp)

/-- Nothing but a failed attempt to seal uses the registrations up without giving a root. -/
theorem isSpent_iff (he : Reachable e) : e.IsSpent ↔ SealFailed e := by
  constructor
  · intro hspent
    obtain ⟨options, hsteps⟩ := he
    induction hsteps with
    | refl => cases hspent.pending
    | @tail e₁ e₂ hsteps hstep ih =>
      cases hstep.moves with
      | stay hp hr =>
        obtain ⟨e₀, cause, e', h₀, hfailed, hrest⟩ :=
          ih ⟨hp.symm.trans hspent.pending, hr.symm.trans hspent.root⟩
        exact ⟨e₀, cause, e', h₀, hfailed, hrest.tail hstep⟩
      | collect hb hp =>
        rw [hspent.pending] at hp
        cases hp
      | settle hb hp hr =>
        rw [hspent.root] at hr
        cases hr
      | spoil hfailed => exact ⟨e₁, _, e₂, ⟨options, hsteps⟩, hfailed, .refl⟩
  · rintro ⟨e₀, cause, e₁, h₀, hfailed, hrest⟩
    exact (isSpent_of_failed h₀ hfailed).steps hrest

/-- The operations that need a root or a place for registrations fail for good, and sealing does
nothing. Only extension methods are still taken. -/
structure IsDead (e : Environment) : Prop where
  unsealed : e.isSealed = false
  seals : Environment.sealRoot e = .done () e
  compile : ∀ fuel node, compile fuel node e = .failed .notSealed e
  registerFunction : ∀ name overloads, registerFunction name overloads e = .failed .alreadySealed e
  register : ∀ k d, register k d e = .failed .alreadySealed e
  registerType : ∀ d, (registerType d e).value? = none
  registerExtension : ∀ m,
    registerExtension m e = .done () { e with types := e.types.addExtension m }

theorem IsSpent.isDead (h : e.IsSpent) : e.IsDead := by
  have hunsealed : e.isSealed = false := by rw [isSealed, h.root]; rfl
  refine ⟨hunsealed, sealRoot_of_none h.pending, fun fuel node ↦ compile_of_unsealed fuel node h.root,
    fun _ _ ↦ onPending_of_none _ h.pending, fun _ _ ↦ onPending_of_none _ h.pending, fun d ↦ ?_,
    fun m ↦ registerExtension_of_unsealed m hunsealed⟩
  by_cases hd : e.types.Admits d
  · rw [registerType_of_spent hunsealed hd h.pending]
    rfl
  · obtain ⟨cause, hrun⟩ := registerType_of_not_admits hunsealed hd
    rw [hrun]
    rfl

/-- It is for good that an environment is sealed, unless an attempt has failed before: then the success
means nothing. An attempt fails if and only if a symbol is bound twice; it uses the registrations up,
and whatever is done next there will be no root. -/
theorem seal_for_good (he : Reachable e) :
    (∀ e', Environment.sealRoot e = .done () e' →
      ((∀ e₁, ReflTransGen Step e' e₁ → e₁.isSealed = true ∧
        ∀ fuel node e₂, Environment.compile fuel node e₁ ≠ .failed .notSealed e₂) ↔ ¬SealFailed e)) ∧
    ((∃ cause e', Environment.sealRoot e = .failed cause e') ↔
      ∃ b, e.pending = some b ∧ ¬b.entries.Pairwise fun p q ↦ p.1.agrees q.1 = false) ∧
    ∀ cause e', Environment.sealRoot e = .failed cause e' →
      e' = { e with pending := none } ∧ ∀ e₁, ReflTransGen Step e' e₁ → e₁.IsDead := by
  refine ⟨fun e' hrun ↦ ?_, ?_, fun cause e' hfailed ↦ ?_⟩
  · rw [← isSpent_iff he]
    constructor
    · intro h hspent
      rw [sealRoot_of_none hspent.pending] at hrun
      cases hrun
      have hsealed := (h e .refl).1
      rw [isSealed, hspent.root] at hsealed
      cases hsealed
    · intro hspent
      have hsealed : e'.isSealed = true ∧ e'.pending = none := by
        cases hb : e.pending with
        | none =>
          rw [sealRoot_of_none hb] at hrun
          cases hrun
          cases hr : e.root with
          | none => exact absurd ⟨hb, hr⟩ hspent
          | some root => exact ⟨by rw [isSealed, hr]; rfl, hb⟩
        | some b =>
          cases hi : b.install with
          | ok root =>
            rw [sealRoot_of_ok hb hi] at hrun
            cases hrun
            exact ⟨rfl, rfl⟩
          | error cause =>
            rw [sealRoot_of_error hb hi] at hrun
            cases hrun
      intro e₁ hsteps
      have hs := sealed_of_steps hsealed hsteps
      obtain ⟨root, hroot⟩ := Option.isSome_iff_exists.1 hs
      exact ⟨hs, fun fuel node e₂ ↦ compile_ne_notSealed fuel node hroot⟩
  · constructor
    · rintro ⟨cause, e', hfailed⟩
      obtain ⟨b, hb, hi, -⟩ := exists_pending_of_failed hfailed
      exact ⟨b, hb, fun hdistinct ↦ hi (b.exists_install_iff.2 hdistinct)⟩
    · rintro ⟨b, hb, hdistinct⟩
      cases hi : b.install with
      | ok root => exact absurd (b.exists_install_iff.1 ⟨root, hi⟩) hdistinct
      | error cause => exact ⟨_, _, sealRoot_of_error hb hi⟩
  · obtain ⟨b, -, -, heq⟩ := exists_pending_of_failed hfailed
    exact ⟨heq, fun e₁ hsteps ↦ ((isSpent_of_failed he hfailed).steps hsteps).isDead⟩

def bindAnswer (b : Bindings) : Bindings :=
  b.add (.global .ofMember "answer") (.constant (.literal (.int 42)))

/-- The symbol `answer`, bound twice. -/
def answerTwice : Environment where
  pending := some (bindAnswer (bindAnswer ({} : Bindings).addLiveMembers))

theorem reachable_answerTwice : Reachable answerTwice := by
  have hstep (e : Environment) (b : Bindings) (hb : e.pending = some b) :
      Step e { e with pending := some (bindAnswer b) } :=
    .register (congrArg Outcome.state? (onPending_of_some bindAnswer hb))
  exact ⟨{}, .tail (.single (hstep _ _ rfl)) (hstep _ _ rfl)⟩

theorem seal_answerTwice : Environment.sealRoot answerTwice =
    .failed (.symbol (.duplicateKey (.global .ofMember "answer"))) { answerTwice with pending := none } := by
  exact sealRoot_of_error rfl rfl

/-- After the failure sealing succeeds without effect. -/
theorem seal_for_good_answerTwice :
    Reachable answerTwice ∧ SealFailed { answerTwice with pending := none } ∧
      IsDead { answerTwice with pending := none } := by
  obtain ⟨-, -, hfailed⟩ := seal_for_good reachable_answerTwice
  exact ⟨reachable_answerTwice,
    ⟨_, _, _, reachable_answerTwice, seal_answerTwice, .refl⟩,
    (hfailed _ _ seal_answerTwice).2 _ .refl⟩

/-- A registration of a type that fails leaves everything as it was, unless an attempt to seal has
failed before and the type could be registered: then the type is known and its name found although the
registration is refused. -/
theorem registerType_failed {cause : EnvironmentError} (he : Reachable e)
    (h : registerType d e = .failed cause e') :
    (e' = e ↔ ¬(SealFailed e ∧ e.types.Admits d)) ∧
      (SealFailed e → e.types.Admits d → cause = .alreadySealed ∧
        e' = { e with types := e.types.insert (Registry.withImplicitBase d) } ∧
        e.types.contains d.id = false ∧
        e'.types.find? d.id = some (Registry.withImplicitBase d) ∧ e'.types.lookup d.name = some d.id) := by
  rw [← isSpent_iff he]
  have hspent (hs : e.IsSpent) (hd : e.types.Admits d) : cause = .alreadySealed ∧
      e' = { e with types := e.types.insert (Registry.withImplicitBase d) } := by
    rw [registerType_of_spent (by rw [isSealed, hs.root]; rfl) hd hs.pending] at h
    cases h
    exact ⟨rfl, rfl⟩
  refine ⟨⟨?_, ?_⟩, fun hs hd ↦ ?_⟩
  · rintro rfl ⟨hs, hd⟩
    have htypes : e'.types = e'.types.insert (Registry.withImplicitBase d) :=
      congrArg Environment.types (hspent hs hd).2
    have hfind := (Registry.find?_insert_withImplicitBase e'.types d).1
    rw [← htypes, Registry.find?_eq_none_of_contains hd.unknown] at hfind
    cases hfind
  · intro hnot
    cases hs : e.isSealed with
    | true =>
      rw [registerType_of_sealed hs] at h
      cases h
      rfl
    | false =>
      by_cases hd : e.types.Admits d
      · cases hb : e.pending with
        | none => exact absurd ⟨⟨hb, by simpa [isSealed] using hs⟩, hd⟩ hnot
        | some b =>
          rw [registerType_of_pending hs hd hb] at h
          cases h
      · obtain ⟨cause', hrun⟩ := registerType_of_not_admits hs hd
        rw [hrun] at h
        cases h
        rfl
  · obtain ⟨hcause, rfl⟩ := hspent hs hd
    obtain ⟨hfind, hlookup⟩ := Registry.find?_insert_withImplicitBase e.types d
    exact ⟨hcause, rfl, hd.unknown, hfind, hlookup⟩

def lateDecl : TypeDecl := { name := "Late", id := .ofName "Late", kind := .classType }

/-- The type `Late` is refused after the failure to seal, and known from then on. -/
theorem registerType_failed_late : ∃ e',
    registerType lateDecl { answerTwice with pending := none } = .failed .alreadySealed e' ∧
      e'.types.lookup "Late" = some (.ofName "Late") ∧
      answerTwice.types.contains (.ofName "Late") = false := by
  have hadmits : answerTwice.types.Admits lateDecl := ⟨by decide +kernel, by simp [lateDecl]⟩
  have hreachable : Reachable { answerTwice with pending := none } := by
    obtain ⟨options, hsteps⟩ := reachable_answerTwice
    exact ⟨options, hsteps.tail (.sealRoot (by rw [seal_answerTwice]; rfl))⟩
  have hrun : registerType lateDecl { answerTwice with pending := none } = .failed .alreadySealed _ :=
    registerType_of_spent rfl hadmits rfl
  obtain ⟨-, hlate⟩ := registerType_failed hreachable hrun
  obtain ⟨-, -, hunknown, -, hlookup⟩ :=
    hlate ⟨_, _, _, reachable_answerTwice, seal_answerTwice, .refl⟩ hadmits
  exact ⟨_, hrun, hlookup, hunknown⟩

end Environment

end CallResolution
