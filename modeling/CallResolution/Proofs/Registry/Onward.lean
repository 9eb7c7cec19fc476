import CallResolution.Proofs.Registry.Closure
import CallResolution.Proofs.Tandem

namespace CallResolution.Registry

open Attempt

variable {void : TypeId → Prop} {r₀ E r r' s : Registry} {fuel : Nat} {map : Substitution} {t v : TypeId}

/-- `r` has come from `r₀` on the way to `E`, where all that has been made is settled. -/
structure Onward (void : TypeId → Prop) (r₀ E r : Registry) : Prop where
  stage : Stage r₀ r
  closed : Closed void r
  settles : Settles r₀ E r₀ r

theorem Settled.of_stage {e : TypeDecl} (h : Settled r E t e) (hstage : Stage r₀ r) : Settled r₀ E t e := by
  cases h with
  | wrapper hname => exact .wrapper hname
  | made hd ht hrun => exact .made (hstage.templates _ _ hd ht) ht hrun

/-- What is settled once it has been made remains so. -/
theorem Settled.grows {e : TypeDecl} (h : Settled r r' t e) (he : r'.find? t = some e)
    (hclosed : Closed void r) (hclosed' : Closed void r') (hE : ∀ t, void t → E.contains t = false)
    (hgrows : Grows r r') (hr' : Grows r' E) : Settled r E t e := by
  cases h with
  | wrapper hname =>
    obtain ⟨d, hd, rfl⟩ := Option.map_eq_some_iff.1 hname
    exact .wrapper (by rw [name?, hr'.find? hd, Option.map_some])
  | @made template d args ts fuel hd ht hrun =>
    have hargs : ∀ a ∈ args, Foreseen r' E a := by
      intro a ha
      have hmem : a ∈ (filled (r'.instanceHeader d template args) d ts).typeArgs := by
        rw [(completes_filled _ hrun).typeArgs]
        exact ha
      exact (hclosed'.decl _ _ he a (TypeDecl.mem_handles_iff.2 (.typeArg hmem))).imp_right (hE a)
    have hmentioned : ∀ u ∈ d.mentioned, Foreseen r E u := fun u hu ↦
      (hclosed.decl template d hd u (TypeDecl.mem_handles_of_mem_mentioned hu)).imp_right (hE u)
    rw [instanceHeader_eq hargs hr'.leads]
    exact .made hd ht (mentionedAt_again (IsTrans.trans _ _ _ hgrows hr') (hclosed.foresees hE) hgrows
      hmentioned hrun hr'.leads)

namespace Onward

variable (h : Onward void r₀ E r) (hE : ∀ t, void t → E.contains t = false) (hr' : Grows r' E)

include h hE hr'

theorem settles_substitute (hmap : Covers void r map) (ht : Accounted void r t)
    (hrun : substitute fuel map t r = .done v r') : Settles r₀ E r r' := by
  have hr : Grows r E := IsTrans.trans _ _ _ ((grows_substitute _ _ _).of_done hrun) hr'
  have hforeseen : ∀ {u}, Accounted void r u → Foreseen r E u := fun hu ↦ hu.imp_right (hE _)
  obtain ⟨-, hmade⟩ := (settles_run hr (h.closed.foresees hE) fuel).1 map t v r r' (.refl r)
    (fun u b hb ↦ hforeseen (hmap u b hb)) (hforeseen ht) hrun hr'.leads
  exact fun u e hu he ↦ (hmade u e hu he).of_stage h.stage

theorem of_finishes (hgrows : Grows r r') (hstage : Stage r₀ r') (hclosed : Closed void r')
    (hfinishes : Finishes r r') : Onward void r₀ E r' := by
  refine ⟨hstage, hclosed, h.settles.trans (fun u e hu he ↦ ?_) hgrows⟩
  exact ((hfinishes u e hu he).grows he h.closed hclosed hE hgrows hr').of_stage h.stage

end Onward

/-- A run by itself, on the way to `E`. -/
def onward (void : TypeId → Prop) (r₀ E : Registry) : Tandem where
  void := void
  live r := Grows r E
  holds r s := s = r ∧ Onward void r₀ E r
  strict := False
  left r := Stage r₀ r ∧ Closed void r
  live_of_grows hgrows h := IsTrans.trans _ _ _ hgrows h

open Tandem

theorem tracks_onward {x : Attempt Registry RegistrationError TypeId} (hx : Along Grows x)
    (hstage : Along (Keeps (Stage r₀)) x) (h : (onward void r₀ E).Runs r s)
    (hcloses : Onward void r₀ E r → Grows r E → Closes void r (x r))
    (hsettles : Onward void r₀ E r → ∀ v r', x r = .done v r' → Grows r E → Grows r' E →
      Settles r₀ E r r') :
    (onward void r₀ E).Tracks (onward void r₀ E).atRegistry r s x x := by
  have hgrows := hx r
  have hstage := hstage r
  unfold Tracks
  dsimp only
  cases hrun : x r with
  | exhausted => exact .exhausted
  | failed e r' =>
    rw [hrun] at hgrows hstage hcloses
    refine .unmade trivial (hgrows r' rfl) (fun hlive ↦ ?_) fun hstrict ↦ hstrict.elim
    have hr : Grows r E := IsTrans.trans _ _ _ (hgrows r' rfl) hlive
    exact ⟨hstage r' rfl (h hr).2.stage, (hcloses (h hr).2 hr).2⟩
  | done v r' =>
    rw [hrun] at hgrows hstage hcloses
    have hr : Grows r' E → Grows r E := IsTrans.trans _ _ _ (hgrows r' rfl)
    have hext : (onward void r₀ E).Extends r r' r' := by
      refine ⟨hgrows r' rfl, fun hlive ↦ ⟨rfl, ?_⟩⟩
      have honward := (h (hr hlive)).2
      exact ⟨hstage r' rfl honward.stage, (hcloses honward (hr hlive)).1.2,
        honward.settles.trans (hsettles honward v r' hrun (hr hlive) hlive) (hgrows r' rfl)⟩
    refine .done hext (fun hlive ↦ ?_) fun hlive t ht ↦ ht ▸ (hcloses (h (hr hlive)).2 (hr hlive)).2
    rw [(h (hr hlive)).1, hrun]

theorem valid_onward (hE : ∀ t, void t → E.contains t = false) (m : Nat) :
    (onward void r₀ E).Valid m m where
  le := le_rfl
  agrees := by
    rintro r s - ⟨rfl, h⟩
    exact ⟨fun _ _ ↦ rfl, rfl, h.closed⟩
  substitute := by
    intro r s map t h hmap ht
    have hcovers : Grows r E → Covers void r map := fun hr u b hb ↦ hmap hr b ⟨u, hb⟩
    refine tracks_onward (grows_substitute _ _ _)
      ((along_instantiate (inductive_stage r₀).changes m).1 map t) h (fun honward hr ↦ ?_) ?_
    · exact (run_closes void m).1 map t r honward.closed (hcovers hr) (ht hr t rfl)
    · intro honward v r' hrun hr hr'
      exact honward.settles_substitute hE hr' (hcovers hr) (ht hr t rfl) hrun
  staticWrapper := by
    intro r s t h ht
    refine tracks_onward (grows_staticWrapper t) (along_staticWrapper (inductive_stage r₀).changes t) h
      (fun honward hr ↦ closes_staticWrapper honward.closed (ht hr t rfl)) ?_
    intro _ v r' hrun _ hr'
    exact settles_staticWrapper hrun hr'.leads

/-- Two runs of which nothing is said but that their registries grow. -/
def idle : Tandem where
  void _ := False
  live _ := False
  holds _ _ := False
  strict := False
  left _ := True
  live_of_grows _ h := h

theorem valid_idle (m : Nat) : idle.Valid m m where
  le := le_rfl
  agrees hlive := hlive.elim
  substitute _ _ _ := .of_not_live (grows_substitute _ _ _) id
  staticWrapper _ _ := .of_not_live (grows_staticWrapper _) id

end CallResolution.Registry
