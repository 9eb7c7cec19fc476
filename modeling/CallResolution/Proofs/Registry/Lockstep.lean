import CallResolution.Proofs.Overload.Stages
import CallResolution.Proofs.Registry.Closure
import CallResolution.Proofs.Registry.Confluence
import CallResolution.Proofs.Tandem

namespace CallResolution.Registry

open Attempt

variable {r r' s D : Registry} {m n : Nat} {map : Substitution} {t template : TypeId}
  {args pending ts : List TypeId} {d e e' : TypeDecl}

theorem Grows.insertBeside (h : Grows D s) (hu : D.contains e.id = false) : Grows D (s.insertInstance e) := by
  refine ⟨h.types, h.names, h.extensions, fun t d hd ↦ ?_⟩
  have hne : t ≠ e.id := by
    intro ht
    rw [ht, find?_instances_eq_none hu] at hd
    cases hd
  exact (Dictionary.find?_insert_of_ne _ _ hne).trans (h.instances t d hd)

theorem contains_insertInstance_cases (h : (r.insertInstance e).contains t = true) :
    t = e.id ∨ r.contains t = true := by
  obtain ⟨d, hd⟩ := exists_find?_of_contains h
  rcases find?_insertInstance_cases hd with ⟨ht, -⟩ | hd
  · exact .inl ht
  · exact .inr (contains_of_find? hd)

/-- A registry before and after it has been put to use: all that was made is settled, and no void handle
has become known. -/
structure Aging where
  void : TypeId → Prop
  young : Registry
  old : Registry
  /-- Whether it is of interest which types cannot be made. -/
  strict : Prop
  grows : Grows young old
  closed : Closed void old
  settles : Settles young old young old
  barren : ∀ t, void t → old.contains t = false
  fit : strict → young.InstancesFit
  views : strict → ∀ t, void t → Foreseen young old (.ofStatic t)

namespace Aging

/-- No handle of `r` stands for something else in the old registry, and no void handle is known. -/
structure Clear (A : Aging) (r : Registry) : Prop where
  noClash : NoClash r A.old
  barren : ∀ t, A.void t → r.contains t = false

/-- `r` has come from the young registry. -/
structure Descends (A : Aging) (r : Registry) : Prop where
  stage : Stage A.young r
  closed : Closed A.void r

/-- `r` has come from the young registry and `s` from the old one by making the same, except for what
the old one had already. The `pending` instances have been entered in `r`, but may not be complete. -/
structure Lockstep (A : Aging) (pending : List TypeId) (r s : Registry) : Prop extends Descends A r where
  leads : r.Leads s
  same : ∀ t d, t ∉ pending → r.find? t = some d → s.find? t = some d
  grows : Grows A.old s
  covered : ∀ t, s.contains t = true → r.contains t = true ∨ A.old.contains t = true

variable {A : Aging}

namespace Descends

theorem view {name : String} (h : A.Descends r) (hnew : r.contains (.ofStatic t) = false)
    (hn : r.name? t = some name) (ht : Accounted A.void r t) :
    A.Descends (r.insertInstance (wrapperDecl name t)) where
  stage := (inductive_stage A.young).wrapper r t name h.stage hnew hn
  closed := closed_staticWrapper h.closed ht (staticWrapper_of_new hnew hn)

theorem header (h : A.Descends r) (hnew : NewInstance r template d args)
    (hargs : ∀ a ∈ args, Accounted A.void r a) :
    A.Descends (r.insertInstance (r.instanceHeader d template args)) where
  stage := h.stage.enter hnew
  closed := h.closed.header hnew hargs

theorem complete (h : A.Descends r) (hnew : NewInstance r template d args)
    (hargs : ∀ a ∈ args, Accounted A.void r a)
    (hwalk : mentionedAt m d args (r.insertInstance (r.instanceHeader d template args)) = .done ts r')
    (h' : A.Descends r') (hts : ∀ t ∈ ts, Accounted A.void r' t) :
    A.Descends (r'.insertInstance (filled (r.instanceHeader d template args) d ts)) := by
  have hrun := instanceDecl_of_mentionedAt (r.instanceHeader d template args) hwalk
  exact ⟨(inductive_stage A.young).complete r template d args m _ r' h.stage hnew h'.stage hrun,
    h.closed.complete hnew hargs hwalk h'.closed hts⟩

end Descends

theorem Clear.of_leads (h : A.Clear r') (hleads : r.Leads r') : A.Clear r := by
  constructor
  · intro t d e hd he
    obtain ⟨d', hd', hshape⟩ := hleads t d hd
    obtain ⟨h₁, h₂, h₃⟩ := h.noClash t d' e hd' he
    exact ⟨hshape.template.trans h₁, hshape.typeArgs.trans h₂, hshape.staticTarget.trans h₃⟩
  · intro t ht
    cases hr : r.contains t with
    | false => rfl
    | true =>
      rw [← h.barren t ht, hleads.contains hr]

namespace Lockstep

theorem types_eq (h : A.Lockstep pending r s) : s.types = r.types := by
  rw [h.grows.types, A.grows.types, h.stage.grows.types]

theorem extensions_eq (h : A.Lockstep pending r s) : s.extensions = r.extensions := by
  rw [h.grows.extensions, A.grows.extensions, h.stage.grows.extensions]

theorem old_contains (h : A.Lockstep pending r s) (hr : r.contains t = false) (hs : s.contains t = true) :
    A.old.contains t = true := by
  rcases h.covered t hs with ht | ht
  · rw [hr] at ht
    cases ht
  · exact ht

theorem old_unknown (h : A.Lockstep pending r s) (hs : s.contains t = false) :
    A.old.contains t = false := by
  cases ht : A.old.contains t with
  | false => rfl
  | true => rw [← hs, h.grows.contains ht]

theorem young_unknown (h : A.Lockstep pending r s) (hr : r.contains t = false) :
    A.young.contains t = false := by
  cases ht : A.young.contains t with
  | false => rfl
  | true => rw [← hr, h.stage.grows.contains ht]

theorem barren (h : A.Lockstep pending r s) (hr : A.Clear r) (ht : A.void t) : s.contains t = false := by
  cases hs : s.contains t with
  | false => rfl
  | true => rw [← A.barren t ht, h.old_contains (hr.barren t ht) hs]

theorem foreseen (h : A.Lockstep pending r s) (hr : A.Clear r) (ht : Accounted A.void r t) :
    Foreseen r s t := ht.imp_right (h.barren hr)

theorem looksAlike (h : A.Lockstep pending r s) (hr : A.Clear r) (ht : Accounted A.void r t) :
    s.name? t = r.name? t ∧ s.staticTarget? t = r.staticTarget? t ∧ s.template? t = r.template? t ∧
      s.typeArgs t = r.typeArgs t := by
  unfold name? staticTarget? template? typeArgs
  rcases ht with ht | ht
  · obtain ⟨d, hd⟩ := exists_find?_of_contains ht
    obtain ⟨e, he, hshape⟩ := h.leads t d hd
    rw [hd, he]
    simp [hshape.name, hshape.staticTarget, hshape.template, hshape.typeArgs]
  · rw [find?_eq_none_of_contains (hr.barren t ht), find?_eq_none_of_contains (h.barren hr ht)]
    exact ⟨rfl, rfl, rfl, rfl⟩

theorem agrees (h : A.Lockstep [] r s) (hr : A.Clear r) : Agrees A.void r s := by
  refine ⟨fun t ht ↦ ?_, h.extensions_eq, h.closed⟩
  rcases ht with ht | ht
  · obtain ⟨d, hd⟩ := exists_find?_of_contains ht
    rw [hd, h.same t d List.not_mem_nil hd]
  · rw [find?_eq_none_of_contains (hr.barren t ht), find?_eq_none_of_contains (h.barren hr ht)]

/-- What the old registry does not have is made in both. -/
theorem insertBoth (h : A.Lockstep pending r s) (hid : r.types.find? e.id = none)
    (hold : A.old.contains e.id = false) (hnext : A.Descends (r.insertInstance e)) :
    A.Lockstep pending (r.insertInstance e) (s.insertInstance e) := by
  have hids : s.types.find? e.id = none := by rw [h.types_eq, hid]
  refine ⟨hnext, fun t d hd ↦ ?_, fun t d ht hd ↦ ?_, h.grows.insertBeside hold, fun t ht ↦ ?_⟩
  · rw [find?_insertInstance hid] at hd
    rw [find?_insertInstance hids]
    split at hd
    · cases hd
      exact ⟨e, if_pos ‹_›, .refl e⟩
    · rw [if_neg ‹_›]
      exact h.leads t d hd
  · rw [find?_insertInstance hid] at hd
    rw [find?_insertInstance hids]
    split at hd
    · rw [if_pos ‹_›, hd]
    · rw [if_neg ‹_›]
      exact h.same t d ht hd
  · rcases contains_insertInstance_cases ht with rfl | ht
    · refine .inl (contains_of_find? (d := e) ?_)
      rw [find?_insertInstance hid, if_pos rfl]
    · exact (h.covered t ht).imp_left (contains_insertInstance hid)

/-- What `s` has already is made in `r` only. -/
theorem insertLeft {pending' : List TypeId} (h : A.Lockstep pending r s) (hid : r.types.find? e.id = none)
    (hfound : s.find? e.id = some e') (hshape : SameShape e e') (hsame : e.id ∉ pending' → e' = e)
    (hpending : ∀ t, t ∉ pending' → t ≠ e.id → t ∉ pending) (hnext : A.Descends (r.insertInstance e)) :
    A.Lockstep pending' (r.insertInstance e) s := by
  refine ⟨hnext, fun t d hd ↦ ?_, fun t d ht hd ↦ ?_, h.grows, fun t ht ↦ ?_⟩
  · rw [find?_insertInstance hid] at hd
    split at hd
    · rename_i hte
      cases hd
      exact ⟨e', hte ▸ hfound, hshape⟩
    · exact h.leads t d hd
  · rw [find?_insertInstance hid] at hd
    split at hd
    · rename_i hte
      cases hd
      rw [hte, hfound, hsame (hte ▸ ht)]
    · exact h.same t d (hpending t ht ‹_›) hd
  · exact (h.covered t ht).imp_left (contains_insertInstance hid)

/-- A static view that is new in `r` but known in `s` is the one that would be made. -/
theorem find?_view {name : String} (h : A.Lockstep pending r s) (hnew : r.contains (.ofStatic t) = false)
    (hn : r.name? t = some name) (hs : s.contains (.ofStatic t) = true)
    (hclear : A.Clear (r.insertInstance (wrapperDecl name t))) :
    s.find? (.ofStatic t) = some (wrapperDecl name t) := by
  obtain ⟨e, he⟩ := exists_find?_of_contains (h.old_contains hnew hs)
  have hsettled := A.settles _ e (h.young_unknown hnew) he
  have hfound : (r.insertInstance (wrapperDecl name t)).find? (.ofStatic t) = some (wrapperDecl name t) :=
    find?_insertInstance_self (d := wrapperDecl name t) hnew
  obtain ⟨htemplate, -, hstatic⟩ := hclear.noClash _ _ _ hfound he
  rw [h.grows.find? he]
  generalize TypeId.ofStatic t = u at hsettled
  cases hsettled with
  | wrapper hname =>
    cases hstatic
    obtain ⟨d, hd, rfl⟩ := Option.map_eq_some_iff.1 hn
    obtain ⟨e₁, he₁, hshape⟩ := h.leads t d hd
    obtain ⟨e₂, he₂, rfl⟩ := Option.map_eq_some_iff.1 hname
    rw [h.grows.find? he₂] at he₁
    cases he₁
    rw [hshape.name]
  | made hd ht hrun =>
    rw [(completes_filled _ hrun).template] at htemplate
    cases htemplate

/-- A static view that cannot be made in `r` cannot be made in `s`. -/
theorem view_unknown (h : A.Lockstep pending r s) (hr : A.Clear r) (hstrict : A.strict)
    (ht : Accounted A.void r t) (hnew : r.contains (.ofStatic t) = false) (hn : r.name? t = none) :
    s.contains (.ofStatic t) = false ∧ s.name? t = none := by
  refine ⟨?_, (h.looksAlike hr ht).1.trans hn⟩
  have hvoid : A.void t := by
    rcases ht with ht | ht
    · obtain ⟨d, hd⟩ := exists_find?_of_contains ht
      simp [name?, hd] at hn
    · exact ht
  cases hs : s.contains (.ofStatic t) with
  | false => rfl
  | true =>
    rcases A.views hstrict t hvoid with hv | hv
    · rw [← hv, h.young_unknown hnew]
    · rw [← hv, h.old_contains hnew hs]

/-- An instance that is new in `r` but known in `s` has been made from the same header, and nothing would
have to be made for it now. -/
theorem exists_mentionedAt (h : A.Lockstep pending r s) (hr : A.Clear r)
    (hargs : ∀ a ∈ args, Accounted A.void r a) (hnew : NewInstance r template d args)
    (hs : s.contains (.ofInstance template args) = true)
    (hclear : A.Clear (r.insertInstance (r.instanceHeader d template args))) :
    ∃ n ts, mentionedAt n d args s = .done ts s ∧
      s.find? (.ofInstance template args) = some (filled (r.instanceHeader d template args) d ts) := by
  have hbarren : ∀ t, A.void t → s.contains t = false := fun t ↦ h.barren hr
  obtain ⟨e, he⟩ := exists_find?_of_contains (h.old_contains hnew.unknown hs)
  have hsettled := A.settles _ e (h.young_unknown hnew.unknown) he
  obtain ⟨htemplate, htypeArgs, -⟩ :=
    hclear.noClash _ _ _ (find?_insertInstance_self (d := r.instanceHeader d template args) hnew.unknown) he
  rw [h.grows.find? he]
  generalize TypeId.ofInstance template args = u at hsettled he
  cases hsettled with
  | wrapper hname => cases htemplate
  | made hd ht hrun =>
    rename_i template' d' args' ts n
    have hc := completes_filled (A.old.instanceHeader d' template' args') hrun
    rw [hc.template] at htemplate
    rw [hc.typeArgs] at htypeArgs
    cases htemplate
    obtain rfl : args = args' := htypeArgs
    rw [h.stage.templates template d hnew.found hnew.isTemplate] at hd
    cases hd
    have hfoundOld : A.old.find? template = some d :=
      A.grows.find? (h.stage.templates template d hnew.found hnew.isTemplate)
    have hforeseen : ∀ {t}, Accounted A.void A.old t → Foreseen A.old s t := fun ht ↦ ht.imp_right (hbarren _)
    have hmentioned : ∀ t ∈ d.mentioned, Foreseen A.old s t := fun t ht ↦
      hforeseen (A.closed.decl template d hfoundOld t (TypeDecl.mem_handles_of_mem_mentioned ht))
    have hargsOld : ∀ a ∈ args, Foreseen A.old s a := by
      intro a ha
      refine hforeseen (A.closed.decl _ _ he a (TypeDecl.mem_handles_iff.2 (.typeArg ?_)))
      rw [hc.typeArgs]
      exact ha
    have hwalk := mentionedAt_again h.grows (A.closed.foresees hbarren) (refl A.old) hmentioned hrun
      h.grows.leads
    refine ⟨n, ts, hwalk, ?_⟩
    rw [instanceHeader_eq hargsOld h.grows.leads,
      instanceHeader_eq (fun a ha ↦ h.foreseen hr (hargs a ha)) h.leads]

end Lockstep

/-- Two runs from registries in lockstep. -/
def tandem (A : Aging) (pending : List TypeId) : Tandem where
  void := A.void
  live := A.Clear
  holds := A.Lockstep pending
  strict := A.strict
  left _ := True
  live_of_grows hgrows h := h.of_leads hgrows.leads

open Tandem

theorem tracks_view_of_new {name : String} (h : (A.tandem pending).Runs r s)
    (ht : (A.tandem pending).Knows r t) (hc : r.contains (.ofStatic t) = false)
    (hn : r.name? t = some name) :
    (A.tandem pending).Tracks (A.tandem pending).atRegistry r s (staticWrapper t) (staticWrapper t) := by
  have hgrows : Grows r (r.insertInstance (wrapperDecl name t)) := .insertInstance hc
  have hback : A.Clear (r.insertInstance (wrapperDecl name t)) → A.Clear r :=
    fun hlive ↦ hlive.of_leads hgrows.leads
  have hknown : (r.insertInstance (wrapperDecl name t)).contains (.ofStatic t) = true :=
    contains_of_find? (find?_insertInstance_self (d := wrapperDecl name t) hc)
  have hid := find?_types_eq_none hc
  unfold Tracks
  dsimp only
  rw [staticWrapper_of_new hc hn]
  cases hs : s.contains (.ofStatic t) with
  | true =>
    have hext : (A.tandem pending).Extends r (r.insertInstance (wrapperDecl name t)) s := by
      refine ⟨hgrows, fun hlive ↦ ?_⟩
      have hlock := h (hback hlive)
      exact hlock.insertLeft hid (hlock.find?_view hc hn hs hlive) (.refl _) (fun _ ↦ rfl)
        (fun _ ht _ ↦ ht) (hlock.view hc hn (ht (hback hlive) t rfl))
    exact .done hext (fun _ ↦ staticWrapper_of_known hs) fun _ u hu ↦ .inl (hu ▸ hknown)
  | false =>
    have hext : (A.tandem pending).Extends r (r.insertInstance (wrapperDecl name t))
        (s.insertInstance (wrapperDecl name t)) := by
      refine ⟨hgrows, fun hlive ↦ ?_⟩
      have hlock := h (hback hlive)
      exact hlock.insertBoth hid (hlock.old_unknown hs) (hlock.view hc hn (ht (hback hlive) t rfl))
    refine .done hext (fun hlive ↦ ?_) fun _ u hu ↦ .inl (hu ▸ hknown)
    have hsame := (h (hback hlive)).looksAlike (hback hlive) (ht (hback hlive) t rfl)
    exact staticWrapper_of_new hs (hsame.1.trans hn)

theorem tracks_staticWrapper (h : (A.tandem pending).Runs r s) (ht : (A.tandem pending).Knows r t) :
    (A.tandem pending).Tracks (A.tandem pending).atRegistry r s (staticWrapper t) (staticWrapper t) := by
  cases hc : r.contains (.ofStatic t) with
  | true =>
    unfold Tracks
    dsimp only
    rw [staticWrapper_of_known hc]
    refine .done h.extends (fun hlive ↦ ?_) fun _ u hu ↦ .inl (hu ▸ hc)
    exact staticWrapper_of_known ((h hlive).leads.contains hc)
  | false =>
    cases hn : r.name? t with
    | some name => exact tracks_view_of_new h ht hc hn
    | none =>
      unfold Tracks
      dsimp only
      rw [staticWrapper_of_unknown hc hn]
      refine .unmade trivial (refl r) (fun _ ↦ trivial) fun hstrict hlive ↦ ⟨s, ?_⟩
      obtain ⟨hs, hns⟩ := (h hlive).view_unknown hlive hstrict (ht hlive t rfl) hc hn
      exact staticWrapper_of_unknown hs hns

/-- The two runs of a substitution, to the depths `m` and `n`, do the same. -/
def SubstituteTracks (A : Aging) (m n : Nat) (pending : List TypeId) : Prop :=
  ∀ map t r s, (A.tandem pending).Runs r s → (A.tandem pending).Knows r map →
    (A.tandem pending).Knows r t →
    (A.tandem pending).Tracks (A.tandem pending).atRegistry r s (substitute m map t) (substitute n map t)

def InstantiateTracks (A : Aging) (m n : Nat) (pending : List TypeId) : Prop :=
  ∀ template args r s, (A.tandem pending).Runs r s → (A.tandem pending).Knows r args →
    (A.strict → A.Clear r → ∀ e, ¬Refused r template args e) →
    (A.tandem pending).Tracks (A.tandem pending).atRegistry r s (instantiate m template args)
      (instantiate n template args)

theorem not_refused_of_fit {vs : List TypeId} (h : r.InstancesFit) (ht : r.template? t = some template)
    (hlength : vs.length = (r.typeArgs t).length) (hgrows : Grows r r') (e : RegistrationError) :
    ¬Refused r' template vs e := by
  obtain ⟨d, hd, hdt⟩ := Option.bind_eq_some_iff.1 ht
  obtain ⟨d', hd', ht', harity⟩ := h t d template hd hdt
  have hfound := hgrows.find? hd'
  intro hrefused
  cases hrefused with
  | unknown _ hu =>
    rw [hfound] at hu
    cases hu
  | notATemplate _ hf hn =>
    rw [hfound] at hf
    cases hf
    rw [ht'] at hn
    cases hn
  | arity _ hf _ hne =>
    rw [hfound] at hf
    cases hf
    apply hne
    rw [hlength, harity, typeArgs, hd]
    rfl

theorem substituteTracks_succ (hs : A.SubstituteTracks m n pending)
    (hi : A.InstantiateTracks m n pending) : A.SubstituteTracks (m + 1) (n + 1) pending := by
  intro map t r s h hmap ht
  by_cases hlive : A.Clear r
  case neg => exact .of_not_live (grows_substitute _ _ _) hlive
  have hlock := h hlive
  obtain ⟨-, hstatic, htemplate, hargs⟩ := hlock.looksAlike hlive (ht hlive t rfl)
  unfold Tracks
  dsimp only
  cases hb : map.find? t with
  | some b =>
    rw [substitute_of_bound hb, substitute_of_bound hb]
    exact .done h.extends (fun _ ↦ rfl) (hmap.of_subset fun u hu ↦ ⟨t, hu ▸ hb⟩)
  | none =>
    cases hst : r.staticTarget? t with
    | some target =>
      have htarget : (A.tandem pending).Knows r target := fun _ u hu ↦ hu ▸ hlock.closed.staticTarget? hst
      rw [substitute_of_static hb hst, substitute_of_static hb (hstatic.trans hst)]
      refine (hs map target r s h hmap htarget).bind fun w r' s' h' hw ↦ ?_
      split
      · exact .pure h'.runs (ht.grows h'.grows)
      · exact tracks_staticWrapper h'.runs hw
    | none =>
      cases htm : r.template? t with
      | none =>
        rw [substitute_of_plain hb hst htm, substitute_of_plain hb (hstatic.trans hst) (htemplate.trans htm)]
        exact .done h.extends (fun _ ↦ rfl) ht
      | some template =>
        rw [substitute_of_instance hb hst htm,
          substitute_of_instance hb (hstatic.trans hst) (htemplate.trans htm), hargs]
        have hmapM : (A.tandem pending).Tracks (A.tandem pending).atRegistry r s
            ((r.typeArgs t).mapM (substitute m map)) ((r.typeArgs t).mapM (substitute n map)) := by
          refine .mapM h fun a ha r' s' h' ↦ ?_
          have hknows : (A.tandem pending).Knows r a := fun _ u hu ↦ hu ▸ hlock.closed.typeArgs ha
          exact hs map a r' s' h'.runs (hmap.grows h'.grows) (hknows.grows h'.grows)
        refine hmapM.bind_of_done fun vs r' s' hvs h' hknows ↦ ?_
        split
        · exact .pure h'.runs (ht.grows h'.grows)
        · refine hi template vs r' s' h'.runs hknows fun hstrict _ ↦ ?_
          have hfit := (A.fit hstrict).stage hlock.stage
          exact not_refused_of_fit hfit htm (Method.length_eq_of_mapM hvs) h'.grows

theorem leads_of_instantiate (hnew : NewInstance r template d args)
    (h : (instantiate (m + 1) template args r).state? = some r') :
    (r.insertInstance (r.instanceHeader d template args)).Leads r' := by
  rw [instantiate_of_new hnew] at h
  have hwalk : Along Grows (mentionedAt m d args) := Along.mapM _ (grows_substitute m _)
  have hwalk := hwalk (r.insertInstance (r.instanceHeader d template args))
  cases hrun : mentionedAt m d args (r.insertInstance (r.instanceHeader d template args)) with
  | done ts r₁ =>
    rw [hrun] at h hwalk
    cases h
    have hgrows := hwalk r₁ rfl
    have hid := (completes_filled (r.instanceHeader d template args) hrun).id
    exact hgrows.leads.trans (leads_complete hnew.unknown hgrows hid (sameShape_filled rfl hrun))
  | failed e r₁ =>
    rw [hrun] at h hwalk
    cases h
    exact (hwalk r' rfl).leads
  | exhausted =>
    rw [hrun] at h
    cases h

section Walk

variable (hnew : NewInstance r template d args)
  (hwalk : mentionedAt m d args (r.insertInstance (r.instanceHeader d template args)) = .done ts r')

include hnew hwalk

theorem types_of_walk : r'.types.find? (filled (r.instanceHeader d template args) d ts).id = none := by
  have hgrows : Grows (r.insertInstance (r.instanceHeader d template args)) r' :=
    (Along.mapM _ (grows_substitute m _)).of_done hwalk
  rw [(completes_filled _ hwalk).id]
  exact (find?_header hnew.unknown hgrows).2

theorem Clear.of_complete
    (h : A.Clear (r'.insertInstance (filled (r.instanceHeader d template args) d ts))) : A.Clear r' := by
  have hgrows : Grows (r.insertInstance (r.instanceHeader d template args)) r' :=
    (Along.mapM _ (grows_substitute m _)).of_done hwalk
  refine h.of_leads (leads_complete hnew.unknown hgrows ?_ (sameShape_filled rfl hwalk))
  exact (completes_filled (r.instanceHeader d template args) hwalk).id

end Walk

theorem tracks_mentionedAt (hs : A.SubstituteTracks m n pending) (h : (A.tandem pending).Runs r s)
    (hargs : ∀ a ∈ args, Accounted A.void r a) (hd : ∀ u ∈ d.mentioned, Accounted A.void r u) :
    (A.tandem pending).Tracks (A.tandem pending).atRegistry r s (mentionedAt m d args)
      (mentionedAt n d args) := by
  have hmap : (A.tandem pending).Knows r (Dictionary.ofList (d.typeParams.zip args) : Substitution) :=
    fun _ u ⟨t, hu⟩ ↦ covers_zip hargs t u hu
  refine .mapM h fun t ht r' s' h' ↦ ?_
  have hknows : (A.tandem pending).Knows r t := fun _ u hu ↦ hu ▸ hd t ht
  exact hs _ t r' s' h'.runs (hmap.grows h'.grows) (hknows.grows h'.grows)

/-- The walk over the template of a new instance, once its header has been entered. -/
theorem tracks_walk {pending' : List TypeId} (hs : A.SubstituteTracks m n pending')
    (h : A.Lockstep pending r s) (hargs : ∀ a ∈ args, Accounted A.void r a)
    (hnew : NewInstance r template d args) (hentered : (A.tandem pending').Runs
      (r.insertInstance (r.instanceHeader d template args)) s') :
    (A.tandem pending').Tracks (A.tandem pending').atRegistry
      (r.insertInstance (r.instanceHeader d template args)) s' (mentionedAt m d args)
      (mentionedAt n d args) := by
  have hgrows : Grows r (r.insertInstance (r.instanceHeader d template args)) :=
    .insertInstance hnew.unknown
  refine tracks_mentionedAt hs hentered (fun a ha ↦ (hargs a ha).grows hgrows) fun u hu ↦ ?_
  have hmem := TypeDecl.mem_handles_of_mem_mentioned hu
  exact (h.closed.decl template d hnew.found u hmem).grows hgrows

/-- An instance that is new in `r` is made there as it was made for `s`. -/
theorem tracks_instantiate_of_known (hs : ∀ n pending, m ≤ n → A.SubstituteTracks m n pending)
    (h : A.Lockstep pending r s) (hlive : A.Clear r) (hargs : ∀ a ∈ args, Accounted A.void r a)
    (hnew : NewInstance r template d args) (hc : s.contains (.ofInstance template args) = true) :
    (A.tandem pending).Tracks (A.tandem pending).atRegistry r s (instantiate (m + 1) template args)
      (instantiate (n + 1) template args) := by
  by_cases hclear : A.Clear (r.insertInstance (r.instanceHeader d template args))
  case neg =>
    refine Follows.vacuous (grows_instantiate _ _ _) fun r' hr' hlive' ↦ ?_
    exact hclear (hlive'.of_leads (leads_of_instantiate hnew hr'))
  obtain ⟨k, ts, hwalk, hfind⟩ := h.exists_mentionedAt hlive hargs hnew hc hclear
  -- `s` is asked for the same as `r`, to a depth that is enough for both, though it has the instance
  have hdeep : mentionedAt (max m k) d args s = .done ts s :=
    (Deepens.mapM (deepens_substitute _ k (max m k) (Nat.le_max_right m k)) _).done hwalk
  have hentered : (A.tandem (.ofInstance template args :: pending)).Runs
      (r.insertInstance (r.instanceHeader d template args)) s := by
    intro _
    exact h.insertLeft (find?_types_eq_none hnew.unknown) hfind (sameShape_filled rfl hwalk)
      (fun hnot ↦ absurd List.mem_cons_self hnot) (fun _ ht _ ↦ List.not_mem_of_not_mem_cons ht)
      (h.header hnew hargs)
  have htracks := tracks_walk (hs (max m k) _ (Nat.le_max_left m k)) h hargs hnew hentered
  unfold Tracks at htracks ⊢
  dsimp only at htracks ⊢
  rw [hdeep] at htracks
  rw [instantiate_of_new hnew, instantiate_of_known hc]
  cases hrun : mentionedAt m d args (r.insertInstance (r.instanceHeader d template args)) with
  | exhausted => exact .exhausted
  | failed e r' =>
    rw [hrun] at htracks
    obtain ⟨hgrows, hfailed⟩ := htracks.of_failed
    refine .unmade trivial (IsTrans.trans _ _ _ (.insertInstance hnew.unknown) hgrows) (fun _ ↦ trivial)
      fun hstrict hlive' ↦ ?_
    obtain ⟨s', hs'⟩ := hfailed hstrict hlive'
    cases hs'
  | done ts' r' =>
    rw [hrun] at htracks
    obtain ⟨s', hext, hdone, hts⟩ := htracks.of_done
    have hid := (completes_filled (r.instanceHeader d template args) hrun).id
    refine .done (Extends.mk (.complete hnew.unknown hext.grows hid) fun hlive' ↦ ?_) (fun _ ↦ rfl)
      fun _ u hu ↦ .inl (hu ▸ contains_complete hnew.unknown hext.grows hid)
    have hwalked := Clear.of_complete hnew hrun hlive'
    have hlock := hext.runs hwalked
    -- the walk has come out with what `s` has, so the instance that is completed is the one there
    cases hdone hwalked
    refine hlock.insertLeft (types_of_walk hnew hrun) ?_ (.refl _) (fun _ ↦ rfl) ?_ ?_
    · rw [hid]
      exact hfind
    · intro t ht hne
      rw [hid] at hne
      exact List.not_mem_cons_of_ne_of_not_mem hne ht
    · exact h.complete hnew hargs hrun hlock.toDescends fun t ht ↦ hts hwalked t ⟨t, ht, rfl⟩

/-- An instance that is new in both is made in both. -/
theorem tracks_instantiate_of_new (hs : A.SubstituteTracks m n pending) (h : A.Lockstep pending r s)
    (hlive : A.Clear r) (hargs : ∀ a ∈ args, Accounted A.void r a) (hnew : NewInstance r template d args)
    (hc : s.contains (.ofInstance template args) = false) :
    (A.tandem pending).Tracks (A.tandem pending).atRegistry r s (instantiate (m + 1) template args)
      (instantiate (n + 1) template args) := by
  have hfound : s.find? template = some d :=
    h.grows.find? (A.grows.find? (h.stage.templates template d hnew.found hnew.isTemplate))
  have hnew' : NewInstance s template d args := ⟨hc, hfound, hnew.isTemplate, hnew.arity⟩
  have hheader : s.instanceHeader d template args = r.instanceHeader d template args :=
    (instanceHeader_eq (fun a ha ↦ h.foreseen hlive (hargs a ha)) h.leads).symm
  have hentered : (A.tandem pending).Runs (r.insertInstance (r.instanceHeader d template args))
      (s.insertInstance (r.instanceHeader d template args)) := by
    intro _
    exact h.insertBoth (find?_types_eq_none hnew.unknown) (h.old_unknown hc) (h.header hnew hargs)
  have htracks := tracks_walk hs h hargs hnew hentered
  unfold Tracks at htracks ⊢
  dsimp only at htracks ⊢
  rw [instantiate_of_new hnew, instantiate_of_new hnew', hheader]
  cases hrun : mentionedAt m d args (r.insertInstance (r.instanceHeader d template args)) with
  | exhausted => exact .exhausted
  | failed e r' =>
    rw [hrun] at htracks
    obtain ⟨hgrows, hfailed⟩ := htracks.of_failed
    refine .unmade trivial (IsTrans.trans _ _ _ (.insertInstance hnew.unknown) hgrows) (fun _ ↦ trivial)
      fun hstrict hlive' ↦ ?_
    obtain ⟨s', hs'⟩ := hfailed hstrict hlive'
    exact ⟨s', by rw [hs']⟩
  | done ts r' =>
    rw [hrun] at htracks
    obtain ⟨s', hext, hdone, hts⟩ := htracks.of_done
    have hid := (completes_filled (r.instanceHeader d template args) hrun).id
    have hend : (A.tandem pending).Extends r
        (r'.insertInstance (filled (r.instanceHeader d template args) d ts))
        (s'.insertInstance (filled (r.instanceHeader d template args) d ts)) := by
      refine ⟨.complete hnew.unknown hext.grows hid, fun hlive' ↦ ?_⟩
      have hwalked := Clear.of_complete hnew hrun hlive'
      have hlock := hext.runs hwalked
      refine hlock.insertBoth (types_of_walk hnew hrun) ?_ ?_
      · rw [hid]
        exact h.old_unknown hc
      · exact h.complete hnew hargs hrun hlock.toDescends fun t ht ↦ hts hwalked t ⟨t, ht, rfl⟩
    refine .done hend (fun hlive' ↦ ?_) fun _ u hu ↦ .inl (hu ▸ contains_complete hnew.unknown hext.grows hid)
    rw [hdone (Clear.of_complete hnew hrun hlive')]

theorem instantiateTracks_succ (hmn : m ≤ n) (hs : ∀ n pending, m ≤ n → A.SubstituteTracks m n pending) :
    A.InstantiateTracks (m + 1) (n + 1) pending := by
  intro template args r s h hargs hfits
  by_cases hlive : A.Clear r
  case neg => exact .of_not_live (grows_instantiate _ _ _) hlive
  have hknown : ∀ a ∈ args, Accounted A.void r a := fun a ha ↦ hargs hlive a ⟨a, ha, rfl⟩
  rcases known_or_refused_or_new r template args with hc | ⟨e, hrefused⟩ | ⟨d, hnew⟩
  · unfold Tracks
    dsimp only
    rw [instantiate_of_known hc, instantiate_of_known ((h hlive).leads.contains hc)]
    exact .done h.extends (fun _ ↦ rfl) fun _ u hu ↦ .inl (hu ▸ hc)
  · unfold Tracks
    dsimp only
    rw [instantiate_of_refused hrefused]
    exact .unmade trivial (refl r) (fun _ ↦ trivial) fun hstrict hlive ↦
      absurd hrefused (hfits hstrict hlive e)
  · cases hc : s.contains (.ofInstance template args) with
    | true => exact tracks_instantiate_of_known hs (h hlive) hlive hknown hnew hc
    | false => exact tracks_instantiate_of_new (hs n pending hmn) (h hlive) hlive hknown hnew hc

theorem run_tracks (A : Aging) (m : Nat) : ∀ n pending, m ≤ n →
    A.SubstituteTracks m n pending ∧ A.InstantiateTracks m n pending := by
  induction m with
  | zero => exact fun _ _ _ ↦ ⟨fun _ _ _ _ _ _ _ ↦ .exhausted, fun _ _ _ _ _ _ _ ↦ .exhausted⟩
  | succ m ih =>
    intro n pending hmn
    cases n with
    | zero => cases hmn
    | succ n =>
      have hle : m ≤ n := Nat.le_of_succ_le_succ hmn
      obtain ⟨hs, hi⟩ := ih n pending hle
      exact ⟨substituteTracks_succ hs hi, instantiateTracks_succ hle fun n pending h ↦ (ih n pending h).1⟩

theorem valid_tandem (A : Aging) (hmn : m ≤ n) : (A.tandem []).Valid m n where
  le := hmn
  agrees hlive h := h.agrees hlive
  substitute h hmap ht := (run_tracks A m n [] hmn).1 _ _ _ _ h hmap ht
  staticWrapper h ht := tracks_staticWrapper h ht

end Aging

end CallResolution.Registry
