import CallResolution.Proofs.Registry.Instantiation
import CallResolution.Proofs.Registry.Reachable

namespace CallResolution.Registry

open Attempt

variable {r₀ r r₁ r' E : Registry} {fuel : Nat} {map : Substitution} {t u v template : TypeId}
  {ts vs args : List TypeId} {d e header entry : TypeDecl}

/-- The declarations look alike to substitution. -/
structure SameShape (d e : TypeDecl) : Prop where
  name : d.name = e.name
  template : d.template = e.template
  typeArgs : d.typeArgs = e.typeArgs
  staticTarget : d.staticTarget = e.staticTarget

theorem SameShape.refl (d : TypeDecl) : SameShape d d := ⟨rfl, rfl, rfl, rfl⟩

theorem SameShape.trans {f : TypeDecl} (h : SameShape d e) (h' : SameShape e f) : SameShape d f :=
  ⟨h.name.trans h'.name, h.template.trans h'.template, h.typeArgs.trans h'.typeArgs,
    h.staticTarget.trans h'.staticTarget⟩

theorem sameShape_filled (hkind : header.kind = d.kind) (h : mentionedAt fuel d args r = .done ts r') :
    SameShape header (filled header d ts) := by
  have hrun := instanceDecl_of_mentionedAt header h
  have hc := completes_of_instanceDecl hrun
  refine ⟨hc.name.symm, hc.template.symm, hc.typeArgs.symm, ?_⟩
  rw [staticTarget_of_instanceDecl hrun, TypeDecl.staticTarget, TypeDecl.staticTarget, hkind]

/-- What is known in `r` is known in `E`, and looks the same there. -/
def Leads (r E : Registry) : Prop :=
  ∀ t d, r.find? t = some d → ∃ e, E.find? t = some e ∧ SameShape d e

theorem Leads.refl (r : Registry) : r.Leads r := fun _ d hd ↦ ⟨d, hd, .refl d⟩

theorem Grows.leads (h : Grows r r') : r.Leads r' := fun _ d hd ↦ ⟨d, h.find? hd, .refl d⟩

theorem Leads.trans (h : r.Leads r') (h' : r'.Leads E) : r.Leads E := by
  intro t d hd
  obtain ⟨e, he, hde⟩ := h t d hd
  obtain ⟨f, hf, hef⟩ := h' t e he
  exact ⟨f, hf, hde.trans hef⟩

theorem Leads.contains (h : r.Leads E) (ht : r.contains t = true) : E.contains t = true := by
  obtain ⟨d, hd⟩ := exists_find?_of_contains ht
  obtain ⟨e, he, -⟩ := h t d hd
  exact contains_of_find? he

theorem Leads.insertInstance (h : r.Leads E) (hentry : ∃ e, E.find? entry.id = some e ∧ SameShape entry e) :
    (r.insertInstance entry).Leads E := by
  intro t d hd
  rcases find?_insertInstance_cases hd with ⟨rfl, rfl⟩ | hd
  · exact hentry
  · exact h t d hd

theorem leads_complete (hu : r.contains header.id = false) (h : Grows (r.insertInstance header) r')
    (hid : entry.id = header.id) (hshape : SameShape header entry) :
    r'.Leads (r'.insertInstance entry) := by
  intro t d hd
  rw [find?_complete hu h hid]
  by_cases ht : t = header.id
  · rw [ht, (find?_header hu h).1] at hd
    cases hd
    exact ⟨entry, if_pos ht, hshape⟩
  · exact ⟨d, by rw [if_neg ht, hd], .refl d⟩

/-- `r` has come from `r₀` by making instances and static views. None of those is a template, and each
instance is one of a template at as many arguments as that has parameters. -/
structure Stage (r₀ r : Registry) : Prop where
  grows : Grows r₀ r
  templates : ∀ t d, r.find? t = some d → d.isTemplate = true → r₀.find? t = some d
  fit : ∀ t d template, r.find? t = some d → d.template = some template → r₀.find? t = some d ∨
    ∃ d', r₀.find? template = some d' ∧ d'.isTemplate = true ∧ d'.typeParams.length = d.typeArgs.length

theorem Stage.refl (r : Registry) : Stage r r := ⟨Std.Refl.refl r, fun _ _ h _ ↦ h, fun _ _ _ h _ ↦ .inl h⟩

theorem Stage.insertInstance (h : Stage r₀ r) (hgrows : Grows r₀ (r.insertInstance entry))
    (hparams : entry.typeParams = []) (hfit : ∀ template, entry.template = some template →
      ∃ d', r₀.find? template = some d' ∧ d'.isTemplate = true ∧
        d'.typeParams.length = entry.typeArgs.length) : Stage r₀ (r.insertInstance entry) := by
  refine ⟨hgrows, fun t d hd ht ↦ ?_, fun t d template hd ht ↦ ?_⟩
  · rcases find?_insertInstance_cases hd with ⟨-, rfl⟩ | hd
    · simp [TypeDecl.isTemplate, hparams] at ht
    · exact h.templates t d hd ht
  · rcases find?_insertInstance_cases hd with ⟨-, rfl⟩ | hd
    · exact .inr (hfit template ht)
    · exact h.fit t d template hd ht

theorem inductive_stage (r₀ : Registry) : Inductive (Stage r₀) where
  wrapper r target name h hu _ :=
    h.insertInstance (IsTrans.trans _ _ _ h.grows (.insertInstance (d := wrapperDecl name target) hu)) rfl
      (by rintro _ ⟨⟩)
  header r template d args h hnew := by
    refine h.insertInstance (IsTrans.trans _ _ _ h.grows (.insertInstance hnew.unknown)) rfl ?_
    rintro _ ⟨⟩
    exact ⟨d, h.templates _ _ hnew.found hnew.isTemplate, hnew.isTemplate, hnew.arity⟩
  complete r template d args fuel entry r' h hnew h' hrun := by
    have hgrows := (along_instanceDecl (grows_substitute fuel _) _ _).of_done hrun
    have hc := completes_of_instanceDecl hrun
    refine h'.insertInstance (IsTrans.trans _ _ _ h.grows (.complete hnew.unknown hgrows hc.id))
      hc.typeParams ?_
    rw [hc.template, hc.typeArgs]
    rintro _ ⟨⟩
    exact ⟨d, h.templates _ _ hnew.found hnew.isTemplate, hnew.isTemplate, hnew.arity⟩

theorem Stage.substitute (h : Stage r₀ r) (hrun : substitute fuel map t r = .done v r') : Stage r₀ r' :=
  ((along_instantiate (inductive_stage r₀).changes fuel).1 map t).of_done hrun h

theorem Stage.mapM (h : Stage r₀ r) (hrun : ts.mapM (Registry.substitute fuel map) r = .done vs r') :
    Stage r₀ r' :=
  (Along.mapM ts ((along_instantiate (inductive_stage r₀).changes fuel).1 map)).of_done hrun h

theorem Stage.instantiate (h : Stage r₀ r) (hrun : instantiate fuel template args r = .done v r') :
    Stage r₀ r' :=
  ((along_instantiate (inductive_stage r₀).changes fuel).2 template args).of_done hrun h

theorem Stage.enter (h : Stage r₀ r) (hnew : NewInstance r template d args) :
    Stage r₀ (r.insertInstance (r.instanceHeader d template args)) :=
  (inductive_stage r₀).header r template d args h hnew

theorem inductive_of_stage {I : Registry → Prop} (h : ∀ r r', Stage r r' → I r → I r') : Inductive I where
  wrapper r target name hr hu hn := h r _ ((inductive_stage r).wrapper r target name (.refl r) hu hn) hr
  header r template d args hr hnew := h r _ ((Stage.refl r).enter hnew) hr
  complete r template d args fuel entry r' hr hnew _ hrun := by
    have hstage : Stage r r' :=
      (along_instanceDecl ((along_instantiate (inductive_stage r).changes fuel).1 _) _ d).of_done hrun
        ((Stage.refl r).enter hnew)
    exact h r _ ((inductive_stage r).complete r template d args fuel entry r' (.refl r) hnew hstage hrun) hr

/-- `t` is known in `r` or will not be known in `E` either. -/
def Foreseen (r E : Registry) (t : TypeId) : Prop := r.contains t = true ∨ E.contains t = false

/-- The templates of `r` mention, and its types consist of, no type that becomes known only later. -/
structure Foresees (r E : Registry) : Prop where
  mentioned : ∀ {template d}, r.find? template = some d → d.isTemplate = true →
    ∀ t ∈ d.mentioned, Foreseen r E t
  parts : ∀ {t u}, r.HasPart t u → Foreseen r E u

theorem Foreseen.grows (h : Foreseen r E t) (hgrows : Grows r r') : Foreseen r' E t :=
  h.imp_left hgrows.contains

theorem Leads.find?_eq_none (h : r.Leads E) (ht : E.contains t = false) : r.find? t = none := by
  cases hd : r.find? t with
  | none => rfl
  | some d =>
    rw [h.contains (contains_of_find? hd)] at ht
    cases ht

/-- A type that was foreseen is looked up as it was at first. -/
theorem Foreseen.find? (h : Foreseen r₀ E t) (hr : Grows r₀ r) (hE : r.Leads E) :
    r.find? t = r₀.find? t := by
  rcases h with h | h
  · obtain ⟨d, hd⟩ := exists_find?_of_contains h
    rw [hd, hr.find? hd]
  · rw [hE.find?_eq_none h, (hr.leads.trans hE).find?_eq_none h]

theorem Foreseen.looksAlike (h : Foreseen r₀ E t) (hr₀ : Grows r₀ E) (hr : Grows r₀ r) (hE : r.Leads E) :
    E.staticTarget? t = r.staticTarget? t ∧ E.template? t = r.template? t ∧
      E.typeArgs t = r.typeArgs t := by
  unfold staticTarget? template? typeArgs
  rw [h.find? hr₀ (.refl E), h.find? hr hE]
  exact ⟨rfl, rfl, rfl⟩

theorem Foreseen.hasPart (h : Foreseen r₀ E t) (hr : Grows r₀ r) (hE : r.Leads E) (hp : r.HasPart t u) :
    r₀.HasPart t u := by
  unfold HasPart staticTarget? typeArgs at hp ⊢
  rwa [h.find? hr hE] at hp

theorem Foreseen.describe (h : Foreseen r E t) (hE : r.Leads E) : r.describe t = E.describe t := by
  unfold Registry.describe name?
  rcases h with h | h
  · obtain ⟨d, hd⟩ := exists_find?_of_contains h
    obtain ⟨e, he, hshape⟩ := hE t d hd
    rw [hd, he, Option.map_some, Option.map_some, hshape.name]
  · rw [hE.find?_eq_none h, find?_eq_none_of_contains h]

theorem instanceHeader_eq (h : ∀ a ∈ args, Foreseen r E a) (hE : r.Leads E) :
    r.instanceHeader d template args = E.instanceHeader d template args := by
  have hnames : args.map r.describe = args.map E.describe :=
    List.map_congr_left fun a ha ↦ (h a ha).describe hE
  unfold instanceHeader describeAll
  rw [hnames]

theorem contains_of_staticWrapper (h : staticWrapper t r = .done v r') :
    v = .ofStatic t ∧ r'.contains v = true := by
  rw [staticWrapper_eq_done_iff] at h
  cases h with
  | known h => exact ⟨rfl, h⟩
  | new h hn => exact ⟨rfl, contains_of_find? (find?_insertInstance_self (d := wrapperDecl _ t) h)⟩

theorem contains_of_instantiate (h : instantiate fuel template args r = .done v r') :
    v = .ofInstance template args ∧ r'.contains v = true := by
  cases fuel with
  | zero => cases h
  | succ fuel =>
    rw [instantiate_eq_done_iff] at h
    cases h with
    | known h => exact ⟨rfl, h⟩
    | new hnew h =>
      have hgrows := (Along.mapM _ (grows_substitute fuel _)).of_done h
      exact ⟨rfl, contains_complete hnew.unknown hgrows (completes_filled _ h).id⟩

theorem instantiate_again (h : instantiate fuel template args r = .done v r')
    (hv : E.contains v = true) : instantiate fuel template args E = .done v E := by
  obtain ⟨rfl, -⟩ := contains_of_instantiate h
  cases fuel with
  | zero => cases h
  | succ fuel => exact instantiate_of_known hv

theorem mapM_again (hs : ∀ t ∈ ts, ∀ v r r', Grows r₀ r → substitute fuel map t r = .done v r' →
      r'.Leads E → substitute fuel map t E = .done v E) (hr : Grows r₀ r)
    (hrun : ts.mapM (substitute fuel map) r = .done vs r') (hE : r'.Leads E) :
    ts.mapM (substitute fuel map) E = .done vs E := by
  induction ts generalizing r vs with
  | nil =>
    cases hrun
    rfl
  | cons t ts ih =>
    obtain ⟨hs, hss⟩ := List.forall_mem_cons.1 hs
    obtain ⟨v, r₁, vs, hv, hvs, rfl⟩ := mapM_cons_eq_done_iff.1 hrun
    have hgrows : Grows r r₁ := (grows_substitute _ _ _).of_done hv
    have hgrows₁ : Grows r₁ r' := (Along.mapM _ (grows_substitute _ _)).of_done hvs
    rw [mapM_cons_eq_done_iff]
    exact ⟨v, E, vs, hs v r r₁ hr hv (hgrows₁.leads.trans hE),
      ih hss (IsTrans.trans _ _ _ hr hgrows) hvs, rfl⟩

/-- `K` holds of the types that the substitution comes to: with a type it holds of its parts. -/
theorem substitute_again_within {K : TypeId → Prop} (hK : ∀ t, K t → Foreseen r₀ E t)
    (hparts : ∀ t u, K t → r₀.HasPart t u → K u) (hr₀ : Grows r₀ E) (hr : Grows r₀ r) (ht : K t)
    (hrun : substitute fuel map t r = .done v r') (hE : r'.Leads E) :
    substitute fuel map t E = .done v E := by
  induction fuel generalizing map t v r r' with
  | zero => cases hrun
  | succ fuel ih =>
    have hgrows : Grows r r' := (grows_substitute _ _ _).of_done hrun
    have hleads := hgrows.leads.trans hE
    obtain ⟨hstatic, htemplate, hargs⟩ := (hK t ht).looksAlike hr₀ hr hleads
    have hpart : ∀ {u}, r.HasPart t u → K u := fun hp ↦ hparts t _ ht ((hK t ht).hasPart hr hleads hp)
    have hmapM : ∀ {ws r₁}, (r.typeArgs t).mapM (substitute fuel map) r = .done ws r₁ → r₁.Leads E →
        (E.typeArgs t).mapM (substitute fuel map) E = .done ws E := by
      intro ws r₁ hws hr₁
      rw [hargs]
      refine mapM_again ?_ hr hws hr₁
      intro a ha w r₂ r₃ hr₂ hw hr₃
      exact ih hr₂ (hpart (.inr ha)) hw hr₃
    rw [substitute_eq_done_iff] at hrun ⊢
    cases hrun with
    | bound hmap => exact .bound hmap
    | plain hmap hs ht => exact .plain hmap (hstatic.trans hs) (htemplate.trans ht)
    | sameTarget hmap hs h =>
      exact .sameTarget hmap (hstatic.trans hs) (ih hr (hpart (.inl hs)) h hE)
    | newTarget hmap hs h hne hw =>
      have hleads₁ := ((grows_staticWrapper _).of_done hw).leads.trans hE
      refine .newTarget hmap (hstatic.trans hs) (ih hr (hpart (.inl hs)) h hleads₁) hne ?_
      obtain ⟨rfl, hv⟩ := contains_of_staticWrapper hw
      exact staticWrapper_of_known (hE.contains hv)
    | sameArgs hmap hs ht h =>
      have hagain := hmapM h hE
      rw [← hargs] at hagain
      exact .sameArgs hmap (hstatic.trans hs) (htemplate.trans ht) hagain
    | newArgs hmap hs ht h hne hi =>
      have hleads₁ := ((grows_instantiate _ _ _).of_done hi).leads.trans hE
      refine .newArgs hmap (hstatic.trans hs) (htemplate.trans ht) (hmapM h hleads₁) ?_ ?_
      · rwa [hargs]
      · exact instantiate_again hi (hE.contains (contains_of_instantiate hi).2)

theorem substitute_again (hr₀ : Grows r₀ E) (hf : Foresees r₀ E) (hr : Grows r₀ r)
    (ht : Foreseen r₀ E t) (hrun : substitute fuel map t r = .done v r') (hE : r'.Leads E) :
    substitute fuel map t E = .done v E :=
  substitute_again_within (fun _ h ↦ h) (fun _ _ _ hp ↦ hf.parts hp) hr₀ hr ht hrun hE

theorem mentionedAt_again (hr₀ : Grows r₀ E) (hf : Foresees r₀ E) (hr : Grows r₀ r)
    (hmentioned : ∀ t ∈ d.mentioned, Foreseen r₀ E t) (hrun : mentionedAt fuel d args r = .done ts r')
    (hE : r'.Leads E) : mentionedAt fuel d args E = .done ts E := by
  refine mapM_again ?_ hr hrun hE
  intro t ht v r₁ r₂ hr₁ hv hr₂
  exact substitute_again hr₀ hf hr₁ (hmentioned t ht) hv hr₂

/-- The entry is what it would be if it were made now, and nothing would have to be made for it. -/
inductive Settled (r₀ E : Registry) : TypeId → TypeDecl → Prop
  | wrapper {target : TypeId} {name : String} (hname : E.name? target = some name) :
      Settled r₀ E (.ofStatic target) (wrapperDecl name target)
  | made {template : TypeId} {d : TypeDecl} {args ts : List TypeId} {fuel : Nat}
      (hd : r₀.find? template = some d) (ht : d.isTemplate = true)
      (h : mentionedAt fuel d args E = .done ts E) :
      Settled r₀ E (.ofInstance template args) (filled (E.instanceHeader d template args) d ts)

/-- `P` holds of what has been made between `r` and `r'`. -/
def Made (P : TypeId → TypeDecl → Prop) (r r' : Registry) : Prop :=
  ∀ t e, r.contains t = false → r'.find? t = some e → P t e

section Made

variable {P : TypeId → TypeDecl → Prop}

theorem Made.refl (P : TypeId → TypeDecl → Prop) (r : Registry) : Made P r r := by
  intro t e ht he
  rw [contains_of_find? he] at ht
  cases ht

theorem Made.trans (h : Made P r r₁) (h' : Made P r₁ r') (hgrows : Grows r₁ r') : Made P r r' := by
  intro t e ht he
  cases ht₁ : r₁.contains t with
  | false => exact h' t e ht₁ he
  | true =>
    obtain ⟨d, hd⟩ := exists_find?_of_contains ht₁
    rw [hgrows.find? hd] at he
    exact h t e ht (hd.trans he)

theorem made_insertInstance (h : P entry.id entry) : Made P r (r.insertInstance entry) := by
  intro t e ht he
  rcases find?_insertInstance_cases he with ⟨rfl, rfl⟩ | he
  · exact h
  · rw [contains_of_find? he] at ht
    cases ht

theorem Made.complete (hu : r.contains header.id = false) (hgrows : Grows (r.insertInstance header) r')
    (hid : entry.id = header.id) (h : Made P (r.insertInstance header) r') (hentry : P header.id entry) :
    Made P r (r'.insertInstance entry) := by
  intro t e ht he
  rw [find?_complete hu hgrows hid] at he
  split at he
  · rename_i htid
    cases he
    rwa [htid]
  · rename_i htid
    refine h t e ?_ he
    rw [contains_insertInstance_of_ne hu htid, ht]

end Made

/-- What has been made between `r` and `r'` is settled in `E`. -/
abbrev Settles (r₀ E r r' : Registry) : Prop := Made (Settled r₀ E) r r'

/-- Nothing between `r` and `r'` has been left unfinished. -/
abbrev Finishes (r r' : Registry) : Prop := Settles r r' r r'

/-- The types that the substitution puts in are known or will not be known. -/
def Timely (r E : Registry) (map : Substitution) : Prop := ∀ t b, map.find? t = some b → Foreseen r E b

theorem Timely.grows (h : Timely r E map) (hgrows : Grows r r') : Timely r' E map :=
  fun t b hb ↦ (h t b hb).grows hgrows

theorem timely_zip (h : ∀ a ∈ args, Foreseen r E a) : Timely r E (.ofList (ts.zip args)) := by
  intro t b hb
  exact h b (List.of_mem_zip (Dictionary.mem_of_find?_ofList hb)).2

theorem settles_staticWrapper (hrun : staticWrapper t r = .done v r') (hE : r'.Leads E) :
    Settles r₀ E r r' := by
  rw [staticWrapper_eq_done_iff] at hrun
  cases hrun with
  | known h => exact .refl _ r
  | new h hn =>
    rename_i name
    have hgrows : Grows r (r.insertInstance (wrapperDecl name t)) := .insertInstance h
    refine made_insertInstance (.wrapper ?_)
    obtain ⟨d, hd, rfl⟩ := Option.map_eq_some_iff.1 hn
    obtain ⟨e, he, hshape⟩ := (hgrows.leads.trans hE) t d hd
    rw [name?, he, Option.map_some, hshape.name]

theorem settles_mapM (hs : ∀ t ∈ ts, ∀ v r r', Stage r₀ r → Timely r E map →
      substitute fuel map t r = .done v r' → r'.Leads E → Foreseen r' E v ∧ Settles r₀ E r r')
    (hr : Stage r₀ r) (hmap : Timely r E map) (hrun : ts.mapM (substitute fuel map) r = .done vs r')
    (hE : r'.Leads E) : (∀ v ∈ vs, Foreseen r' E v) ∧ Settles r₀ E r r' := by
  induction ts generalizing r vs with
  | nil =>
    cases hrun
    exact ⟨by simp, .refl _ _⟩
  | cons t ts ih =>
    obtain ⟨hs, hss⟩ := List.forall_mem_cons.1 hs
    obtain ⟨v, r₁, vs, hv, hvs, rfl⟩ := mapM_cons_eq_done_iff.1 hrun
    have hgrows : Grows r r₁ := (grows_substitute _ _ _).of_done hv
    have hgrows₁ : Grows r₁ r' := (Along.mapM _ (grows_substitute _ _)).of_done hvs
    obtain ⟨hv₁, hsettles⟩ := hs v r r₁ hr hmap hv (hgrows₁.leads.trans hE)
    obtain ⟨hvs₁, hsettles₁⟩ := ih hss (hr.substitute hv) (hmap.grows hgrows) hvs
    exact ⟨List.forall_mem_cons.2 ⟨hv₁.grows hgrows₁, hvs₁⟩, hsettles.trans hsettles₁ hgrows₁⟩

theorem settles_substitute_succ (hf : Foresees r₀ E)
    (hs : ∀ map t v r r', Stage r₀ r → Timely r E map → Foreseen r₀ E t →
      substitute fuel map t r = .done v r' → r'.Leads E → Foreseen r' E v ∧ Settles r₀ E r r')
    (hi : ∀ template args v r r', Stage r₀ r → (∀ a ∈ args, Foreseen r E a) →
      instantiate fuel template args r = .done v r' → r'.Leads E → Settles r₀ E r r')
    (hr : Stage r₀ r) (hmap : Timely r E map) (ht : Foreseen r₀ E t)
    (hrun : substitute (fuel + 1) map t r = .done v r') (hE : r'.Leads E) :
    Foreseen r' E v ∧ Settles r₀ E r r' := by
  have hgrows : Grows r r' := (grows_substitute _ _ _).of_done hrun
  have hleads := hgrows.leads.trans hE
  have hpart : ∀ {u}, r.HasPart t u → Foreseen r₀ E u :=
    fun hp ↦ hf.parts (ht.hasPart hr.grows hleads hp)
  have ht' : Foreseen r' E t := ht.grows (IsTrans.trans _ _ _ hr.grows hgrows)
  have hmapM : ∀ {ws r₁}, (r.typeArgs t).mapM (substitute fuel map) r = .done ws r₁ → r₁.Leads E →
      (∀ w ∈ ws, Foreseen r₁ E w) ∧ Settles r₀ E r r₁ := by
    intro ws r₁ hws hr₁
    refine settles_mapM ?_ hr hmap hws hr₁
    intro a ha w r₂ r₃ hr₂ hmap₂ hw hr₃
    exact hs map a w r₂ r₃ hr₂ hmap₂ (hpart (.inr ha)) hw hr₃
  rw [substitute_eq_done_iff] at hrun
  cases hrun with
  | bound hb => exact ⟨hmap t v hb, .refl _ r⟩
  | plain _ _ _ => exact ⟨ht', .refl _ r⟩
  | sameTarget _ hst h =>
    obtain ⟨-, hsettles⟩ := hs map _ _ r r' hr hmap (hpart (.inl hst)) h hE
    exact ⟨ht', hsettles⟩
  | newTarget _ hst h _ hw =>
    have hgrows₁ := (grows_staticWrapper _).of_done hw
    obtain ⟨-, hsettles⟩ := hs map _ _ r _ hr hmap (hpart (.inl hst)) h (hgrows₁.leads.trans hE)
    exact ⟨.inl (contains_of_staticWrapper hw).2, hsettles.trans (settles_staticWrapper hw hE) hgrows₁⟩
  | sameArgs _ _ _ h => exact ⟨ht', (hmapM h hE).2⟩
  | newArgs _ _ _ h _ hrun =>
    have hgrows₁ := (grows_instantiate _ _ _).of_done hrun
    obtain ⟨hws, hsettles⟩ := hmapM h (hgrows₁.leads.trans hE)
    refine ⟨.inl (contains_of_instantiate hrun).2, hsettles.trans ?_ hgrows₁⟩
    exact hi _ _ _ _ r' (hr.mapM h) hws hrun hE

theorem settles_instantiate_succ (hr₀ : Grows r₀ E) (hf : Foresees r₀ E)
    (hs : ∀ map t v r r', Stage r₀ r → Timely r E map → Foreseen r₀ E t →
      substitute fuel map t r = .done v r' → r'.Leads E → Foreseen r' E v ∧ Settles r₀ E r r')
    (hr : Stage r₀ r) (hargs : ∀ a ∈ args, Foreseen r E a)
    (hrun : instantiate (fuel + 1) template args r = .done v r') (hE : r'.Leads E) :
    Settles r₀ E r r' := by
  rw [instantiate_eq_done_iff] at hrun
  cases hrun with
  | known h => exact .refl _ r
  | new hnew h =>
    rename_i d ts r₁
    have hheader : Grows r (r.insertInstance (r.instanceHeader d template args)) :=
      .insertInstance hnew.unknown
    have hgrows : Grows (r.insertInstance (r.instanceHeader d template args)) r₁ :=
      (Along.mapM _ (grows_substitute fuel _)).of_done h
    have hid := (completes_filled (r.instanceHeader d template args) h).id
    have hleads₁ : r₁.Leads E :=
      (leads_complete hnew.unknown hgrows hid (sameShape_filled rfl h)).trans hE
    have hleads : r.Leads E := hheader.leads.trans (hgrows.leads.trans hleads₁)
    have hfound := hr.templates template d hnew.found hnew.isTemplate
    have hmentioned := hf.mentioned hfound hnew.isTemplate
    have hagain := mentionedAt_again hr₀ hf (hr.enter hnew).grows hmentioned h hleads₁
    obtain ⟨-, hsettles⟩ := settles_mapM (fun t ht v r r' hr hmap hrun hE ↦
        hs _ t v r r' hr hmap (hmentioned t ht) hrun hE) (hr.enter hnew)
      (timely_zip fun a ha ↦ (hargs a ha).grows hheader) h hleads₁
    refine hsettles.complete hnew.unknown hgrows hid ?_
    rw [instanceHeader_eq hargs hleads]
    exact .made hfound hnew.isTemplate hagain

/-- All that substitution and instantiation make is settled at the end. -/
theorem settles_run (hr₀ : Grows r₀ E) (hf : Foresees r₀ E) (fuel : Nat) :
    (∀ map t v r r', Stage r₀ r → Timely r E map → Foreseen r₀ E t →
      substitute fuel map t r = .done v r' → r'.Leads E → Foreseen r' E v ∧ Settles r₀ E r r') ∧
    ∀ template args v r r', Stage r₀ r → (∀ a ∈ args, Foreseen r E a) →
      instantiate fuel template args r = .done v r' → r'.Leads E → Settles r₀ E r r' := by
  induction fuel with
  | zero =>
    refine ⟨?_, ?_⟩
    · intro map t v r r' _ _ _ h
      cases h
    · intro template args v r r' _ _ h
      cases h
  | succ fuel ih =>
    exact ⟨fun _ _ _ _ _ hr hmap ht hrun hE ↦ settles_substitute_succ hf ih.1 ih.2 hr hmap ht hrun hE,
      fun _ _ _ _ _ hr hargs hrun hE ↦ settles_instantiate_succ hr₀ hf ih.1 hr hargs hrun hE⟩

end CallResolution.Registry
