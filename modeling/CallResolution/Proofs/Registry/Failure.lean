import CallResolution.Proofs.Registry.Coherence
import CallResolution.Proofs.Registry.Settling
import Mathlib.Data.List.Perm.Subperm

namespace CallResolution

open Attempt

variable {σ ε α β : Type}

/-- The computation has not failed, and if it has ended, then with a value and a state as `Q` says. -/
def Outcome.Meets (Q : α → σ → Prop) : Outcome σ ε α → Prop
  | done a s => Q a s
  | failed _ _ => False
  | exhausted => True

theorem Attempt.meets_bind {P : α → σ → Prop} {Q : β → σ → Prop} {x : Attempt σ ε α}
    {f : α → Attempt σ ε β} {s : σ} (hx : (x s).Meets P) (hf : ∀ a t, P a t → (f a t).Meets Q) :
    ((x >>= f) s).Meets Q := by
  rw [bind_apply]
  cases h : x s with
  | done a t =>
    rw [h] at hx
    exact hf a t hx
  | failed e t =>
    rw [h] at hx
    cases hx
  | exhausted => trivial

theorem Outcome.exists_failed {o : Outcome σ ε α} {s : σ} (hv : o.value? = none) (hs : o.state? = some s) :
    ∃ e, o = .failed e s := by
  cases o with
  | done a t => cases hv
  | failed e t =>
    cases hs
    exact ⟨e, rfl⟩
  | exhausted => cases hs

theorem Outcome.Meets.mono {P Q : α → σ → Prop} {o : Outcome σ ε α} (h : o.Meets P)
    (hPQ : ∀ a s, P a s → Q a s) : o.Meets Q := by
  cases o with
  | done a s => exact hPQ a s h
  | failed e s => cases h
  | exhausted => trivial

namespace Dictionary

variable {κ : Type} [DecidableEq κ]

theorem mem_keys_iff (d : Dictionary κ α) (k : κ) : k ∈ d.keys ↔ d.contains k = true := by
  unfold keys contains find?
  induction d.entries with
  | nil => simp [get]
  | cons e es ih =>
    obtain ⟨l, b⟩ := e
    rw [List.map_cons, List.mem_cons, get]
    by_cases h : l = k
    · simp [h]
    · rw [if_neg h, ← ih]
      simp [Ne.symm h]

theorem size_lt {d d' : Dictionary κ α} (h : ∀ k, d.contains k = true → d'.contains k = true) {k : κ}
    (hk : d.contains k = false) (hk' : d'.contains k = true) : d.size < d'.size := by
  have hnew : k ∉ d.keys := by
    rw [mem_keys_iff, hk]
    simp
  have hnodup : (k :: d.keys).Nodup := List.nodup_cons.2 ⟨hnew, d.nodup_keys⟩
  have hsub : k :: d.keys ⊆ d'.keys := by
    intro l hl
    rw [mem_keys_iff]
    rcases List.mem_cons.1 hl with rfl | hl
    · exact hk'
    · exact h l ((mem_keys_iff d l).1 hl)
  have hlen := (List.subperm_of_subset hnodup hsub).length_le
  rw [List.length_cons, keys, keys, List.length_map, List.length_map] at hlen
  exact hlen

end Dictionary

namespace Registry

variable {r r' : Registry} {fuel : Nat} {map : Substitution} {t template target : TypeId}
  {args : List TypeId} {d entry : TypeDecl} {e : RegistrationError}

/-- Every instance is one of a known template, with as many arguments as that has parameters. -/
def InstancesFit (r : Registry) : Prop :=
  ∀ t d template, r.find? t = some d → d.template = some template →
    ∃ d', r.find? template = some d' ∧ d'.isTemplate = true ∧ d'.typeParams.length = d.typeArgs.length

def ArgsKnown (r : Registry) : Prop := ∀ t d, r.find? t = some d → ∀ a ∈ d.typeArgs, r.contains a = true

theorem InstancesFit.stage (hr : r.InstancesFit) (h : Stage r r') : r'.InstancesFit := by
  intro t d template hd ht
  rcases h.fit t d template hd ht with hd | ⟨d', hd', ht', ha⟩
  · obtain ⟨d', hd', ht', ha⟩ := hr t d template hd ht
    exact ⟨d', h.grows.find? hd', ht', ha⟩
  · exact ⟨d', h.grows.find? hd', ht', ha⟩

theorem inductive_instancesFit : Inductive InstancesFit := inductive_of_stage fun _ _ h hr ↦ hr.stage h

/-- Nothing that is registered is an instance. -/
def RegisteredPlain (r : Registry) : Prop := ∀ t d, r.types.find? t = some d → d.template = none

theorem template_eq_none_of_builtin (h : builtin.find? t = some d) : d.template = none := by
  have hall : ∀ e ∈ builtin.types.entries ++ builtin.instances.entries, e.2.template = none := by
    decide +kernel
  exact hall _ (mem_entries_of_find? h)

theorem registeredPlain_insert (hr : r.RegisteredPlain) (hd : d.template = none)
    (htypes : r'.types = r.types.insert d.id d) : r'.RegisteredPlain := by
  intro t e he
  rw [htypes, Dictionary.find?_insert] at he
  split at he
  · cases he
    exact hd
  · exact hr t e he

theorem Reachable.registeredPlain {admitted : TypeDecl → Prop}
    (hadmitted : ∀ d, admitted d → d.template = none) (h : Reachable admitted r) : r.RegisteredPlain := by
  refine h.invariant ⟨fun _ _ _ hr _ _ ↦ hr, fun _ _ _ _ hr _ ↦ hr, fun _ _ _ _ _ _ _ _ _ hr' _ ↦ hr'⟩
    (by rintro _ _ ⟨⟩) (fun t d hd ↦ template_eq_none_of_builtin (by rw [find?, hd, Option.some_or])) ?_ ?_
    fun _ _ hr ↦ hr
  · intro r d hr hd _ _
    obtain ⟨base, hbase⟩ := withImplicitBase_eq d
    rw [hbase]
    exact registeredPlain_insert (d := { d with base := base }) hr (hadmitted d hd) rfl
  · exact fun r name info hr _ ↦ registeredPlain_insert hr rfl rfl

theorem Coherent.origin_of_template (hr : r.Coherent) (hplain : r.RegisteredPlain) (hd : r.find? t = some d)
    (ht : d.template = some template) : ∃ decl, r.types.find? template = some decl ∧
      decl.isTemplate = true ∧ decl.typeParams.length = d.typeArgs.length ∧
      (decl.kind = .classType → d.kind = .classType) := by
  rcases Option.or_eq_some_iff.1 hd with hd | ⟨-, hd⟩
  · rw [hplain t d hd] at ht
    cases ht
  · cases (hr.origin t d hd).2 with
    | ofTemplate htemplate hdecl isTemplate arity hid hclass =>
      cases htemplate.symm.trans ht
      exact ⟨_, hdecl, isTemplate, arity, hclass⟩
    | ofTarget hkind htemplate htarget hid =>
      rw [htemplate] at ht
      cases ht

theorem Coherent.instancesFit (hr : r.Coherent) (hplain : r.RegisteredPlain) : r.InstancesFit := by
  intro t d template hd ht
  obtain ⟨decl, hdecl, isTemplate, arity, -⟩ := hr.origin_of_template hplain hd ht
  exact ⟨decl, by rw [find?, hdecl, Option.some_or], isTemplate, arity⟩

theorem Reachable.instancesFit (h : Reachable TypeDecl.IsDeclaration r) : r.InstancesFit :=
  h.coherent.instancesFit (h.registeredPlain fun _ hd ↦ hd.template)

/-- What holds of all declarations at the start, and of each one that is registered or made, holds of all
that are known. -/
theorem Reachable.forall_decl {admitted Q : TypeDecl → Prop}
    (builtin : ∀ t d, Registry.builtin.find? t = some d → Q d)
    (register : ∀ d base, admitted d → Q { d with base := base })
    (param : ∀ name info, Q { name := name, id := .ofParam info.owner name, kind := .parameter info })
    (wrapper : ∀ name target, Q (wrapperDecl name target))
    (header : ∀ r d template args, Q (instanceHeader r d template args))
    (complete : ∀ header entry, Completes header entry → Q header → Q entry) (h : Reachable admitted r) :
    ∀ t d, r.find? t = some d → Q d := by
  have hinstance {r : Registry} {e : TypeDecl} (hr : ∀ t d, r.find? t = some d → Q d) (he : Q e) :
      ∀ t d, (r.insertInstance e).find? t = some d → Q d := by
    intro t d hd
    rcases find?_insertInstance_cases hd with ⟨-, rfl⟩ | hd
    · exact he
    · exact hr t d hd
  have hinsert {r r' : Registry} {e : TypeDecl} (hr : ∀ t d, r.find? t = some d → Q d) (he : Q e)
      (hfind : ∀ t, r'.find? t = if t = e.id then some e else r.find? t) :
      ∀ t d, r'.find? t = some d → Q d := by
    intro t d hd
    rw [hfind] at hd
    split at hd
    · cases hd
      exact he
    · exact hr t d hd
  refine h.invariant (I := fun r ↦ ∀ t d, r.find? t = some d → Q d) ⟨?_, ?_, ?_⟩ (by rintro _ _ ⟨⟩) builtin
    ?_ ?_ fun _ _ hr ↦ hr
  · exact fun r target name hr _ _ ↦ hinstance hr (wrapper name target)
  · exact fun r template d args hr _ ↦ hinstance hr (header r d template args)
  · exact fun r template d args fuel entry r' _ _ hr' hrun ↦
      hinstance hr' (complete _ entry (completes_of_instanceDecl hrun) (header r d template args))
  · intro r d hr hd _ _
    obtain ⟨base, hbase⟩ := withImplicitBase_eq d
    rw [hbase]
    exact hinsert hr (register d base hd) (find?_insert r { d with base := base })
  · exact fun r name info hr _ ↦ hinsert hr (param name info) (find?_insertParam r _)

/-- Templates are registered, so the template of an instance is not an instance. -/
theorem Reachable.template?_template {admitted : TypeDecl → Prop}
    (hadmitted : ∀ d, admitted d → d.template = none) (h : Reachable admitted r)
    (ht : r.template? t = some template) : r.template? template = none := by
  have hplain := h.registeredPlain hadmitted
  obtain ⟨d, hd, hdt⟩ := Option.bind_eq_some_iff.1 ht
  obtain ⟨decl, hdecl, -⟩ := h.coherent.origin_of_template hplain hd hdt
  rw [template?, find?, hdecl, Option.some_or]
  exact hplain template decl hdecl

theorem ArgsKnown.insertInstance (hr : r.ArgsKnown) (hid : r.types.find? entry.id = none)
    (hargs : ∀ a ∈ entry.typeArgs, r.contains a = true) : (r.insertInstance entry).ArgsKnown := by
  intro t d hd a ha
  apply contains_insertInstance hid
  rw [find?_insertInstance hid] at hd
  split at hd
  · cases hd
    exact hargs a ha
  · exact hr t d hd a ha

/-- Every instance fits its template, and its arguments are known. -/
structure Orderly (r : Registry) : Prop where
  fit : r.InstancesFit
  known : r.ArgsKnown

theorem Orderly.header (hr : r.Orderly) (hnew : NewInstance r template d args)
    (hargs : ∀ a ∈ args, r.contains a = true) :
    (r.insertInstance (r.instanceHeader d template args)).Orderly :=
  ⟨inductive_instancesFit.header r template d args hr.fit hnew,
    hr.known.insertInstance (find?_types_eq_none hnew.unknown) hargs⟩

theorem Orderly.complete {ts : List TypeId} (hr : r.Orderly) (hnew : NewInstance r template d args)
    (hrun : mentionedAt fuel d args (r.insertInstance (r.instanceHeader d template args)) = .done ts r')
    (hr' : r'.Orderly) :
    (r'.insertInstance (filled (r.instanceHeader d template args) d ts)).Orderly := by
  have hgrows : Grows (r.insertInstance (r.instanceHeader d template args)) r' :=
    (Along.mapM _ (grows_substitute fuel _)).of_done hrun
  have hc := completes_filled (r.instanceHeader d template args) hrun
  obtain ⟨hheader, hid⟩ := find?_header hnew.unknown hgrows
  refine ⟨inductive_instancesFit.complete r template d args fuel _ r' hr.fit hnew hr'.fit
    (instanceDecl_of_mentionedAt _ hrun), hr'.known.insertInstance (by rwa [hc.id]) ?_⟩
  rw [hc.typeArgs]
  exact hr'.known _ _ hheader

/-- The types that are put in the place of others are known. -/
def Binds (r : Registry) (map : Substitution) : Prop := ∀ t b, map.find? t = some b → r.contains b = true

theorem Binds.grows {map : Substitution} (h : r.Binds map) (hgrows : Grows r r') : r'.Binds map :=
  fun t b hb ↦ hgrows.contains (h t b hb)

theorem meets_staticWrapper (hr : r.Orderly) (ht : r.contains target = true) :
    (staticWrapper target r).Meets fun v r' ↦ r'.Orderly ∧ Grows r r' ∧ r'.contains v = true := by
  cases hc : r.contains (.ofStatic target) with
  | true =>
    rw [staticWrapper_of_known hc]
    exact ⟨hr, refl r, hc⟩
  | false =>
    obtain ⟨d, hd⟩ := exists_find?_of_contains ht
    have hn : r.name? target = some d.name := by simp [name?, hd]
    have hu : r.contains (wrapperDecl d.name target).id = false := hc
    rw [staticWrapper_of_new hc hn]
    refine ⟨⟨inductive_instancesFit.wrapper r target d.name hr.fit hc hn, ?_⟩, .insertInstance hu, ?_⟩
    · exact hr.known.insertInstance (find?_types_eq_none hu) (by rintro a ⟨⟩)
    · exact contains_of_find? (find?_insertInstance_self hu)

theorem meets_mapM (hs : ∀ t r, r.Orderly → r.Binds map → (substitute fuel map t r).Meets fun v r' ↦
      r'.Orderly ∧ Grows r r' ∧ (v = t ∨ r'.contains v = true)) (ts : List TypeId) (hr : r.Orderly)
    (hmap : r.Binds map) : (ts.mapM (substitute fuel map) r).Meets fun vs r' ↦
      r'.Orderly ∧ Grows r r' ∧ vs.length = ts.length ∧ ∀ v ∈ vs, v ∈ ts ∨ r'.contains v = true := by
  induction ts generalizing r with
  | nil => exact ⟨hr, refl r, rfl, by rintro v ⟨⟩⟩
  | cons t ts ih =>
    rw [List.mapM_cons]
    refine meets_bind (hs t r hr hmap) ?_
    rintro v r₁ ⟨hr₁, hgrows₁, hv⟩
    refine meets_bind (ih hr₁ (hmap.grows hgrows₁)) ?_
    rintro vs r₂ ⟨hr₂, hgrows₂, hlen, hvs⟩
    refine ⟨hr₂, IsTrans.trans _ _ _ hgrows₁ hgrows₂, by rw [List.length_cons, List.length_cons, hlen], ?_⟩
    intro w hw
    rcases List.mem_cons.1 hw with rfl | hw
    · exact hv.imp (by rintro rfl; exact List.mem_cons_self) hgrows₂.contains
    · exact (hvs w hw).imp_left (List.mem_cons_of_mem t)

theorem meets_substitute_succ
    (hs : ∀ map t r, r.Orderly → r.Binds map → (substitute fuel map t r).Meets fun v r' ↦
      r'.Orderly ∧ Grows r r' ∧ (v = t ∨ r'.contains v = true))
    (hi : ∀ template d args r, r.Orderly → r.find? template = some d → d.isTemplate = true →
      d.typeParams.length = args.length → (∀ a ∈ args, r.contains a = true) →
      (instantiate fuel template args r).Meets fun v r' ↦
        r'.Orderly ∧ Grows r r' ∧ r'.contains v = true)
    (hr : r.Orderly) (hmap : r.Binds map) : (substitute (fuel + 1) map t r).Meets fun v r' ↦
      r'.Orderly ∧ Grows r r' ∧ (v = t ∨ r'.contains v = true) := by
  cases hb : map.find? t with
  | some b =>
    rw [substitute_of_bound hb]
    exact ⟨hr, refl r, .inr (hmap t b hb)⟩
  | none =>
    cases hst : r.staticTarget? t with
    | some target =>
      rw [substitute_of_static hb hst]
      refine meets_bind (hs map target r hr hmap) ?_
      rintro v r₁ ⟨hr₁, hgrows₁, hv⟩
      by_cases hvt : v = target
      · rw [if_pos hvt]
        exact ⟨hr₁, hgrows₁, .inl rfl⟩
      · rw [if_neg hvt]
        refine (meets_staticWrapper hr₁ (hv.resolve_left hvt)).mono ?_
        rintro w r₂ ⟨hr₂, hgrows₂, hw⟩
        exact ⟨hr₂, IsTrans.trans _ _ _ hgrows₁ hgrows₂, .inr hw⟩
    | none =>
      cases ht : r.template? t with
      | none =>
        rw [substitute_of_plain hb hst ht]
        exact ⟨hr, refl r, .inl rfl⟩
      | some template =>
        obtain ⟨d, hd, hdt⟩ := Option.bind_eq_some_iff.1 ht
        have hargs : r.typeArgs t = d.typeArgs := by simp [typeArgs, hd]
        obtain ⟨d', hd', ht', harity⟩ := hr.fit t d template hd hdt
        rw [substitute_of_instance hb hst ht, hargs]
        refine meets_bind (meets_mapM (hs map) d.typeArgs hr hmap) ?_
        rintro vs r₁ ⟨hr₁, hgrows₁, hlen, hvs⟩
        by_cases hvt : vs = d.typeArgs
        · rw [if_pos hvt]
          exact ⟨hr₁, hgrows₁, .inl rfl⟩
        · rw [if_neg hvt]
          have hknown : ∀ v ∈ vs, r₁.contains v = true := by
            intro v hv
            rcases hvs v hv with hv | hv
            · exact hgrows₁.contains (hr.known t d hd v hv)
            · exact hv
          refine (hi template d' vs r₁ hr₁ (hgrows₁.find? hd') ht' (harity.trans hlen.symm) hknown).mono ?_
          rintro w r₂ ⟨hr₂, hgrows₂, hw⟩
          exact ⟨hr₂, IsTrans.trans _ _ _ hgrows₁ hgrows₂, .inr hw⟩

theorem meets_instantiate_succ
    (hs : ∀ map t r, r.Orderly → r.Binds map → (substitute fuel map t r).Meets fun v r' ↦
      r'.Orderly ∧ Grows r r' ∧ (v = t ∨ r'.contains v = true)) (hr : r.Orderly)
    (hd : r.find? template = some d) (ht : d.isTemplate = true)
    (harity : d.typeParams.length = args.length) (hargs : ∀ a ∈ args, r.contains a = true) :
    (instantiate (fuel + 1) template args r).Meets fun v r' ↦
      r'.Orderly ∧ Grows r r' ∧ r'.contains v = true := by
  cases hc : r.contains (.ofInstance template args) with
  | true =>
    rw [instantiate_of_known hc]
    exact ⟨hr, refl r, hc⟩
  | false =>
    have hnew : NewInstance r template d args := ⟨hc, hd, ht, harity⟩
    have hgrows₀ : Grows r (r.insertInstance (r.instanceHeader d template args)) :=
      .insertInstance hnew.unknown
    have hmap : (r.insertInstance (r.instanceHeader d template args)).Binds
        (.ofList (d.typeParams.zip args)) := by
      intro t b hb
      have hmem := Dictionary.mem_of_find?_ofList hb
      exact hgrows₀.contains (hargs b (List.of_mem_zip hmem).2)
    have hwalk := meets_mapM (hs _) d.mentioned (hr.header hnew hargs) hmap
    rw [instantiate_of_new hnew]
    cases hrun : mentionedAt fuel d args (r.insertInstance (r.instanceHeader d template args)) with
    | done ts r' =>
      have hc' := completes_filled (r.instanceHeader d template args) hrun
      have hrun' := hrun
      unfold mentionedAt at hrun
      rw [hrun] at hwalk
      obtain ⟨hr', hgrows, -, -⟩ := hwalk
      exact ⟨hr.complete hnew hrun' hr', .complete hnew.unknown hgrows hc'.id,
        contains_complete hnew.unknown hgrows hc'.id⟩
    | failed e r' =>
      unfold mentionedAt at hrun
      rw [hrun] at hwalk
      cases hwalk
    | exhausted => trivial

/-- With known arguments all the way down, what has been begun does not fail. -/
theorem meets_instantiate (fuel : Nat) :
    (∀ map t r, r.Orderly → r.Binds map → (substitute fuel map t r).Meets fun v r' ↦
      r'.Orderly ∧ Grows r r' ∧ (v = t ∨ r'.contains v = true)) ∧
    ∀ template d args r, r.Orderly → r.find? template = some d → d.isTemplate = true →
      d.typeParams.length = args.length → (∀ a ∈ args, r.contains a = true) →
      (instantiate fuel template args r).Meets fun v r' ↦
        r'.Orderly ∧ Grows r r' ∧ r'.contains v = true := by
  induction fuel with
  | zero => exact ⟨fun _ _ _ _ _ ↦ trivial, fun _ _ _ _ _ _ _ _ _ ↦ trivial⟩
  | succ fuel ih =>
    exact ⟨fun _ _ _ hr hmap ↦ meets_substitute_succ ih.1 ih.2 hr hmap,
      fun _ _ _ _ hr hd ht harity hargs ↦ meets_instantiate_succ ih.1 hr hd ht harity hargs⟩

theorem Step.keepsTypes {admitted : TypeDecl → Prop} (h : Step admitted r r') : KeepsTypes r r' := by
  cases h with
  | register hd h =>
    rename_i d
    refine along_register (R := KeepsTypes) (fun r hnew _ ↦ ?_) _ _ h
    obtain ⟨base, hbase⟩ := withImplicitBase_eq d
    rw [hbase]
    exact keepsTypes_insert (d := { d with base := base }) hnew rfl
  | registerParam h =>
    refine along_registerParam (R := KeepsTypes) (fun r hnew ↦ ?_) _ _ h
    exact keepsTypes_insert hnew rfl
  | addExtension m => exact fun _ _ h ↦ h
  | staticWrapper h => exact (grows_staticWrapper _ _ _ h).keepsTypes
  | instantiate h => exact (grows_instantiate _ _ _ _ _ h).keepsTypes

theorem keepsTypes_of_steps {admitted : TypeDecl → Prop} (h : Relation.ReflTransGen (Step admitted) r r') :
    KeepsTypes r r' := by
  induction h with
  | refl => exact refl r
  | tail _ hstep ih => exact fun t d hd ↦ hstep.keepsTypes t d (ih t d hd)

theorem reachable_of_steps {admitted : TypeDecl → Prop}
    (h : Relation.ReflTransGen (Step admitted) builtin r) : Reachable admitted r := by
  induction h with
  | refl => exact .builtin
  | tail _ hstep ih => exact .step ih hstep

theorem steps_getD {admitted : TypeDecl → Prop} {make : Attempt Registry RegistrationError TypeId}
    (h : Along (Relation.ReflTransGen (Step admitted)) make) (hends : (make builtin).state?.isSome = true) :
    Relation.ReflTransGen (Step admitted) builtin ((make builtin).state?.getD {}) := by
  obtain ⟨r, hr⟩ := Option.isSome_iff_exists.1 hends
  rw [hr]
  exact h _ r hr

theorem meets_substitute_plain (hs : r.staticTarget? t = none) (ht : r.template? t = none) :
    (substitute fuel map t r).Meets fun _ r' ↦ r' = r := by
  cases fuel with
  | zero => trivial
  | succ fuel =>
    cases hb : map.find? t with
    | some b =>
      rw [substitute_of_bound hb]
      rfl
    | none =>
      rw [substitute_of_plain hb hs ht]
      rfl

theorem meets_mapM_plain {ts : List TypeId}
    (h : ∀ t ∈ ts, r.staticTarget? t = none ∧ r.template? t = none) :
    (ts.mapM (substitute fuel map) r).Meets fun _ r' ↦ r' = r := by
  induction ts with
  | nil => rfl
  | cons t ts ih =>
    obtain ⟨⟨hs, ht⟩, hts⟩ := List.forall_mem_cons.1 h
    rw [List.mapM_cons]
    refine meets_bind (meets_substitute_plain hs ht) ?_
    intro v r₁ hr₁
    rw [hr₁]
    exact meets_bind (ih hts) fun _ _ h ↦ h

theorem arrayOf_ne_failed (h : KeepsTypes builtin r) (fuel : Nat) (element : TypeId) :
    arrayOf fuel element r ≠ .failed e r' := by
  have hbuiltin : ∀ t d, builtin.types.find? t = some d → ∀ s, Grows r s → s.find? t = some d := by
    intro t d hd s hs
    change (s.types.find? t).or _ = _
    rw [hs.types, h t d hd, Option.some_or]
  have hplain : ∀ t ∈ arrayDecl.mentioned, ∃ d, builtin.types.find? t = some d ∧
      d.staticTarget = none ∧ d.template = none := by
    have hall : ∀ t ∈ arrayDecl.mentioned, (builtin.types.find? t).any (fun d ↦
        d.staticTarget = none ∧ d.template = none) = true := by decide +kernel
    intro t ht
    simpa [Option.any_eq_true] using hall t ht
  cases fuel with
  | zero => simp [arrayOf, instantiate, Attempt.exhausted]
  | succ fuel =>
    unfold arrayOf
    cases hc : r.contains (.ofInstance .array [element]) with
    | true =>
      rw [instantiate_of_known hc]
      simp
    | false =>
      have hnew : NewInstance r .array arrayDecl [element] :=
        ⟨hc, hbuiltin _ _ (by decide +kernel) r (refl r), rfl, rfl⟩
      have hwalk : (mentionedAt fuel arrayDecl [element]
          (r.insertInstance (r.instanceHeader arrayDecl .array [element]))).Meets
            fun _ _ ↦ True := by
        refine (meets_mapM_plain ?_).mono fun _ _ _ ↦ trivial
        intro t ht
        obtain ⟨d, hd, hs, htm⟩ := hplain t ht
        have hfind := hbuiltin t d hd (r.insertInstance (r.instanceHeader arrayDecl .array [element]))
          (.insertInstance hnew.unknown)
        simp [staticTarget?, template?, hfind, hs, htm]
      rw [instantiate_of_new hnew]
      cases hrun : mentionedAt fuel arrayDecl [element]
          (r.insertInstance (r.instanceHeader arrayDecl .array [element])) with
      | done ts s => simp
      | failed e s =>
        rw [hrun] at hwalk
        cases hwalk
      | exhausted => simp

theorem Grows.size_lt (h : Grows r r') (hu : r.contains t = false) (hd : r'.find? t = some d)
    (ht : r'.types.find? t = none) : r.instances.size < r'.instances.size := by
  have hold : r.instances.contains t = false := by
    unfold Dictionary.contains
    rw [find?_instances_eq_none hu]
    rfl
  have hnew : r'.instances.contains t = true := by
    unfold Dictionary.contains
    unfold Registry.find? at hd
    rw [ht, Option.none_or] at hd
    rw [hd]
    rfl
  refine Dictionary.size_lt ?_ hold hnew
  intro k hk
  obtain ⟨d', hd'⟩ := Option.isSome_iff_exists.1 hk
  unfold Dictionary.contains
  rw [h.instances k d' hd']
  rfl

/-- A request that has passed the checks of the template and then fails leaves the bare header of the
instance, with which it succeeds when it is repeated. -/
theorem instantiate_failed_of_new (hnew : NewInstance r template d args)
    (h : instantiate fuel template args r = .failed e r') :
    Grows r r' ∧ r'.find? (.ofInstance template args) = some (r.instanceHeader d template args) ∧
      r.instances.size < r'.instances.size ∧
      ∀ n, instantiate (n + 1) template args r' = .done (.ofInstance template args) r' := by
  cases fuel with
  | zero => cases h
  | succ fuel =>
    rw [instantiate_of_new hnew] at h
    have hwalk : Along Grows (mentionedAt fuel d args) := Along.mapM _ (grows_substitute fuel _)
    have hwalk := hwalk (r.insertInstance (r.instanceHeader d template args))
    cases hrun : mentionedAt fuel d args (r.insertInstance (r.instanceHeader d template args)) with
    | done ts s =>
      rw [hrun] at h
      cases h
    | failed e' s =>
      rw [hrun] at h hwalk
      cases h
      have hgrows := hwalk r' rfl
      obtain ⟨hheader, hid⟩ := find?_header hnew.unknown hgrows
      have hall : Grows r r' := IsTrans.trans _ _ _ (.insertInstance hnew.unknown) hgrows
      exact ⟨hall, hheader, hall.size_lt hnew.unknown hheader hid,
        fun n ↦ instantiate_of_known (contains_of_find? hheader)⟩
    | exhausted =>
      rw [hrun] at h
      cases h

theorem staticWrapper_failed (h : staticWrapper target r = .failed e r') :
    r' = r ∧ e = .typeNotFound target.render := by
  cases hc : r.contains (.ofStatic target) with
  | true =>
    rw [staticWrapper_of_known hc] at h
    cases h
  | false =>
    cases hn : r.name? target with
    | none =>
      rw [staticWrapper_of_unknown hc hn] at h
      cases h
      exact ⟨rfl, rfl⟩
    | some name =>
      rw [staticWrapper_of_new hc hn] at h
      cases h

/-- A static view that cannot be made changes nothing, and arrays can always be made of the built-in
template. An instance that cannot be made changes nothing exactly if the request is refused; that is
so whenever all type arguments are known. Otherwise its header stays behind, among whatever else was
made, and the same request succeeds from then on. -/
theorem failure_leaves (r : Registry) :
    (∀ target e r', staticWrapper target r = .failed e r' → r' = r ∧ e = .typeNotFound target.render) ∧
    (Relation.ReflTransGen (Step fun _ ↦ True) builtin r →
      ∀ fuel element e r', arrayOf fuel element r ≠ .failed e r') ∧
    ∀ fuel template args e r', instantiate fuel template args r = .failed e r' →
      (r' = r ↔ Refused r template args e) ∧
      (r' ≠ r → ∃ d, NewInstance r template d args ∧ Grows r r' ∧
        r'.find? (.ofInstance template args) = some (r.instanceHeader d template args) ∧
        r.instances.size < r'.instances.size ∧
        ∀ n, instantiate (n + 1) template args r' = .done (.ofInstance template args) r') ∧
      (Reachable TypeDecl.IsDeclaration r → r.ArgsKnown → (∀ a ∈ args, r.contains a = true) → r' = r) := by
  refine ⟨fun target e r' h ↦ staticWrapper_failed h, fun h fuel element e r' ↦
    arrayOf_ne_failed (keepsTypes_of_steps h) fuel element, ?_⟩
  intro fuel template args e r' h
  cases fuel with
  | zero => cases h
  | succ fuel =>
    rcases known_or_refused_or_new r template args with hc | ⟨e', hrefused⟩ | ⟨d, hnew⟩
    · rw [instantiate_of_known hc] at h
      cases h
    · have h' := h
      rw [instantiate_of_refused hrefused] at h'
      cases h'
      exact ⟨⟨fun _ ↦ hrefused, fun _ ↦ rfl⟩, fun hne ↦ absurd rfl hne, fun _ _ _ ↦ rfl⟩
    · obtain ⟨hgrows, hheader, hsize, hagain⟩ := instantiate_failed_of_new hnew h
      have hne : r' ≠ r := by
        intro heq
        rw [heq] at hsize
        exact absurd hsize (Nat.lt_irrefl _)
      refine ⟨⟨fun heq ↦ absurd heq hne, fun hrefused ↦ ?_⟩, fun _ ↦
        ⟨d, hnew, hgrows, hheader, hsize, hagain⟩, fun hreach hknown hargs ↦ ?_⟩
      · rw [instantiate_of_refused hrefused] at h
        cases h
        rfl
      · have hmeets := (meets_instantiate (fuel + 1)).2 template d args r ⟨hreach.instancesFit, hknown⟩
          hnew.found hnew.isTemplate hnew.arity hargs
        rw [h] at hmeets
        cases hmeets

/-- There is no static view of an unknown type, but there is a `Box` of it after the first failure. -/
theorem failure_leaves_box :
    Reachable TypeDecl.IsDeclaration boxTypes ∧ ∃ e r',
      instantiate 4 box [.ofName "Missing"] boxTypes = .failed e r' ∧ r' ≠ boxTypes ∧
      boxTypes.contains (.ofInstance box [.ofName "Missing"]) = false ∧
      boxTypes.instances.size < r'.instances.size ∧
      instantiate 4 box [.ofName "Missing"] r' = .done (.ofInstance box [.ofName "Missing"]) r' := by
  have hvalue : (instantiate 4 box [.ofName "Missing"] boxTypes).value? = none := by decide +kernel
  have hstate : (instantiate 4 box [.ofName "Missing"] boxTypes).state?.any
      (·.contains (.ofInstance box [.ofName "Missing"])) = true := by decide +kernel
  have hunknown : boxTypes.contains (.ofInstance box [.ofName "Missing"]) = false := by decide +kernel
  obtain ⟨r', hr', hcontains⟩ := (Option.any_eq_true _ _).1 hstate
  obtain ⟨e, hrun⟩ := Outcome.exists_failed hvalue hr'
  obtain ⟨-, -, hfailed⟩ := failure_leaves boxTypes
  obtain ⟨-, hleft, -⟩ := hfailed _ _ _ _ _ hrun
  have hne : r' ≠ boxTypes := by
    intro heq
    rw [heq, hunknown] at hcontains
    cases hcontains
  obtain ⟨d, -, -, -, hsize, hagain⟩ := hleft hne
  exact ⟨reachable_boxTypes, e, r', hrun, hne, hunknown, hsize, hagain 3⟩

end Registry

end CallResolution
