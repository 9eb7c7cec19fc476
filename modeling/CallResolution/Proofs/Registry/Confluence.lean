import CallResolution.Proofs.Registry.Failure
import CallResolution.Proofs.Registry.Steady

namespace CallResolution.Registry

open Attempt

variable {r₀ r r₁ r' C D : Registry} {m n fuel : Nat} {map : Substitution} {t v w template : TypeId}
  {ts vs ws args : List TypeId} {d e entry : TypeDecl}

/-- No handle stands for different instances or static views in the two registries. -/
def NoClash (C D : Registry) : Prop :=
  ∀ t d e, C.find? t = some d → D.find? t = some e →
    d.template = e.template ∧ d.typeArgs = e.typeArgs ∧ d.staticTarget = e.staticTarget

/-- `D` has come from `r₀`, all that was made for it is settled, and it does not clash with `C`. -/
structure Rival (r₀ C D : Registry) : Prop where
  grows : Grows r₀ D
  foresees : Foresees r₀ D
  settles : Settles r₀ D r₀ D
  noClash : NoClash C D

/-- What is known in `r'` looks in `D` as it does there, and what was made between `r` and `r'` is the
same in `D`. -/
structure Replays (D r r' : Registry) : Prop where
  leads : r'.Leads D
  agrees : Made (fun t e ↦ D.find? t = some e) r r'

theorem Replays.refl (h : r.Leads D) : Replays D r r := ⟨h, .refl _ r⟩

theorem Replays.trans (h : Replays D r r₁) (h' : Replays D r₁ r') (hgrows : Grows r₁ r') :
    Replays D r r' := ⟨h'.leads, h.agrees.trans h'.agrees hgrows⟩

/-- A handle that is new in `r` but known in `D` was made for `D`, as the same instance or view. -/
theorem Rival.exists_settled (h : Rival r₀ C D) (hr : Grows r₀ r) (ht : r.contains t = false)
    (hD : D.contains t = true) (hC : ∃ c, C.find? t = some c ∧ SameShape entry c) :
    ∃ e, D.find? t = some e ∧ Settled r₀ D t e ∧ entry.template = e.template ∧
      entry.typeArgs = e.typeArgs ∧ entry.staticTarget = e.staticTarget := by
  obtain ⟨e, he⟩ := exists_find?_of_contains hD
  obtain ⟨c, hc, hshape⟩ := hC
  obtain ⟨h₁, h₂, h₃⟩ := h.noClash t c e hc he
  have ht₀ : r₀.contains t = false := by
    cases ht₀ : r₀.contains t with
    | false => rfl
    | true =>
      rw [hr.contains ht₀] at ht
      cases ht
  exact ⟨e, he, h.settles t e ht₀ he, hshape.template.trans h₁, hshape.typeArgs.trans h₂,
    hshape.staticTarget.trans h₃⟩

theorem replays_staticWrapper (h : Rival r₀ C D) (hr : Stage r₀ r) (hrD : r.Leads D)
    (hrun : staticWrapper t r = .done v r') (hC : r'.Leads C) (hv : D.contains v = true) :
    Replays D r r' := by
  rw [staticWrapper_eq_done_iff] at hrun
  cases hrun with
  | known _ => exact .refl hrD
  | new hnew hn =>
    rename_i name
    have hfound : (r.insertInstance (wrapperDecl name t)).find? (.ofStatic t) = some (wrapperDecl name t) :=
      find?_insertInstance_self (d := wrapperDecl name t) hnew
    obtain ⟨e, he, hsettled, htemplate, -, hstatic⟩ := h.exists_settled hr.grows hnew hv (hC _ _ hfound)
    have hfindD : D.find? (.ofStatic t) = some (wrapperDecl name t) := by
      rw [he]
      -- handles are hashes, so that `D` has a view of `t` follows from its shape only
      generalize TypeId.ofStatic t = u at hsettled
      cases hsettled with
      | wrapper hname =>
        rename_i target name'
        cases hstatic
        obtain ⟨d, hd, rfl⟩ := Option.map_eq_some_iff.1 hn
        obtain ⟨e, he, hshape⟩ := hrD t d hd
        rw [name?, he, Option.map_some, ← hshape.name] at hname
        cases hname
        rfl
      | made hd ht hrun =>
        rw [(completes_filled _ hrun).template] at htemplate
        cases htemplate
    exact ⟨hrD.insertInstance ⟨_, hfindD, .refl _⟩, made_insertInstance hfindD⟩

theorem replays_mapM (hs : ∀ t ∈ ts, ∀ v w r r', Stage r₀ r → r.Leads D → Timely r D map →
      substitute m map t r = .done v r' → r'.Leads C → substitute n map t D = .done w D →
      v = w ∧ Foreseen r' D v ∧ Replays D r r') (hr : Stage r₀ r) (hrD : r.Leads D)
    (hmap : Timely r D map) (hrun : ts.mapM (substitute m map) r = .done vs r') (hC : r'.Leads C)
    (hD : ts.mapM (substitute n map) D = .done ws D) :
    vs = ws ∧ (∀ v ∈ vs, Foreseen r' D v) ∧ Replays D r r' := by
  induction ts generalizing r vs ws with
  | nil =>
    cases hrun
    cases hD
    exact ⟨rfl, by simp, .refl hrD⟩
  | cons t ts ih =>
    obtain ⟨hs, hss⟩ := List.forall_mem_cons.1 hs
    obtain ⟨v, r₁, vs, hv, hvs, rfl⟩ := mapM_cons_eq_done_iff.1 hrun
    obtain ⟨w, D₁, ws, hw, hws, rfl⟩ := mapM_cons_eq_done_iff.1 hD
    have hsame : D₁ = D := Gains.antisymm (((along_instantiate changes_gains n).1 map t).of_done hw)
      ((gains_mapM n map ts).of_done hws)
    rw [hsame] at hw hws
    have hgrows : Grows r r₁ := (grows_substitute _ _ _).of_done hv
    have hgrows₁ : Grows r₁ r' := (Along.mapM _ (grows_substitute _ _)).of_done hvs
    obtain ⟨rfl, hv₁, hreplays⟩ := hs v w r r₁ hr hrD hmap hv (hgrows₁.leads.trans hC) hw
    obtain ⟨rfl, hvs₁, hreplays₁⟩ := ih hss (hr.substitute hv) hreplays.leads (hmap.grows hgrows) hvs hws
    exact ⟨rfl, List.forall_mem_cons.2 ⟨hv₁.grows hgrows₁, hvs₁⟩, hreplays.trans hreplays₁ hgrows₁⟩

/-- What makes the replay of a substitution to depth `m` possible. -/
def SubstituteReplays (r₀ C D : Registry) (m : Nat) : Prop :=
  ∀ n map t v w r r', Stage r₀ r → r.Leads D → Timely r D map → Foreseen r₀ D t →
    substitute m map t r = .done v r' → r'.Leads C → substitute n map t D = .done w D →
    v = w ∧ Foreseen r' D v ∧ Replays D r r'

def InstantiateReplays (r₀ C D : Registry) (m : Nat) : Prop :=
  ∀ template args v r r', Stage r₀ r → r.Leads D → (∀ a ∈ args, Foreseen r D a) →
    instantiate m template args r = .done v r' → r'.Leads C →
    D.contains (.ofInstance template args) = true → Replays D r r'

theorem substituteReplays_succ (h : Rival r₀ C D) (hs : SubstituteReplays r₀ C D m)
    (hi : InstantiateReplays r₀ C D m) : SubstituteReplays r₀ C D (m + 1) := by
  intro n map t v w r r' hr hrD hmap ht hrun hC hD
  have hgrows : Grows r r' := (grows_substitute _ _ _).of_done hrun
  obtain ⟨hstatic, htemplate, hargs⟩ := ht.looksAlike h.grows hr.grows hrD
  have hpart : ∀ {u}, r.HasPart t u → Foreseen r₀ D u :=
    fun hp ↦ h.foresees.parts (ht.hasPart hr.grows hrD hp)
  have ht' : Foreseen r' D t := ht.grows (IsTrans.trans _ _ _ hr.grows hgrows)
  cases n with
  | zero => cases hD
  | succ n =>
    have hmapM : ∀ {us r₁ xs}, (r.typeArgs t).mapM (substitute m map) r = .done us r₁ → r₁.Leads C →
        (r.typeArgs t).mapM (substitute n map) D = .done xs D →
        us = xs ∧ (∀ u ∈ us, Foreseen r₁ D u) ∧ Replays D r r₁ := by
      intro us r₁ xs hus hr₁ hxs
      refine replays_mapM ?_ hr hrD hmap hus hr₁ hxs
      intro a ha v w r₂ r₃ hr₂ hr₂D hmap₂ hv hr₃ hw
      exact hs n map a v w r₂ r₃ hr₂ hr₂D hmap₂ (hpart (.inr ha)) hv hr₃ hw
    rw [substitute_eq_done_iff] at hrun
    cases hrun with
    | bound hb =>
      rw [substitute_of_bound hb] at hD
      cases hD
      exact ⟨rfl, hmap t v hb, .refl hrD⟩
    | plain hb hst htm =>
      rw [substitute_of_plain hb (hstatic.trans hst) (htemplate.trans htm)] at hD
      cases hD
      exact ⟨rfl, ht', .refl hrD⟩
    | sameTarget hb hst hsub =>
      obtain ⟨x, hx, hw⟩ := steady_of_static hb (hstatic.trans hst) hD
      obtain ⟨rfl, -, hreplays⟩ := hs n map _ _ x r r' hr hrD hmap (hpart (.inl hst)) hsub hC hx
      rcases hw with ⟨-, rfl⟩ | ⟨hne, -⟩
      · exact ⟨rfl, ht', hreplays⟩
      · exact absurd rfl hne
    | newTarget hb hst hsub hne hwrap =>
      have hgrows₁ := (grows_staticWrapper _).of_done hwrap
      obtain ⟨x, hx, hw⟩ := steady_of_static hb (hstatic.trans hst) hD
      obtain ⟨rfl, -, hreplays⟩ := hs n map _ _ x r _ hr hrD hmap (hpart (.inl hst)) hsub
        (hgrows₁.leads.trans hC) hx
      rcases hw with ⟨hsame, -⟩ | ⟨-, hw⟩
      · exact absurd hsame hne
      · obtain ⟨rfl, hv⟩ := contains_of_staticWrapper hwrap
        obtain ⟨rfl, hwD⟩ := contains_of_staticWrapper hw
        have hwrapped := replays_staticWrapper h (hr.substitute hsub) hreplays.leads hwrap hC hwD
        exact ⟨rfl, .inl hv, hreplays.trans hwrapped hgrows₁⟩
    | sameArgs hb hst htm hsub =>
      obtain ⟨xs, hxs, hw⟩ := steady_of_instance hb (hstatic.trans hst) (htemplate.trans htm) hD
      rw [hargs] at hxs hw
      obtain ⟨rfl, -, hreplays⟩ := hmapM hsub hC hxs
      rcases hw with ⟨-, rfl⟩ | ⟨hne, -⟩
      · exact ⟨rfl, ht', hreplays⟩
      · exact absurd rfl hne
    | newArgs hb hst htm hsub hne hmake =>
      have hgrows₁ := (grows_instantiate _ _ _).of_done hmake
      obtain ⟨xs, hxs, hw⟩ := steady_of_instance hb (hstatic.trans hst) (htemplate.trans htm) hD
      rw [hargs] at hxs hw
      obtain ⟨rfl, hvs, hreplays⟩ := hmapM hsub (hgrows₁.leads.trans hC) hxs
      rcases hw with ⟨hsame, -⟩ | ⟨-, hw⟩
      · exact absurd hsame hne
      · obtain ⟨rfl, hv⟩ := contains_of_instantiate hmake
        obtain ⟨rfl, hwD⟩ := contains_of_instantiate hw
        have hmade := hi _ _ _ _ r' (hr.mapM hsub) hreplays.leads hvs hmake hC hwD
        exact ⟨rfl, .inl hv, hreplays.trans hmade hgrows₁⟩

/-- An instance that is made for `r` has been made from the same header for `D`. -/
theorem Rival.exists_mentionedAt (h : Rival r₀ C D) (hr : Stage r₀ r) (hrD : r.Leads D)
    (hargs : ∀ a ∈ args, Foreseen r D a) (hnew : NewInstance r template d args)
    (hD : D.contains (.ofInstance template args) = true)
    (hc : Completes (r.instanceHeader d template args) entry)
    (hC : ∃ c, C.find? (.ofInstance template args) = some c ∧ SameShape entry c) :
    ∃ n ts, mentionedAt n d args D = .done ts D ∧ D.find? (.ofInstance template args) =
      some (filled (r.instanceHeader d template args) d ts) := by
  obtain ⟨e, he, hsettled, htemplate, htypeArgs, -⟩ := h.exists_settled hr.grows hnew.unknown hD hC
  rw [hc.template] at htemplate
  rw [hc.typeArgs] at htypeArgs
  rw [he]
  generalize TypeId.ofInstance template args = u at hsettled
  cases hsettled with
  | wrapper hname => cases htemplate
  | made hd ht hrun =>
    rename_i template' d' args' ts n
    rw [(completes_filled _ hrun).template] at htemplate
    rw [(completes_filled _ hrun).typeArgs] at htypeArgs
    cases htemplate
    obtain rfl : args = args' := htypeArgs
    rw [hr.templates template d hnew.found hnew.isTemplate] at hd
    cases hd
    exact ⟨n, ts, hrun, by rw [instanceHeader_eq hargs hrD]⟩

theorem instantiateReplays_succ (h : Rival r₀ C D) (hs : SubstituteReplays r₀ C D m) :
    InstantiateReplays r₀ C D (m + 1) := by
  intro template args v r r' hr hrD hargs hrun hC hD
  rw [instantiate_eq_done_iff] at hrun
  cases hrun with
  | known _ => exact .refl hrD
  | new hnew hwalk =>
    rename_i d ts r₁
    have hheader : Grows r (r.insertInstance (r.instanceHeader d template args)) :=
      .insertInstance hnew.unknown
    have hgrows : Grows (r.insertInstance (r.instanceHeader d template args)) r₁ :=
      (Along.mapM _ (grows_substitute m _)).of_done hwalk
    have hc := completes_filled (r.instanceHeader d template args) hwalk
    have hfound := (find?_complete hnew.unknown hgrows hc.id (.ofInstance template args)).trans (if_pos rfl)
    obtain ⟨n, ts', hwalkD, hfindD⟩ := h.exists_mentionedAt hr hrD hargs hnew hD hc (hC _ _ hfound)
    have hrD' : (r.insertInstance (r.instanceHeader d template args)).Leads D :=
      hrD.insertInstance ⟨_, hfindD, sameShape_filled rfl hwalkD⟩
    have hC₁ : r₁.Leads C :=
      (leads_complete hnew.unknown hgrows hc.id (sameShape_filled rfl hwalk)).trans hC
    have hmentioned := h.foresees.mentioned (hr.templates template d hnew.found hnew.isTemplate)
      hnew.isTemplate
    obtain ⟨rfl, -, hreplays⟩ := replays_mapM (fun t ht v w r r' hr hrD hmap hv hC hw ↦
        hs n _ t v w r r' hr hrD hmap (hmentioned t ht) hv hC hw) (hr.enter hnew) hrD'
      (timely_zip fun a ha ↦ (hargs a ha).grows hheader) hwalk hC₁ hwalkD
    refine ⟨hreplays.leads.insertInstance ⟨_, ?_, .refl _⟩,
      hreplays.agrees.complete hnew.unknown hgrows hc.id hfindD⟩
    rw [hc.id]
    exact hfindD

/-- A run that asks for nothing that `D` does not have makes nothing that `D` does not have. -/
theorem run_replays (h : Rival r₀ C D) (m : Nat) :
    SubstituteReplays r₀ C D m ∧ InstantiateReplays r₀ C D m := by
  induction m with
  | zero =>
    refine ⟨?_, ?_⟩
    · intro n map t v w r r' _ _ _ _ hrun
      cases hrun
    · intro template args v r r' _ _ _ hrun
      cases hrun
  | succ m ih => exact ⟨substituteReplays_succ h ih.1 ih.2, instantiateReplays_succ h ih.1⟩

theorem NoClash.symm (h : NoClash C D) : NoClash D C := by
  intro t d e hd he
  obtain ⟨h₁, h₂, h₃⟩ := h t e d he hd
  exact ⟨h₁.symm, h₂.symm, h₃.symm⟩

section Orders

variable {template₁ template₂ t₁ t₂ u₁ u₂ : TypeId} {args₁ args₂ : List TypeId} {r₂ r₁₂ r₂₁ : Registry}
  {k l : Nat}

/-- What one order of two instantiations makes, the other makes too. -/
theorem find?_of_orders (h₁ : instantiate k template₁ args₁ r = .done t₁ r₁)
    (h₁₂ : instantiate l template₂ args₂ r₁ = .done t₂ r₁₂)
    (h₂ : instantiate m template₂ args₂ r = .done u₂ r₂)
    (h₂₁ : instantiate n template₁ args₁ r₂ = .done u₁ r₂₁)
    (hargs₁ : ∀ a ∈ args₁, Foreseen r r₂₁ a) (hargs₂ : ∀ a ∈ args₂, Foreseen r r₂₁ a)
    (hf : r.Foresees r₂₁) (hclash : NoClash r₁₂ r₂₁) (he : r₁₂.find? t = some e) :
    r₂₁.find? t = some e := by
  have hgrows₁ : Grows r r₁ := (grows_instantiate _ _ _).of_done h₁
  have hgrows₁₂ : Grows r₁ r₁₂ := (grows_instantiate _ _ _).of_done h₁₂
  have hgrows₂ : Grows r r₂ := (grows_instantiate _ _ _).of_done h₂
  have hgrows₂₁ : Grows r₂ r₂₁ := (grows_instantiate _ _ _).of_done h₂₁
  have hgrows : Grows r r₂₁ := IsTrans.trans _ _ _ hgrows₂ hgrows₂₁
  have hstage₁ := (Stage.refl r).instantiate h₁
  have hstage₂ := (Stage.refl r).instantiate h₂
  have hsettles₂ : Settles r r₂₁ r r₂ :=
    (settles_run hgrows hf m).2 _ _ _ _ _ (.refl r) hargs₂ h₂ hgrows₂₁.leads
  have hsettles₂₁ : Settles r r₂₁ r₂ r₂₁ :=
    (settles_run hgrows hf n).2 _ _ _ _ _ hstage₂ (fun a ha ↦ (hargs₁ a ha).grows hgrows₂) h₂₁ (.refl r₂₁)
  -- the first order can be replayed in the end state of the second, where all is settled
  have hrival : Rival r r₁₂ r₂₁ := ⟨hgrows, hf, hsettles₂.trans hsettles₂₁ hgrows₂₁, hclash⟩
  have hknown₁ : r₂₁.contains (.ofInstance template₁ args₁) = true := by
    obtain ⟨rfl, h⟩ := contains_of_instantiate h₂₁
    exact h
  have hknown₂ : r₂₁.contains (.ofInstance template₂ args₂) = true := by
    obtain ⟨rfl, h⟩ := contains_of_instantiate h₂
    exact hgrows₂₁.contains h
  have hreplays₁ : Replays r₂₁ r r₁ :=
    (run_replays hrival k).2 _ _ _ _ _ (.refl r) hgrows.leads hargs₁ h₁ hgrows₁₂.leads hknown₁
  have hreplays₁₂ : Replays r₂₁ r₁ r₁₂ :=
    (run_replays hrival l).2 _ _ _ _ _ hstage₁ hreplays₁.leads
      (fun a ha ↦ (hargs₂ a ha).grows hgrows₁) h₁₂ (.refl r₁₂) hknown₂
  cases ht : r.contains t with
  | false => exact (hreplays₁.trans hreplays₁₂ hgrows₁₂).agrees t e ht he
  | true =>
    obtain ⟨d, hd⟩ := exists_find?_of_contains ht
    rw [hgrows₁₂.find? (hgrows₁.find? hd)] at he
    rw [hgrows.find? hd, he]

/-- The order of two instantiations does not matter, provided that all types are foreseen that come into
play and that no handles clash. -/
theorem instantiate_comm (h₁ : instantiate k template₁ args₁ r = .done t₁ r₁)
    (h₁₂ : instantiate l template₂ args₂ r₁ = .done t₂ r₁₂)
    (h₂ : instantiate m template₂ args₂ r = .done u₂ r₂)
    (h₂₁ : instantiate n template₁ args₁ r₂ = .done u₁ r₂₁)
    (hargs : ∀ a ∈ args₁ ++ args₂, Foreseen r r₁₂ a ∧ Foreseen r r₂₁ a)
    (hf₁₂ : r.Foresees r₁₂) (hf₂₁ : r.Foresees r₂₁) (hclash : NoClash r₁₂ r₂₁) :
    t₁ = u₁ ∧ t₂ = u₂ ∧ ∀ t, r₁₂.find? t = r₂₁.find? t := by
  obtain ⟨hargs₁, hargs₂⟩ := List.forall_mem_append.1 hargs
  refine ⟨?_, ?_, fun t ↦ ?_⟩
  · rw [(contains_of_instantiate h₁).1, (contains_of_instantiate h₂₁).1]
  · rw [(contains_of_instantiate h₁₂).1, (contains_of_instantiate h₂).1]
  · ext e
    constructor
    · exact find?_of_orders h₁ h₁₂ h₂ h₂₁ (fun a ha ↦ (hargs₁ a ha).2) (fun a ha ↦ (hargs₂ a ha).2) hf₂₁
        hclash
    · exact find?_of_orders h₂ h₂₁ h₁ h₁₂ (fun a ha ↦ (hargs₂ a ha).1) (fun a ha ↦ (hargs₁ a ha).1) hf₁₂
        hclash.symm

end Orders

instance : Decidable (Foreseen r D t) := inferInstanceAs (Decidable (_ ∨ _))

theorem foresees_of_entries (h : ∀ p ∈ r.types.entries ++ r.instances.entries,
    ∀ t ∈ p.2.mentioned ++ p.2.typeArgs ++ p.2.staticTarget.toList, Foreseen r D t) : r.Foresees D := by
  constructor
  · intro template d hd _ t ht
    refine h _ (mem_entries_of_find? hd) t ?_
    exact List.mem_append_left _ (List.mem_append_left _ ht)
  · intro t u hp
    unfold HasPart staticTarget? typeArgs at hp
    cases hd : r.find? t with
    | none => simp [hd] at hp
    | some d =>
      refine h _ (mem_entries_of_find? hd) u ?_
      rcases hp with hp | hp
      · simp_all
      · simp_all

theorem noClash_of_entries (h : ∀ p ∈ C.types.entries ++ C.instances.entries,
    (D.find? p.1).all (fun e ↦ p.2.template == e.template && p.2.typeArgs == e.typeArgs &&
      p.2.staticTarget == e.staticTarget) = true) : NoClash C D := by
  intro t d e hd he
  have hcheck := h _ (mem_entries_of_find? hd)
  rw [he] at hcheck
  simpa [and_assoc] using hcheck

def listTemplate : TypeId := .ofName "List"
def shelf : TypeId := .ofName "Shelf"
def book : TypeId := .ofParam "Shelf" "U"

/-- A shelf holds a list of books. If the list is `foreseen`, it is known before the shelf. -/
def makeShelf (foreseen : Bool) : Attempt Registry RegistrationError TypeId := do
  let item ← registerParam "T" { owner := "List", index := 0 }
  let _ ← register
    { name := "List", id := listTemplate, kind := .classType, typeParams := [item],
      methods := [.onInstance listTemplate "add" [⟨"item", item⟩] .void] }
  let _ ← registerParam "U" { owner := "Shelf", index := 0 }
  if foreseen then
    let _ ← instantiate 3 listTemplate [book]
  register
    { name := "Shelf", id := shelf, kind := .classType, typeParams := [book],
      fields := [{ name := "items", owner := shelf, type := .ofInstance listTemplate [book] }] }

def shelfTypes (foreseen : Bool) : Registry := (makeShelf foreseen builtin).state?.getD {}

/-- What an instantiation to depth `n` leaves of the registry. -/
def instantiated (r : Registry) (n : Nat) (template : TypeId) (args : List TypeId) : Registry :=
  (instantiate n template args r).state?.getD {}

theorem instantiate_eq_done (h : (instantiate n template args r).value? = some t) :
    instantiate n template args r = .done t (r.instantiated n template args) := Outcome.eq_done h {}

def shelfThenList : Registry :=
  ((shelfTypes true).instantiated 5 shelf [.int]).instantiated 5 listTemplate [.int]

def listThenShelf : Registry :=
  ((shelfTypes true).instantiated 5 listTemplate [.int]).instantiated 5 shelf [.int]

theorem instantiate_comm_shelf :
    (shelfTypes true).contains (.ofInstance listTemplate [.int]) = false ∧
      ((shelfTypes true).instantiated 5 shelf [.int]).contains (.ofInstance listTemplate [.int]) = true ∧
      (shelfTypes true).Foresees shelfThenList ∧ NoClash shelfThenList listThenShelf ∧
      ∀ t, shelfThenList.find? t = listThenShelf.find? t := by
  have hf : (shelfTypes true).Foresees shelfThenList := foresees_of_entries (by decide +kernel)
  have hclash : NoClash shelfThenList listThenShelf := noClash_of_entries (by decide +kernel)
  obtain ⟨-, -, hfind⟩ := instantiate_comm
    (instantiate_eq_done (r := shelfTypes true) (t := .ofInstance shelf [.int]) (by decide +kernel))
    (instantiate_eq_done (t := .ofInstance listTemplate [.int]) (by decide +kernel))
    (instantiate_eq_done (t := .ofInstance listTemplate [.int]) (by decide +kernel))
    (instantiate_eq_done (t := .ofInstance shelf [.int]) (by decide +kernel))
    (by decide +kernel) hf (foresees_of_entries (by decide +kernel)) hclash
  exact ⟨by decide +kernel, by decide +kernel, hf, hclash, hfind⟩

theorem reachable_shelfTypes : Reachable TypeDecl.IsDeclaration (shelfTypes false) := by
  refine reachable_getD ((keeps_registerParam _ _).bind fun _ ↦ (keeps_register ⟨rfl, rfl⟩).bind fun _ ↦ ?_)
  exact (keeps_registerParam _ _).bind fun _ ↦ keeps_register ⟨rfl, rfl⟩

/-- A template whose instance at `string` has the handle of the array of integers. -/
def twin : TypeId := ⟨0xa00e3ccfaa6b86ab⟩

def makeTwin : Attempt Registry RegistrationError TypeId := do
  let item ← registerParam "T" { owner := "Twin", index := 0 }
  register { name := "Twin", id := twin, kind := .classType, typeParams := [item] }

def twinTypes : Registry := (makeTwin builtin).state?.getD {}

theorem reachable_twinTypes : Reachable TypeDecl.IsDeclaration twinTypes :=
  reachable_getD ((keeps_registerParam _ _).bind fun _ ↦ keeps_register ⟨rfl, rfl⟩)

/-- Both orders succeed, but leave different declarations of `t`. -/
def OrderMatters (r : Registry) (template₁ : TypeId) (args₁ : List TypeId) (template₂ : TypeId)
    (args₂ : List TypeId) (t : TypeId) : Prop :=
  ∃ r₁ r₁₂ r₂ r₂₁, instantiate 5 template₁ args₁ r = .done (.ofInstance template₁ args₁) r₁ ∧
    instantiate 5 template₂ args₂ r₁ = .done (.ofInstance template₂ args₂) r₁₂ ∧
    instantiate 5 template₂ args₂ r = .done (.ofInstance template₂ args₂) r₂ ∧
    instantiate 5 template₁ args₁ r₂ = .done (.ofInstance template₁ args₁) r₂₁ ∧
    r₁₂.find? t ≠ r₂₁.find? t

/-- A shelf of integers holds a list of books if that list becomes known only after it, and of two
instances with the same handle only the first is made. -/
theorem instantiate_order_matters :
    (Reachable TypeDecl.IsDeclaration (shelfTypes false) ∧
      (shelfTypes false).OrderMatters shelf [.int] listTemplate [book] (.ofInstance shelf [.int])) ∧
    Reachable TypeDecl.IsDeclaration twinTypes ∧
      twinTypes.OrderMatters .array [.int] twin [.string] (.ofInstance .array [.int]) := by
  refine ⟨⟨reachable_shelfTypes, _, _, _, _, instantiate_eq_done ?_, instantiate_eq_done ?_,
    instantiate_eq_done ?_, instantiate_eq_done ?_, ?_⟩, reachable_twinTypes, _, _, _, _,
    instantiate_eq_done ?_, instantiate_eq_done ?_, instantiate_eq_done ?_, instantiate_eq_done ?_, ?_⟩
  all_goals decide +kernel

end CallResolution.Registry
