import CallResolution.Proofs.Registry.Confluence

namespace CallResolution

open Attempt

/-- The substitution by `m₁` followed by that by `m₂`. -/
def Substitution.compose (fuel : Nat) (m₁ m₂ : Substitution) :
    Attempt Registry RegistrationError Substitution := do
  let bounds ← (m₁.entries.map Prod.snd).mapM (Registry.substitute fuel m₂)
  return (m₁.keys.zip bounds).foldl (fun m p ↦ m.insert p.1 p.2) m₂

namespace Dictionary

variable {κ α β : Type} [DecidableEq κ] {R : α → β → Prop} {es : List (κ × α)} {bs : List β} {k : κ} {a : α}

theorem get_of_mem (hnodup : (es.map Prod.fst).Nodup) (h : (k, a) ∈ es) : get k es = some a := by
  induction es with
  | nil => cases h
  | cons e es ih =>
    obtain ⟨hl, hnodup⟩ := List.nodup_cons.1 hnodup
    rcases List.mem_cons.1 h with rfl | h
    · exact if_pos rfl
    · have hne : e.1 ≠ k := fun he ↦ hl (he ▸ List.mem_map_of_mem h)
      exact (if_neg hne).trans (ih hnodup h)

theorem find?_foldl_insert (hnodup : (es.map Prod.fst).Nodup) (h : List.Forall₂ R (es.map Prod.snd) bs)
    (d : Dictionary κ β) :
    (get k es = none →
      (((es.map Prod.fst).zip bs).foldl (fun d p ↦ d.insert p.1 p.2) d).find? k = d.find? k) ∧
    ∀ a, get k es = some a → ∃ b,
      (((es.map Prod.fst).zip bs).foldl (fun d p ↦ d.insert p.1 p.2) d).find? k = some b ∧ R a b := by
  induction es generalizing bs d with
  | nil => exact ⟨fun _ ↦ rfl, fun _ h ↦ by cases h⟩
  | cons e es ih =>
    obtain ⟨l, a'⟩ := e
    obtain ⟨hl, hnodup⟩ := List.nodup_cons.1 hnodup
    cases h with
    | cons ha h =>
      rename_i b' bs
      obtain ⟨hnone, hsome⟩ := ih hnodup h (d.insert l b')
      simp only [List.map_cons, List.zip_cons_cons, List.foldl_cons, get]
      by_cases hlk : l = k
      · subst hlk
        have hget : get l es = none :=
          Option.not_isSome_iff_eq_none.1 (mt (mem_keys_iff ⟨es, hnodup⟩ l).2 hl)
        rw [if_pos rfl, hnone hget, find?_insert_self]
        refine ⟨fun h ↦ absurd h (Option.some_ne_none _), fun a h ↦ ?_⟩
        cases h
        exact ⟨b', rfl, ha⟩
      · rw [if_neg hlk]
        refine ⟨fun h ↦ ?_, hsome⟩
        rw [hnone h, find?_insert_of_ne _ _ (Ne.symm hlk)]

end Dictionary

/-- Neither an instance nor a static view: those are left to the registry. -/
structure TypeDecl.IsProper (d : TypeDecl) : Prop extends d.IsDeclaration where
  staticTarget : d.staticTarget = none

namespace Registry

variable {r r' E r₁ r₂ r₃ : Registry} {m m₁ m₂ map : Substitution} {t t₁ t₂ v w x template : TypeId}
  {args ws : List TypeId} {d entry : TypeDecl}

/-- The handle `t` under which `d` is known says what `d` is. -/
structure NamedBy (t : TypeId) (d : TypeDecl) : Prop where
  view : ∀ x, d.staticTarget = some x → t = .ofStatic x ∧ d.template = none ∧ d.typeArgs = []
  inst : ∀ template, d.template = some template → t = .ofInstance template d.typeArgs
  template : d.isTemplate = true → d.staticTarget = none

def Named (r : Registry) : Prop := ∀ t d, r.find? t = some d → NamedBy t d

theorem namedBy_of_none (hs : d.staticTarget = none) (ht : d.template = none) : NamedBy t d where
  view x h := by rw [hs] at h; cases h
  inst template h := by rw [ht] at h; cases h
  template _ := hs

theorem Named.insertInstance (hr : r.Named) (hd : NamedBy entry.id entry) : (r.insertInstance entry).Named := by
  intro t d h
  rcases find?_insertInstance_cases h with ⟨rfl, rfl⟩ | h
  · exact hd
  · exact hr t d h

theorem Named.insert (hr : r.Named) (hd : NamedBy d.id d)
    (hfind : ∀ t, r'.find? t = if t = d.id then some d else r.find? t) : r'.Named := by
  intro t e he
  rw [hfind] at he
  split at he
  · rename_i ht
    cases he
    exact ht ▸ hd
  · exact hr t e he

/-- An instance has the kind of its template, which is no view. -/
theorem namedBy_instance (hid : entry.id = .ofInstance template entry.typeArgs)
    (ht : entry.template = some template) (hs : entry.staticTarget = none) : NamedBy entry.id entry where
  view x h := by rw [hs] at h; cases h
  inst u h := by
    rw [ht] at h
    cases h
    exact hid
  template _ := hs

theorem inductive_named : Inductive Named where
  wrapper r target name hr _ _ := hr.insertInstance
    { view := fun x h ↦ by cases h; exact ⟨rfl, rfl, rfl⟩
      inst := fun _ h ↦ by cases h
      template := fun h ↦ by cases h }
  header r template d args hr hnew :=
    hr.insertInstance (namedBy_instance rfl rfl ((hr template d hnew.found).template hnew.isTemplate))
  complete r template d args fuel entry r' hr hnew hr' hrun := by
    have hc := completes_of_instanceDecl hrun
    refine hr'.insertInstance (namedBy_instance ?_ hc.template ?_)
    · rw [hc.id, hc.typeArgs]
      rfl
    · rw [staticTarget_of_instanceDecl hrun]
      exact (hr template d hnew.found).template hnew.isTemplate

theorem named_builtin : builtin.Named := by
  have hall : ∀ e ∈ builtin.types.entries ++ builtin.instances.entries,
      e.2.staticTarget = none ∧ e.2.template = none := by decide +kernel
  intro t d hd
  obtain ⟨hs, ht⟩ := hall _ (mem_entries_of_find? hd)
  exact namedBy_of_none hs ht

theorem Reachable.named (h : Reachable TypeDecl.IsProper r) : r.Named := by
  refine h.invariant inductive_named (by rintro _ _ ⟨⟩) named_builtin ?_ ?_ fun _ _ hr ↦ hr
  · intro r d hr hd _ _
    obtain ⟨base, hbase⟩ := withImplicitBase_eq d
    rw [hbase]
    exact hr.insert (d := { d with base := base }) (namedBy_of_none hd.staticTarget hd.template)
      (find?_insert r _)
  · intro r name info hr _
    exact hr.insert (namedBy_of_none rfl rfl) (find?_insertParam r _)

namespace Named

variable (hr : r.Named)

include hr

theorem of_static (hs : r.staticTarget? t = some x) :
    t = .ofStatic x ∧ r.template? t = none ∧ r.typeArgs t = [] := by
  obtain ⟨d, hd, hs⟩ := Option.bind_eq_some_iff.1 hs
  obtain ⟨ht, htemplate, hargs⟩ := (hr t d hd).view x hs
  unfold template? typeArgs
  rw [hd]
  exact ⟨ht, htemplate, hargs⟩

theorem of_template (ht : r.template? t = some template) :
    t = .ofInstance template (r.typeArgs t) ∧ r.HasInstance template (r.typeArgs t) := by
  have heq : t = .ofInstance template (r.typeArgs t) := by
    obtain ⟨d, hd, ht⟩ := Option.bind_eq_some_iff.1 ht
    unfold typeArgs
    rw [hd]
    exact (hr t d hd).inst template ht
  have hs : r.staticTarget? t = none := by
    cases hs : r.staticTarget? t with
    | none => rfl
    | some x =>
      rw [(hr.of_static hs).2.1] at ht
      cases ht
  refine ⟨heq, ?_⟩
  constructor
  · rw [← heq, hs]
  · rw [← heq]
  · rw [← heq, ht]

end Named

theorem replaced_ofStatic_iff (hs : r.HasView x) :
    r.Replaced (w ≠ x) (.ofStatic x) (.ofStatic w) v ↔ v = .ofStatic w ∧ r.contains v = true :=
  replaced_iff (contains_of_staticTarget? hs) fun h ↦ congrArg TypeId.ofStatic (not_not.1 h)

theorem replaced_ofInstance_iff (hi : r.HasInstance template args) :
    r.Replaced (ws ≠ args) (.ofInstance template args) (.ofInstance template ws) v ↔
      v = .ofInstance template ws ∧ r.contains v = true :=
  replaced_iff (contains_of_template? hi.template) fun h ↦ congrArg (TypeId.ofInstance template) (not_not.1 h)

theorem becomes_ofStatic_iff (hmap : map.find? (.ofStatic x) = none) (hs : r.HasView x) :
    r.Becomes map (.ofStatic x) v ↔ ∃ w, r.Becomes map x w ∧ v = .ofStatic w ∧ r.contains v = true := by
  simp only [becomes_view_iff hmap hs, replaced_ofStatic_iff hs]

theorem becomes_ofInstance_iff (hmap : map.find? (.ofInstance template args) = none)
    (hi : r.HasInstance template args) : r.Becomes map (.ofInstance template args) v ↔
      ∃ ws, List.Forall₂ (r.Becomes map) args ws ∧ v = .ofInstance template ws ∧ r.contains v = true := by
  simp only [becomes_instance_iff hmap hi.static hi.template, hi.typeArgs, replaced_ofInstance_iff hi]

/-- In a registry in which handles say what they stand for, they can be followed like terms. -/
@[elab_as_elim]
theorem Named.becomes_induction (hr : r.Named) {P : TypeId → TypeId → Prop}
    (bound : ∀ t v, map.find? t = some v → P t v)
    (plain : ∀ t, map.find? t = none → r.staticTarget? t = none → r.template? t = none → P t t)
    (view : ∀ x w, map.find? (.ofStatic x) = none → r.HasView x → r.Becomes map x w → P x w →
      r.contains (.ofStatic w) = true → P (.ofStatic x) (.ofStatic w))
    (inst : ∀ template args ws, map.find? (.ofInstance template args) = none → r.HasInstance template args →
      List.Forall₂ (r.Becomes map) args ws → List.Forall₂ P args ws →
      r.contains (.ofInstance template ws) = true → P (.ofInstance template args) (.ofInstance template ws))
    (h : r.Becomes map t v) : P t v := by
  refine Becomes.induction bound plain ?_ ?_ h
  · intro t x w v hmap hs hw hP hv
    obtain ⟨rfl, -, -⟩ := hr.of_static hs
    obtain ⟨rfl, hknown⟩ := (replaced_ofStatic_iff hs).1 hv
    exact view x w hmap hs hw hP hknown
  · intro t template ws v hmap hs ht hws hP hv
    obtain ⟨heq, hi⟩ := hr.of_template ht
    generalize r.typeArgs t = args at heq hi hws hP hv
    subst heq
    obtain ⟨rfl, hknown⟩ := (replaced_ofInstance_iff hi).1 hv
    exact inst template args ws hmap hi hws hP hknown

theorem mem_of_forall₂ {α β : Type} {R : α → β → Prop} {xs : List α} {ys : List β} (h : List.Forall₂ R xs ys)
    {y : β} (hy : y ∈ ys) : ∃ x ∈ xs, R x y := by
  induction h with
  | nil => cases hy
  | cons hxy _ ih =>
    rcases List.mem_cons.1 hy with rfl | hy
    · exact ⟨_, List.mem_cons_self, hxy⟩
    · obtain ⟨x, hx, hR⟩ := ih hy
      exact ⟨x, List.mem_cons_of_mem _ hx, hR⟩

/-- What becomes of a type that is known with all that it consists of is known in the same way. -/
theorem Whole.of_becomes (hr : r.Named) (hmap : ∀ k b, map.find? k = some b → r.Whole b)
    (h : r.Becomes map t v) (ht : r.Whole t) (hclear : ∀ u, r.Comprises t u → r.Unmistaken map u) :
    r.Whole v := by
  revert ht hclear
  refine hr.becomes_induction ?_ ?_ ?_ ?_ h
  · intro t v hb _ _
    exact hmap t v hb
  · intro t _ _ _ ht _
    exact ht
  · intro x w _ hs hw ih hknown ht hclear
    have hview := (hclear _ .refl).view x w hs hw hknown
    have hx : r.HasPart (.ofStatic x) x := .inl hs
    refine .of_parts hknown fun u hu ↦ ?_
    rcases hu with hu | hu
    · cases hview.symm.trans hu
      exact ih (ht.part hx) fun u hu ↦ hclear u (.head hx hu)
    · rw [(hr.of_static hview).2.2] at hu
      cases hu
  · intro template args ws _ hi hws ih hknown ht hclear
    have hpart : ∀ a ∈ args, r.HasPart (.ofInstance template args) a := fun a ha ↦ .inr (by rwa [hi.typeArgs])
    have hmade := (hclear _ .refl).inst template ws hi.static hi.template (by rwa [hi.typeArgs]) hknown
    refine .of_parts hknown fun u hu ↦ ?_
    rcases hu with hu | hu
    · rw [hmade.static] at hu
      cases hu
    · rw [hmade.typeArgs] at hu
      obtain ⟨a, ha, hP⟩ := mem_of_forall₂ ih hu
      exact hP (ht.part (hpart a ha)) fun u hu ↦ hclear u (.head (hpart a ha) hu)

theorem forall₂_comp {α β γ : Type} {R : β → γ → Prop} {S : α → γ → Prop} {xs : List α} {ys : List β}
    {zs : List γ} (h : List.Forall₂ (fun x y ↦ ∀ z, R y z → S x z) xs ys) (h' : List.Forall₂ R ys zs) :
    List.Forall₂ S xs zs := by
  induction h generalizing zs with
  | nil =>
    cases h'
    exact .nil
  | cons hxy _ ih =>
    cases h' with
    | cons hyz h' => exact .cons (hxy _ hyz) (ih h')

/-- Where `m₁` changes an instance within `t`, `m₂` replaces neither that instance nor what it becomes. -/
def Unshadowed (r : Registry) (m₁ m₂ : Substitution) (t : TypeId) : Prop :=
  ∀ u template w, r.Comprises t u → r.template? u = some template → m₁.find? u = none →
    r.Becomes m₁ u w → w ≠ u → m₂.find? u = none ∧ m₂.find? w = none

theorem Unshadowed.part (h : r.Unshadowed m₁ m₂ t) (hp : r.HasPart t x) : r.Unshadowed m₁ m₂ x :=
  fun u template w hu ↦ h u template w (.head hp hu)

/-- What is not an instance does not get in the way of those within `t`. -/
theorem unshadowed_of_plain (hr : r.Named) (hm₂ : ∀ k b, m₂.find? k = some b → r.template? k = none)
    (hclear : ∀ u, r.Comprises t u → r.Unmistaken m₁ u) : r.Unshadowed m₁ m₂ t := by
  have hfree : ∀ {k template}, r.template? k = some template → m₂.find? k = none := by
    intro k template hk
    cases hb : m₂.find? k with
    | none => rfl
    | some b =>
      rw [hm₂ k b hb] at hk
      cases hk
  intro u template w hu ht hb hw _
  refine ⟨hfree ht, ?_⟩
  obtain ⟨heq, hi⟩ := hr.of_template ht
  generalize r.typeArgs u = args at heq hi
  subst heq
  obtain ⟨ws, hws, rfl, hknown⟩ := (becomes_ofInstance_iff hb hi).1 hw
  exact hfree ((hclear _ hu).inst template ws hi.static ht (by rwa [hi.typeArgs]) hknown).template

/-- What `m₁` does in `r` and `m₂` later does to the outcome, `m` does at once. -/
theorem becomes_comp (hr : r.Named) (hgrows : Grows r E)
    (hviews : ∀ k b, m₂.find? k = some b → E.staticTarget? k = none)
    (hnone : ∀ k, m₁.find? k = none → m.find? k = m₂.find? k)
    (hsome : ∀ k b, m₁.find? k = some b → ∃ c, m.find? k = some c ∧ E.Becomes m₂ b c)
    (h₁ : r.Becomes m₁ t t₁) (ht : r.Whole t) (hclear : ∀ u, r.Comprises t u → r.Unmistaken m₁ u)
    (hfair : r.Unshadowed m₁ m₂ t) (h₂ : E.Becomes m₂ t₁ t₂) : E.Becomes m t t₂ := by
  have hfree : ∀ {k x}, E.staticTarget? k = some x → m₂.find? k = none := by
    intro k x hx
    cases hk : m₂.find? k with
    | none => rfl
    | some b =>
      rw [hviews k b hk] at hx
      cases hx
  suffices h : ∀ t₂, E.Becomes m₂ t₁ t₂ → r.Whole t → (∀ u, r.Comprises t u → r.Unmistaken m₁ u) →
      r.Unshadowed m₁ m₂ t → E.Becomes m t t₂ from h t₂ h₂ ht hclear hfair
  refine hr.becomes_induction ?_ ?_ ?_ ?_ h₁
  · intro t b hb t₂ h₂ _ _ _
    obtain ⟨c, hc, hbc⟩ := hsome t b hb
    rw [becomes_bound_iff hc]
    exact h₂.unique hbc
  · intro t hb hs ht t₂ h₂ hwhole _ _
    obtain ⟨hs', ht', -⟩ := hgrows.looksAlike hwhole.contains
    have hm := hnone t hb
    cases hk : m₂.find? t with
    | some c =>
      rw [becomes_bound_iff hk] at h₂
      rwa [becomes_bound_iff (hm.trans hk)]
    | none =>
      rw [becomes_plain_iff hk (hs'.trans hs) (ht'.trans ht)] at h₂
      rwa [becomes_plain_iff (hm.trans hk) (hs'.trans hs) (ht'.trans ht)]
  · intro x w hb hs hw ih hknown t₂ h₂ hwhole hclear hfair
    have hx : r.HasPart (.ofStatic x) x := .inl hs
    have hview := hgrows.hasView ((hclear _ .refl).view x w hs hw hknown)
    have hs' := hgrows.hasView hs
    obtain ⟨z, hz, rfl, hknown'⟩ := (becomes_ofStatic_iff (hfree hview) hview).1 h₂
    refine (becomes_ofStatic_iff ((hnone _ hb).trans (hfree hs')) hs').2 ⟨z, ?_, rfl, hknown'⟩
    exact ih z hz (hwhole.part hx) (fun u hu ↦ hclear u (.head hx hu)) (hfair.part hx)
  · intro template args ws hb hi hws ih hknown t₂ h₂ hwhole hclear hfair
    have hpart : ∀ a ∈ args, r.HasPart (.ofInstance template args) a := fun a ha ↦ .inr (by rwa [hi.typeArgs])
    have hmade := (hclear _ .refl).inst template ws hi.static hi.template (by rwa [hi.typeArgs]) hknown
    have hbecomes := (becomes_ofInstance_iff hb hi).2 ⟨ws, hws, rfl, hknown⟩
    have hm := hnone _ hb
    -- `m₂` may replace an instance that `m₁` leaves as it is
    have hcases : (∃ b, m₂.find? (.ofInstance template args) = some b ∧ ws = args) ∨
        m₂.find? (.ofInstance template args) = none ∧ m₂.find? (.ofInstance template ws) = none := by
      by_cases hsame : TypeId.ofInstance template ws = .ofInstance template args
      · obtain rfl : ws = args := by rw [← hmade.typeArgs, hsame, hi.typeArgs]
        cases hk : m₂.find? (.ofInstance template ws) with
        | some b => exact .inl ⟨b, rfl, rfl⟩
        | none => exact .inr ⟨rfl, rfl⟩
      · exact .inr (hfair _ template _ .refl hi.template hb hbecomes hsame)
    rcases hcases with ⟨b, hk, rfl⟩ | ⟨hk, hk'⟩
    · rw [becomes_bound_iff hk] at h₂
      rwa [becomes_bound_iff (hm.trans hk)]
    · obtain ⟨zs, hzs, rfl, hknown'⟩ := (becomes_ofInstance_iff hk' (hgrows.hasInstance hmade)).1 h₂
      refine (becomes_ofInstance_iff (hm.trans hk) (hgrows.hasInstance hi)).2
        ⟨zs, forall₂_comp ?_ hzs, rfl, hknown'⟩
      refine ((List.forall₂_and_left args ws).2 ⟨hpart, ih⟩).imp ?_
      rintro a w ⟨ha, hP⟩ z hz
      exact hP z hz (hwhole.part ha) (fun u hu ↦ hclear u (.head ha hu)) (hfair.part ha)

theorem staticTarget?_of_isParam (h : r.isParam t = true) : r.contains t = true ∧ r.staticTarget? t = none := by
  unfold isParam paramInfo? at h
  cases hd : r.find? t with
  | none => simp [hd] at h
  | some d =>
    refine ⟨contains_of_find? hd, ?_⟩
    simp only [hd, Option.bind_some, TypeDecl.paramInfo] at h
    simp only [staticTarget?, hd, Option.bind_some, TypeDecl.staticTarget]
    cases hk : d.kind <;> simp [hk] at h ⊢

theorem grows_compose (n : Nat) (m₁ m₂ : Substitution) : Along Grows (Substitution.compose n m₁ m₂) :=
  (Along.mapM _ (grows_substitute n m₂)).bind fun _ ↦ .pure _

theorem find?_of_compose {n : Nat} (hm₁ : ∀ k b, m₁.find? k = some b → r.Whole b)
    (h : Substitution.compose n m₁ m₂ r = .done m E) :
    (∀ k, m₁.find? k = none → m.find? k = m₂.find? k) ∧
      ∀ k b, m₁.find? k = some b → ∃ c, m.find? k = some c ∧ E.Becomes m₂ b c := by
  obtain ⟨bounds, E', hrun, h⟩ := bind_eq_done_iff.1 h
  obtain ⟨rfl, rfl⟩ := pure_eq_done_iff.1 h
  have hwhole : ∀ b ∈ m₁.entries.map Prod.snd, r.Whole b := by
    intro b hb
    obtain ⟨⟨k, b⟩, hk, rfl⟩ := List.mem_map.1 hb
    exact hm₁ k b (Dictionary.get_of_mem m₁.nodup_keys hk)
  have hgrows : Grows r E' := (Along.mapM _ (grows_substitute n m₂)).of_done hrun
  have hbounds := forall₂_becomes hwhole hgrows (refl r) hrun (.refl E')
  exact ⟨fun k ↦ (Dictionary.find?_foldl_insert m₁.nodup_keys hbounds m₂).1,
    fun k ↦ (Dictionary.find?_foldl_insert m₁.nodup_keys hbounds m₂).2⟩

/-- Substitutions compose: provided that all is known and that no handles clash, substituting by `m₁` and then
by `m₂` gives what substituting by their composition gives, for which nothing more has to be made. What `m₂`
replaces are type parameters, and none of them is an instance within `t` that `m₁` changes, or becomes one. -/
theorem substitute_comp {n₁ n₂ n₃ : Nat} (hr : Reachable TypeDecl.IsProper r) (ht : r.Whole t)
    (hm₁ : ∀ k b, m₁.find? k = some b → r.Whole b) (hm₂ : ∀ k b, m₂.find? k = some b → r.isParam k = true)
    (h₁ : substitute n₁ m₁ t r = .done t₁ r₁) (hclear : ∀ u, r₁.Comprises t u → r₁.Unmistaken m₁ u)
    (hfair : r₁.Unshadowed m₁ m₂ t) (h₂ : substitute n₂ m₂ t₁ r₁ = .done t₂ r₂)
    (h₃ : Substitution.compose n₃ m₁ m₂ r₂ = .done m r₃) : ∃ n, substitute n m t r₃ = .done t₂ r₃ := by
  have hgrows₁ : Grows r r₁ := (grows_substitute _ _ _).of_done h₁
  have hgrows₂ : Grows r₁ r₂ := (grows_substitute _ _ _).of_done h₂
  have hgrows₃ : Grows r₂ r₃ := (grows_compose _ _ _).of_done h₃
  have hgrows : Grows r₁ r₃ := IsTrans.trans _ _ _ hgrows₂ hgrows₃
  have hnamed : r₁.Named := ((along_instantiate inductive_named.changes n₁).1 m₁ t).of_done h₁ hr.named
  have hfirst : r₁.Becomes m₁ t t₁ := ht.becomes hgrows₁ (refl r) h₁ (.refl r₁)
  have hwhole : r₁.Whole t₁ := .of_becomes hnamed (fun k b hb ↦ (hm₁ k b hb).grows hgrows₁) hfirst
    (ht.grows hgrows₁) hclear
  have hsecond : r₃.Becomes m₂ t₁ t₂ := hwhole.becomes hgrows (refl r₁) h₂ hgrows₃.leads
  obtain ⟨hnone, hsome⟩ := find?_of_compose
    (fun k b hb ↦ (hm₁ k b hb).grows (IsTrans.trans _ _ _ hgrows₁ hgrows₂)) h₃
  refine becomes_comp hnamed hgrows ?_ hnone hsome hfirst (ht.grows hgrows₁) hclear hfair hsecond
  intro k b hb
  obtain ⟨hknown, hstatic⟩ := staticTarget?_of_isParam (hm₂ k b hb)
  rw [((IsTrans.trans _ _ _ hgrows₁ hgrows : Grows r r₃).looksAlike hknown).1, hstatic]

def bookList : TypeId := .ofInstance listTemplate [book]

/-- The type of a list of books is used as a value. -/
def makeView : Attempt Registry RegistrationError TypeId := do
  let _ ← makeShelf true
  staticWrapper bookList

def viewTypes : Registry := (makeView builtin).state?.getD {}

theorem reachable_viewTypes : Reachable TypeDecl.IsProper viewTypes := by
  refine reachable_getD (Along.bind ?_ fun _ ↦ keeps_staticWrapper _)
  refine (keeps_registerParam _ _).bind fun _ ↦ (keeps_register ⟨⟨rfl, rfl⟩, rfl⟩).bind fun _ ↦ ?_
  refine (keeps_registerParam _ _).bind fun _ ↦ (keeps_instantiate _ _ _).bind fun _ ↦ ?_
  exact keeps_register ⟨⟨rfl, rfl⟩, rfl⟩

/-- Books become lists of books, and after that integers. -/
def shelved : Substitution := .ofList [(book, bookList)]
def numbered : Substitution := .ofList [(book, .int)]

def nestedView : TypeId := .ofStatic (.ofInstance listTemplate [bookList])
def numberedView : TypeId := .ofStatic (.ofInstance listTemplate [.ofInstance listTemplate [.int]])

def shelvedTypes : Registry := (substitute 5 shelved (.ofStatic bookList) viewTypes).state?.getD {}
def numberedTypes : Registry := (substitute 5 numbered nestedView shelvedTypes).state?.getD {}

theorem substitute_comp_view : ∃ m r₃,
    substitute 5 shelved (.ofStatic bookList) viewTypes = .done nestedView shelvedTypes ∧
    substitute 5 numbered nestedView shelvedTypes = .done numberedView numberedTypes ∧
    Substitution.compose 5 shelved numbered numberedTypes = .done m r₃ ∧
    m.find? book = some (.ofInstance listTemplate [.int]) ∧
    ∃ n, substitute n m (.ofStatic bookList) r₃ = .done numberedView r₃ := by
  have h₁ : substitute 5 shelved (.ofStatic bookList) viewTypes = .done nestedView shelvedTypes :=
    Outcome.eq_done (by decide +kernel) {}
  have h₂ : substitute 5 numbered nestedView shelvedTypes = .done numberedView numberedTypes :=
    Outcome.eq_done (by decide +kernel) {}
  have hcompose : (Substitution.compose 5 shelved numbered numberedTypes).value?.any
      (fun m ↦ m.find? book == some (.ofInstance listTemplate [.int])) = true := by decide +kernel
  obtain ⟨m, hm, hbook⟩ := (Option.any_eq_true _ _).1 hcompose
  obtain ⟨r₃, h₃⟩ := Outcome.exists_done hm
  have hbooks : viewTypes.Whole bookList :=
    whole_of_parts [bookList, book] (by decide +kernel) (by decide +kernel) (by decide +kernel)
  have hview : viewTypes.Whole (.ofStatic bookList) :=
    whole_of_parts [.ofStatic bookList, bookList, book] (by decide +kernel) (by decide +kernel)
      (by decide +kernel)
  have hclear : ∀ u, shelvedTypes.Comprises (.ofStatic bookList) u → shelvedTypes.Unmistaken shelved u :=
    unmistaken_of_parts 5 [.ofStatic bookList, bookList, book] (by decide +kernel) (by decide +kernel)
      (by decide +kernel) (by decide +kernel) (by decide +kernel)
  have hnamed : shelvedTypes.Named :=
    ((along_instantiate inductive_named.changes 5).1 _ _).of_done h₁ reachable_viewTypes.named
  have hkey : ∀ k b, numbered.find? k = some b → k = book := fun k b hb ↦ by
    cases List.mem_singleton.1 (Dictionary.mem_of_find?_ofList hb)
    rfl
  refine ⟨m, r₃, h₁, h₂, h₃, eq_of_beq hbook,
    substitute_comp reachable_viewTypes hview ?_ ?_ h₁ hclear (unshadowed_of_plain hnamed ?_ hclear) h₂ h₃⟩
  · intro k b hb
    cases List.mem_singleton.1 (Dictionary.mem_of_find?_ofList hb)
    exact hbooks
  · intro k b hb
    rw [hkey k b hb]
    decide +kernel
  · intro k b hb
    rw [hkey k b hb]
    decide +kernel

def slot : TypeId := .ofName "Slot"
def fillItem : TypeId := .ofParam "fill" "U"
def fillSlot : TypeId := .ofInstance slot [fillItem]

/-- A type parameter that has a type parameter, and an instance of it. -/
def makeSlot : Attempt Registry RegistrationError TypeId := do
  let item ← registerParam "X" { owner := "Slot", index := 0 }
  let _ ← register
    { name := "Slot", id := slot, kind := .parameter { owner := "fill", index := 0 }, typeParams := [item] }
  let item ← registerParam "U" { owner := "fill", index := 1 }
  instantiate 4 slot [item]

theorem keeps_makeSlot : Along (Keeps (Reachable TypeDecl.IsProper)) makeSlot := by
  refine (keeps_registerParam _ _).bind fun _ ↦ (keeps_register ⟨⟨rfl, rfl⟩, rfl⟩).bind fun _ ↦ ?_
  exact (keeps_registerParam _ _).bind fun _ ↦ keeps_instantiate _ _ _

def spareItem : TypeId := .ofParam "fill" "W"
def spareSlot : TypeId := .ofInstance slot [spareItem]

/-- A second instance, of another type parameter. -/
def makeSlots : Attempt Registry RegistrationError TypeId := do
  let _ ← makeSlot
  let item ← registerParam "W" { owner := "fill", index := 2 }
  instantiate 4 slot [item]

def twoSlots : Registry := (makeSlots builtin).state?.getD {}

theorem reachable_twoSlots : Reachable TypeDecl.IsProper twoSlots := by
  refine reachable_getD (keeps_makeSlot.bind fun _ ↦ ?_)
  exact (keeps_registerParam _ _).bind fun _ ↦ keeps_instantiate _ _ _

/-- The one type parameter becomes the other, and after that the slot of the other an integer. -/
def merged : Substitution := .ofList [(spareItem, fillItem)]
def emptied : Substitution := .ofList [(fillSlot, .int)]

def mergedAtOnce : Substitution := emptied.insert spareItem fillItem

def mergedSlots : Registry := (substitute 3 merged spareSlot twoSlots).state?.getD {}
def emptiedSlots : Registry := (substitute 3 emptied fillSlot mergedSlots).state?.getD {}

/-- The first substitution turns a slot into the type parameter that the second replaces; the two at once
do not look at what has become of the slot. -/
theorem substitute_not_comp :
    Reachable TypeDecl.IsProper twoSlots ∧ twoSlots.Whole spareSlot ∧ twoSlots.Whole fillItem ∧
    (∀ k ∈ merged.keys ++ emptied.keys, twoSlots.isParam k = true) ∧
    substitute 3 merged spareSlot twoSlots = .done fillSlot mergedSlots ∧
    (∀ u, mergedSlots.Comprises spareSlot u → mergedSlots.Unmistaken merged u) ∧
    substitute 3 emptied fillSlot mergedSlots = .done .int emptiedSlots ∧
    Substitution.compose 3 merged emptied emptiedSlots = .done mergedAtOnce emptiedSlots ∧
    emptiedSlots.Becomes mergedAtOnce spareSlot fillSlot ∧
    ∀ n, substitute n mergedAtOnce spareSlot emptiedSlots ≠ .done .int emptiedSlots := by
  have h₁ : substitute 3 merged spareSlot twoSlots = .done fillSlot mergedSlots :=
    Outcome.eq_done (by decide +kernel) {}
  have h₂ : substitute 3 emptied fillSlot mergedSlots = .done .int emptiedSlots :=
    Outcome.eq_done (by decide +kernel) {}
  have hwhole : ∀ t ∈ [spareSlot, fillItem], twoSlots.Whole t := fun t ht ↦
    whole_of_parts [spareSlot, spareItem, fillItem] (List.Sublist.subset (by decide) ht) (by decide +kernel)
      (by decide +kernel)
  have hclear : ∀ u, mergedSlots.Comprises spareSlot u → mergedSlots.Unmistaken merged u :=
    unmistaken_of_parts 3 [spareSlot, spareItem] (by decide +kernel) (by decide +kernel) (by decide +kernel)
      (by decide +kernel) (by decide +kernel)
  have hplain : substitute 3 emptied fillItem emptiedSlots = .done fillItem emptiedSlots :=
    substitute_of_plain (by decide +kernel) (by decide +kernel) (by decide +kernel)
  have h₃ : Substitution.compose 3 merged emptied emptiedSlots = .done mergedAtOnce emptiedSlots :=
    bind_eq_done_iff.2 ⟨[fillItem], _, mapM_cons_eq_done_iff.2 ⟨_, _, [], hplain, rfl, rfl⟩, rfl⟩
  have hstays : emptiedSlots.Becomes mergedAtOnce spareSlot fillSlot :=
    becomes_of_size (n := 3) (by decide +kernel) (by decide +kernel)
  refine ⟨reachable_twoSlots, hwhole _ (by simp), hwhole _ (by simp), by decide +kernel, h₁, hclear, h₂, h₃,
    hstays, fun n hn ↦ ?_⟩
  have heq : TypeId.int = fillSlot := Becomes.unique ⟨n, hn⟩ hstays
  revert heq
  decide +kernel

end Registry

end CallResolution
