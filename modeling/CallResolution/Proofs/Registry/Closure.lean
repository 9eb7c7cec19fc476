import CallResolution.Proofs.Registry.Accounted
import CallResolution.Proofs.Registry.Failure
import CallResolution.Proofs.Registry.Settling

namespace CallResolution

open Attempt

variable {σ ε α β : Type}

/-- The state that the computation ends in, if it ends, is as `P` says, and a value that it ends with as
`Q` says. -/
def Outcome.Leaves (P : σ → Prop) (Q : α → σ → Prop) : Outcome σ ε α → Prop
  | done a s => P s ∧ Q a s
  | failed _ s => P s
  | exhausted => True

theorem Outcome.Leaves.mono {P P' : σ → Prop} {Q : α → σ → Prop} {o : Outcome σ ε α} (h : o.Leaves P Q)
    (hP : ∀ s, P s → P' s) : o.Leaves P' Q := by
  cases o with
  | done a s => exact ⟨hP s h.1, h.2⟩
  | failed e s => exact hP s h
  | exhausted => trivial

theorem Attempt.leaves_bind {P P' : σ → Prop} {Q : α → σ → Prop} {Q' : β → σ → Prop} {x : Attempt σ ε α}
    {f : α → Attempt σ ε β} {s : σ} (hx : (x s).Leaves P Q) (hP : ∀ s, P s → P' s)
    (hf : ∀ a t, P t → Q a t → (f a t).Leaves P' Q') : ((x >>= f) s).Leaves P' Q' := by
  rw [bind_apply]
  cases h : x s with
  | done a t =>
    rw [h] at hx
    exact hf a t hx.1 hx.2
  | failed e t =>
    rw [h] at hx
    exact hP t hx
  | exhausted => trivial

/-- Whatever the computation gives has the property. -/
def Attempt.Yields (P : α → Prop) (x : Attempt σ ε α) : Prop := ∀ s a s', x s = .done a s' → P a

namespace Attempt.Yields

variable {P : α → Prop} {Q : β → Prop} {x : Attempt σ ε α}

theorem pure {a : α} (h : P a) : Yields P (Pure.pure a : Attempt σ ε α) := by
  intro s b s' hb
  cases hb
  exact h

theorem bind {f : α → Attempt σ ε β} (hx : Yields P x) (hf : ∀ a, P a → Yields Q (f a)) :
    Yields Q (x >>= f) := by
  intro s b s' hb
  obtain ⟨a, t, ha, hb⟩ := bind_eq_done_iff.1 hb
  exact hf a (hx s a t ha) t b s' hb

theorem mapM {f : β → Attempt σ ε α} {xs : List β} (hf : ∀ x ∈ xs, Yields P (f x)) :
    Yields (fun as ↦ ∀ a ∈ as, P a) (xs.mapM f) := by
  induction xs with
  | nil => exact pure (by simp)
  | cons x xs ih =>
    obtain ⟨hx, hxs⟩ := List.forall_mem_cons.1 hf
    rw [List.mapM_cons]
    exact hx.bind fun a ha ↦ (ih hxs).bind fun as has ↦ pure (List.forall_mem_cons.2 ⟨ha, has⟩)

end Attempt.Yields

namespace Registry

section Walk

variable {P : TypeId → Prop} {f : TypeId → Attempt σ ε TypeId}

theorem yields_params (hf : ∀ t, Yields P (f t)) (ps : List Param) :
    Yields (fun ps ↦ ∀ p ∈ ps, P p.type) (ps.mapM (Param.mapTypes f)) :=
  .mapM fun p _ ↦ (hf p.type).bind fun _ ht ↦ .pure ht

theorem yields_base (hf : ∀ t, Yields P (f t)) (base : Option TypeId) :
    Yields (fun base ↦ ∀ t, base = some t → P t) (base.mapM f) := by
  cases base with
  | none => exact .pure (by simp)
  | some t =>
    change Yields _ (some <$> f t)
    rw [← bind_pure_comp]
    exact (hf t).bind fun u hu ↦ .pure (by simpa using hu)

theorem yields_kind (hf : ∀ t, Yields P (f t)) (k : TypeKind) :
    Yields (fun k' : TypeKind ↦ ∀ t ∈ k'.handles, P t ∨ t ∈ k.handles) (instanceKind f k) := by
  cases k with
  | delegate s =>
    refine Yields.bind (P := fun s' : Signature ↦ ∀ t ∈ s'.mentioned, P t) ?_ fun s' hs' ↦
      .pure fun t ht ↦ .inl (hs' t ht)
    refine (Yields.mapM fun t _ ↦ hf t).bind fun params hparams ↦ (hf s.result).bind fun result hresult ↦
      .pure ?_
    exact List.forall_mem_append.2 ⟨hparams, by simpa using hresult⟩
  | classType | valueType | interfaceType | parameter _ | static _ => exact .pure fun t ht ↦ .inr ht

theorem yields_method (hf : ∀ t, Yields P (f t)) (owner : TypeId) (d : Method) :
    Yields (fun d' : Method ↦ ∀ t ∈ d'.handles, P t ∨ t ∈ d.handles) (instanceMethod f owner d) := by
  refine Yields.bind (P := fun d' : Method ↦ ∀ t ∈ d'.handles, P t ∨ t ∈ d.handles) ?_ fun d' hd' ↦
    .pure hd'
  refine (yields_params hf d.params).bind fun params hparams ↦ (hf d.result).bind fun result hresult ↦
    .pure fun t ht ↦ ?_
  rcases Method.mem_handles_iff.1 ht with ht | rfl | ht
  · obtain ⟨p, hp, rfl⟩ := List.mem_map.1 ht
    exact .inl (hparams p hp)
  · exact .inl hresult
  · exact .inr (Method.mem_handles_of_mem_typeParams ht)

theorem yields_constructor (hf : ∀ t, Yields P (f t)) (header : TypeDecl) (d : Method) :
    Yields (fun d' : Method ↦ ∀ t ∈ d'.handles, P t ∨ t = header.id) (instanceConstructor f header d) := by
  refine (yields_params hf d.params).bind fun params hparams ↦ .pure fun t ht ↦ ?_
  rcases Method.mem_handles_iff.1 ht with ht | rfl | ht
  · obtain ⟨p, hp, rfl⟩ := List.mem_map.1 ht
    exact .inl (hparams p hp)
  · exact .inr rfl
  · cases ht

theorem yields_property (hf : ∀ t, Yields P (f t)) (d : Property) :
    Yields (fun d' : Property ↦ ∀ t ∈ d'.mentioned, P t) (d.mapTypes f) := by
  refine (hf d.type).bind fun type htype ↦ (yields_params hf d.index).bind fun index hindex ↦ .pure ?_
  refine List.forall_mem_cons.2 ⟨htype, fun t ht ↦ ?_⟩
  obtain ⟨p, hp, rfl⟩ := List.mem_map.1 ht
  exact hindex p hp

/-- What an instance gives cause to look up has come up while it was made, or its template or its header
gives cause for it too. -/
theorem yields_instanceDecl (hf : ∀ t, Yields P (f t)) (header d : TypeDecl) :
    Yields (fun e : TypeDecl ↦ ∀ t ∈ e.handles, P t ∨ t ∈ d.handles ∨ t = header.id ∨ t ∈ header.handles)
      (instanceDecl f header d) := by
  unfold instanceDecl
  refine (yields_base hf d.base).bind fun base hbase ↦ ?_
  refine (Yields.mapM fun t _ ↦ hf t).bind fun interfaces hinterfaces ↦ ?_
  refine (yields_kind hf d.kind).bind fun kind hkind ↦ ?_
  refine Yields.bind (P := fun ms : List Method ↦ ∀ m ∈ ms, ∀ t ∈ m.handles, P t ∨ t ∈ d.handles)
    (.mapM fun m hm s m' s' hrun t ht ↦ ?_) fun methods hmethods ↦ ?_
  · refine (yields_method hf header.id m s m' s' hrun t ht).imp_right fun ht ↦ ?_
    exact TypeDecl.mem_handles_iff.2 (.method hm ht)
  refine (Yields.mapM fun m _ ↦ yields_constructor hf header m).bind fun constructors hconstructors ↦ ?_
  refine Yields.bind (P := fun fs : List Field ↦ ∀ g ∈ fs, P g.type)
    (.mapM fun g _ ↦ (hf g.type).bind fun t ht ↦ .pure ht) fun fields hfields ↦ ?_
  refine (Yields.mapM fun p _ ↦ yields_property hf p).bind fun properties hproperties ↦ .pure ?_
  intro t ht
  cases TypeDecl.mem_handles_iff.1 ht with
  | base h => exact .inl (hbase t h)
  | interface h => exact .inl (hinterfaces t h)
  | kind h => exact (hkind t h).imp_right fun h ↦ .inl (TypeDecl.mem_handles_iff.2 (.kind h))
  | template h => exact .inr (.inr (.inr (TypeDecl.mem_handles_iff.2 (.template h))))
  | typeArg h => exact .inr (.inr (.inr (TypeDecl.mem_handles_iff.2 (.typeArg h))))
  | method hm h => exact (hmethods _ hm t h).imp_right .inl
  | constructor hm h => exact (hconstructors _ hm t h).imp_right fun h ↦ .inr (.inl h)
  | field hg h =>
    obtain ⟨g, hmem, rfl⟩ := List.mem_map.1 hg
    rcases List.mem_cons.1 h with rfl | h
    · exact .inl (hfields g hmem)
    · exact .inr (.inr (.inl (List.mem_singleton.1 h)))
  | property hp h =>
    obtain ⟨p, hmem, rfl⟩ := List.mem_map.1 hp
    rcases List.mem_cons.1 h with rfl | h
    · exact .inr (.inr (.inl rfl))
    · exact .inl (hproperties p hmem t h)

end Walk

/-- Gives out the types of the state in turn, as long as they are among `ts`. -/
def supply (ts : List TypeId) (_ : TypeId) : Attempt (List TypeId) Unit TypeId
  | v :: vs => if v ∈ ts then .done v vs else .exhausted
  | [] => .exhausted

theorem mapM_supply {f : TypeId → Attempt σ ε TypeId} {ts us vs : List TypeId} {s s' : σ}
    (h : us.mapM f s = .done vs s') (hsub : vs ⊆ ts) : us.mapM (supply ts) vs = .done vs [] := by
  induction us generalizing vs s with
  | nil =>
    cases h
    rfl
  | cons u us ih =>
    obtain ⟨v, s₁, vs, -, hvs, rfl⟩ := mapM_cons_eq_done_iff.1 h
    obtain ⟨hv, hsub⟩ := List.cons_subset.1 hsub
    exact mapM_cons_eq_done_iff.2 ⟨v, vs, vs, if_pos hv, ih hvs hsub, rfl⟩

variable {void : TypeId → Prop} {r r' E : Registry} {fuel : Nat} {map : Substitution}
  {t v template : TypeId} {args ts vs : List TypeId} {d entry : TypeDecl}

theorem mem_handles_filled {header : TypeDecl} (h : mentionedAt fuel d args r = .done ts r')
    (ht : t ∈ (filled header d ts).handles) :
    t ∈ ts ∨ t ∈ d.handles ∨ t = header.id ∨ t ∈ header.handles := by
  have hsupply : ∀ u, Yields (· ∈ ts) (supply ts u) := by
    intro u s v s' hv
    cases s with
    | nil => cases hv
    | cons w ws =>
      rw [supply] at hv
      split at hv
      · cases hv
        assumption
      · cases hv
  have hrun : instanceDecl (supply ts) header d ts = .done (filled header d ts) [] := by
    have hwalk := (walks_instanceDecl header d).choose_spec _ (supply ts)
    dsimp only at hwalk
    rw [hwalk]
    exact map_eq_done_iff.2 ⟨ts, mapM_supply h (List.Subset.refl ts), rfl⟩
  exact yields_instanceDecl hsupply header d ts _ _ hrun t ht

theorem Closed.foresees (h : Closed void r) (hE : ∀ t, void t → E.contains t = false) : Foresees r E := by
  have hforeseen : ∀ {t}, Accounted void r t → Foreseen r E t := fun ht ↦ ht.imp_right (hE _)
  constructor
  · intro template d hd _ t ht
    exact hforeseen (h.decl template d hd t (TypeDecl.mem_handles_of_mem_mentioned ht))
  · intro t u hp
    rcases hp with hp | hp
    · exact hforeseen (h.staticTarget? hp)
    · exact hforeseen (h.typeArgs hp)

theorem Accounted.grows (h : Accounted void r t) (hgrows : Grows r r') : Accounted void r' t :=
  h.mono fun _ ↦ hgrows.contains

theorem Closed.insertInstance (h : Closed void r) (hid : r.types.find? entry.id = none)
    (hentry : ∀ t ∈ entry.handles, Accounted void (r.insertInstance entry) t) :
    Closed void (r.insertInstance entry) := by
  have hkeep : ∀ t, Accounted void r t → Accounted void (r.insertInstance entry) t :=
    fun t ht ↦ ht.mono fun _ ↦ contains_insertInstance hid
  refine ⟨fun t ht ↦ hkeep t (h.basic t ht), ?_, fun m hm t ht ↦ hkeep t (h.extensions m hm t ht)⟩
  intro t d hd u hu
  rcases find?_insertInstance_cases hd with ⟨-, rfl⟩ | hd
  · exact hentry u hu
  · exact hkeep u (h.decl t d hd u hu)

/-- The types that the substitution puts in are accounted for. -/
def Covers (void : TypeId → Prop) (r : Registry) (map : Substitution) : Prop :=
  ∀ t b, map.find? t = some b → Accounted void r b

theorem Covers.grows (h : Covers void r map) (hgrows : Grows r r') : Covers void r' map :=
  fun t b hb ↦ (h t b hb).grows hgrows

theorem covers_zip (h : ∀ a ∈ args, Accounted void r a) : Covers void r (.ofList (ts.zip args)) := by
  intro t b hb
  exact h b (List.of_mem_zip (Dictionary.mem_of_find?_ofList hb)).2

theorem closed_staticWrapper (h : Closed void r) (ht : Accounted void r t)
    (hrun : staticWrapper t r = .done v r') : Closed void r' := by
  rw [staticWrapper_eq_done_iff] at hrun
  cases hrun with
  | known _ => exact h
  | new hnew hn =>
    rename_i name
    have hu : r.contains (wrapperDecl name t).id = false := hnew
    refine h.insertInstance (find?_types_eq_none hu) fun u hu' ↦ ?_
    refine Accounted.grows ?_ (.insertInstance hu)
    obtain rfl | rfl : u = .object ∨ u = t := by
      simpa [wrapperDecl, TypeDecl.handles, TypeKind.handles] using hu'
    · exact h.object
    · exact ht

theorem mem_handles_header (ht : t ∈ (r.instanceHeader d template args).handles) :
    t ∈ d.handles ∨ t = template ∨ t ∈ args := by
  cases TypeDecl.mem_handles_iff.1 ht with
  | base h => cases h
  | interface h => cases h
  | kind h => exact .inl (TypeDecl.mem_handles_iff.2 (.kind h))
  | template h => exact .inr (.inl (Option.some.inj h).symm)
  | typeArg h => exact .inr (.inr h)
  | method hm _ => cases hm
  | constructor hm _ => cases hm
  | field hf _ => cases hf
  | property hp _ => cases hp

theorem Closed.accounted_header (h : Closed void r) (hnew : NewInstance r template d args)
    (hargs : ∀ a ∈ args, Accounted void r a) :
    ∀ u ∈ (r.instanceHeader d template args).handles, Accounted void r u := by
  intro u hu
  rcases mem_handles_header hu with hu | rfl | hu
  · exact h.decl template d hnew.found u hu
  · exact .inl (contains_of_find? hnew.found)
  · exact hargs u hu

theorem Closed.header (h : Closed void r) (hnew : NewInstance r template d args)
    (hargs : ∀ a ∈ args, Accounted void r a) :
    Closed void (r.insertInstance (r.instanceHeader d template args)) := by
  refine h.insertInstance (find?_types_eq_none hnew.unknown) fun u hu ↦ ?_
  exact (h.accounted_header hnew hargs u hu).grows (.insertInstance hnew.unknown)

/-- The completed instance refers to what its template and its header refer to, to itself, and to what
has been put in the place of what the template mentions. -/
theorem Closed.complete (h : Closed void r) (hnew : NewInstance r template d args)
    (hargs : ∀ a ∈ args, Accounted void r a)
    (hwalk : mentionedAt fuel d args (r.insertInstance (r.instanceHeader d template args)) = .done ts r')
    (h' : Closed void r') (hts : ∀ t ∈ ts, Accounted void r' t) :
    Closed void (r'.insertInstance (filled (r.instanceHeader d template args) d ts)) := by
  have hgrows : Grows (r.insertInstance (r.instanceHeader d template args)) r' :=
    (Along.mapM _ (grows_substitute fuel _)).of_done hwalk
  have hid := (completes_filled (r.instanceHeader d template args) hwalk).id
  have hnone : r'.types.find? (filled (r.instanceHeader d template args) d ts).id = none := by
    rw [hid]
    exact (find?_header hnew.unknown hgrows).2
  have hall := Grows.complete hnew.unknown hgrows hid
  refine h'.insertInstance hnone fun u hu ↦ ?_
  rcases mem_handles_filled hwalk hu with hu | hu | rfl | hu
  · exact (hts u hu).mono fun _ ↦ contains_insertInstance hnone
  · exact (h.decl template d hnew.found u hu).grows hall
  · exact .inl (contains_complete hnew.unknown hgrows hid)
  · exact (h.accounted_header hnew hargs u hu).grows hall

/-- Whether it ends with a type or not, the computation leaves everything accounted for. -/
def Closes (void : TypeId → Prop) (r : Registry) : Outcome Registry RegistrationError TypeId → Prop :=
  Outcome.Leaves (fun r' ↦ Grows r r' ∧ Closed void r') fun v r' ↦ Accounted void r' v

def SubstituteCloses (void : TypeId → Prop) (fuel : Nat) : Prop :=
  ∀ map t r, Closed void r → Covers void r map → Accounted void r t → Closes void r (substitute fuel map t r)

def InstantiateCloses (void : TypeId → Prop) (fuel : Nat) : Prop :=
  ∀ template args r, Closed void r → (∀ a ∈ args, Accounted void r a) →
    Closes void r (instantiate fuel template args r)

theorem Closes.of_grows {o : Outcome Registry RegistrationError TypeId} (h : Closes void r' o)
    (hgrows : Grows r r') : Closes void r o :=
  h.mono fun _ h ↦ ⟨IsTrans.trans _ _ _ hgrows h.1, h.2⟩

theorem closes_staticWrapper (h : Closed void r) (ht : Accounted void r t) :
    Closes void r (staticWrapper t r) := by
  cases hrun : staticWrapper t r with
  | done v r' =>
    exact ⟨⟨(grows_staticWrapper t).of_done hrun, closed_staticWrapper h ht hrun⟩,
      .inl (contains_of_staticWrapper hrun).2⟩
  | failed e r' =>
    obtain ⟨rfl, -⟩ := staticWrapper_failed hrun
    exact ⟨refl _, h⟩
  | exhausted => trivial

theorem SubstituteCloses.mapM (hs : SubstituteCloses void fuel) (h : Closed void r) (hmap : Covers void r map)
    (hts : ∀ t ∈ ts, Accounted void r t) : (ts.mapM (substitute fuel map) r).Leaves
      (fun r' ↦ Grows r r' ∧ Closed void r') fun vs r' ↦ ∀ v ∈ vs, Accounted void r' v := by
  induction ts generalizing r with
  | nil => exact ⟨⟨refl r, h⟩, by simp⟩
  | cons t ts ih =>
    obtain ⟨ht, hts⟩ := List.forall_mem_cons.1 hts
    rw [List.mapM_cons]
    refine leaves_bind (hs map t r h hmap ht) (fun _ h ↦ h) ?_
    rintro v r₁ ⟨hgrows₁, h₁⟩ hv
    refine leaves_bind (ih h₁ (hmap.grows hgrows₁) fun u hu ↦ (hts u hu).grows hgrows₁)
      (fun _ h ↦ ⟨IsTrans.trans _ _ _ hgrows₁ h.1, h.2⟩) ?_
    rintro vs r₂ ⟨hgrows₂, h₂⟩ hvs
    exact ⟨⟨IsTrans.trans _ _ _ hgrows₁ hgrows₂, h₂⟩, List.forall_mem_cons.2 ⟨hv.grows hgrows₂, hvs⟩⟩

theorem substituteCloses_succ (hs : SubstituteCloses void fuel) (hi : InstantiateCloses void fuel) :
    SubstituteCloses void (fuel + 1) := by
  intro map t r h hmap ht
  cases hb : map.find? t with
  | some b =>
    rw [substitute_of_bound hb]
    exact ⟨⟨refl r, h⟩, hmap t b hb⟩
  | none =>
    cases hst : r.staticTarget? t with
    | some target =>
      rw [substitute_of_static hb hst]
      refine leaves_bind (hs map target r h hmap (h.staticTarget? hst)) (fun _ h ↦ h) ?_
      rintro w r₁ ⟨hgrows₁, h₁⟩ hw
      split
      · exact ⟨⟨hgrows₁, h₁⟩, ht.grows hgrows₁⟩
      · exact (closes_staticWrapper h₁ hw).of_grows hgrows₁
    | none =>
      cases htm : r.template? t with
      | none =>
        rw [substitute_of_plain hb hst htm]
        exact ⟨⟨refl r, h⟩, ht⟩
      | some template =>
        rw [substitute_of_instance hb hst htm]
        refine leaves_bind (hs.mapM h hmap fun a ha ↦ h.typeArgs ha) (fun _ h ↦ h) ?_
        rintro ws r₁ ⟨hgrows₁, h₁⟩ hws
        split
        · exact ⟨⟨hgrows₁, h₁⟩, ht.grows hgrows₁⟩
        · exact (hi template ws r₁ h₁ hws).of_grows hgrows₁

theorem SubstituteCloses.mentionedAt (hs : SubstituteCloses void fuel) (h : Closed void r)
    (hnew : NewInstance r template d args) (hargs : ∀ a ∈ args, Accounted void r a) :
    (mentionedAt fuel d args (r.insertInstance (r.instanceHeader d template args))).Leaves
      (fun r' ↦ Grows (r.insertInstance (r.instanceHeader d template args)) r' ∧ Closed void r')
      fun ts r' ↦ ∀ t ∈ ts, Accounted void r' t := by
  have hentered : Grows r (r.insertInstance (r.instanceHeader d template args)) :=
    .insertInstance hnew.unknown
  refine hs.mapM (h.header hnew hargs) (covers_zip fun a ha ↦ (hargs a ha).grows hentered) fun u hu ↦ ?_
  exact (h.decl template d hnew.found u (TypeDecl.mem_handles_of_mem_mentioned hu)).grows hentered

theorem instantiateCloses_succ (hs : SubstituteCloses void fuel) : InstantiateCloses void (fuel + 1) := by
  intro template args r h hargs
  rcases known_or_refused_or_new r template args with hknown | ⟨e, hrefused⟩ | ⟨d, hnew⟩
  · rw [instantiate_of_known hknown]
    exact ⟨⟨refl r, h⟩, .inl hknown⟩
  · rw [instantiate_of_refused hrefused]
    exact ⟨refl r, h⟩
  · have hleaves := hs.mentionedAt h hnew hargs
    rw [instantiate_of_new hnew]
    cases hwalk : mentionedAt fuel d args (r.insertInstance (r.instanceHeader d template args)) with
    | done ts r₁ =>
      rw [hwalk] at hleaves
      obtain ⟨⟨hgrows, h₁⟩, hts⟩ := hleaves
      have hid := (completes_filled (r.instanceHeader d template args) hwalk).id
      exact ⟨⟨.complete hnew.unknown hgrows hid, h.complete hnew hargs hwalk h₁ hts⟩,
        .inl (contains_complete hnew.unknown hgrows hid)⟩
    | failed e r₁ =>
      rw [hwalk] at hleaves
      exact ⟨IsTrans.trans _ _ _ (.insertInstance hnew.unknown) hleaves.1, hleaves.2⟩
    | exhausted => trivial

theorem run_closes (void : TypeId → Prop) (fuel : Nat) :
    SubstituteCloses void fuel ∧ InstantiateCloses void fuel := by
  induction fuel with
  | zero => exact ⟨fun _ _ _ _ _ _ ↦ trivial, fun _ _ _ _ _ ↦ trivial⟩
  | succ fuel ih => exact ⟨substituteCloses_succ ih.1 ih.2, instantiateCloses_succ ih.1⟩

end Registry

end CallResolution
