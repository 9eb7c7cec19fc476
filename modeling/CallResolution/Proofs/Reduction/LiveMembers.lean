import CallResolution.Proofs.Overload.Selection
import CallResolution.Proofs.Registry.Reachable
import CallResolution.Reduction.LiveMembers

namespace CallResolution

open Attempt Registry

/-- The type that declares what is accessed, unless that is an extension method. -/
def Expr.accessedOwner? : Expr → Option TypeId
  | call _ d _ _ => if d.isExtension then none else some d.owner
  | member _ d _ _ => some d.owner
  | _ => none

namespace Reduction

variable {fuel : Nat} {site : CallSite} {s s₁ s' : Reducer} {args : List Expr} {e e' : Expr}
  {α : Type}

theorem onTypes_eq_done_iff {x : Attempt Registry CompileError α} {a : α} :
    onTypes x s = .done a s' ↔ ∃ r, x s.types = .done a r ∧ s' = { s with types := r } := by
  unfold onTypes within
  cases x s.types with
  | done b r => simp [eq_comm]
  | failed e r => simp
  | exhausted => simp

/-- The name that is looked up; without one it is that of the first default member. -/
def CallSite.liveName (site : CallSite) (r : Registry) (search : List TypeId) : Option String :=
  if site.name.isEmpty then search.findSome? r.defaultMember? else some site.name

theorem tryDispatch_nil (receiver : Option Expr) :
    tryDispatch fuel site receiver [] args s = .done none s := rfl

theorem tryDispatch_eq_some {receiver : Option Expr} {members : List Method}
    (h : tryDispatch fuel site receiver members args s = .done (some e) s') :
    ∃ r, dispatch fuel s.options.ambiguity site.span receiver members site.typeArgs args s.types =
      .done (some e) r ∧ s' = { s with types := r } := by
  unfold tryDispatch at h
  split at h
  · simp [pure_eq_done_iff] at h
  · simp only [dispatchAt, get_bind] at h
    exact onTypes_eq_done_iff.1 h

theorem types_of_tryDispatch {R : Registry → Registry → Prop} [Std.Refl R] [IsTrans Registry R]
    (hR : ∀ fuel map t, Along R (substitute fuel map t)) {receiver : Option Expr}
    {members : List Method} {found : Option Expr}
    (h : tryDispatch fuel site receiver members args s = .done found s') : R s.types s'.types := by
  unfold tryDispatch at h
  split at h
  · obtain ⟨-, rfl⟩ := pure_eq_done_iff.1 h
    exact refl _
  · simp only [dispatchAt, get_bind] at h
    obtain ⟨r, hr, rfl⟩ := onTypes_eq_done_iff.1 h
    exact (along_dispatch hR _ _ _ _ _ _).of_done hr

theorem owner_of_dispatch {r r' : Registry} {ambiguity : Ambiguity} {span : Span}
    {receiver : Option Expr} {members : List Method} {typeArgs : List TypeId} {owner : TypeId}
    (h : dispatch fuel ambiguity span receiver members typeArgs args r = .done (some e) r')
    (ho : e.accessedOwner? = some owner) :
    ∃ m ∈ members, m.isExtension = false ∧ m.owner = owner := by
  obtain ⟨c, s, c', hin, -, hpack, rfl⟩ := exists_settledIn_of_dispatch h
  obtain ⟨m, hm, hversion, -⟩ := exists_member_of_settledIn hin
  refine ⟨m, hm, ?_⟩
  rw [← hversion.specializes.owner, ← hversion.specializes.isExtension,
    ← Candidate.method_of_pack hpack]
  rw [Candidate.emit_eq] at ho
  split at ho
  · cases ho
  · simp only [Expr.accessedOwner?] at ho
    split at ho
    · cases ho
    · rename_i hext
      exact ⟨by simpa using hext, Option.some.inj ho⟩

theorem ofReceiver_of_value (hvalue : ∀ target type, e ≠ .typeRef target type) :
    Access.ofReceiver (some e) = { receiver := some e, owner := some e.type } := by
  cases e with
  | typeRef target type => exact absurd rfl (hvalue target type)
  | _ => rfl

theorem accessLive_eq_done (h : accessLive fuel site s = .done e s') :
    ∃ args s₁ search found s₂, site.reduceArgs s = .done args s₁ ∧
      (Access.ofReceiver site.receiver).search s₁.types fuel = some search ∧
      tryDispatch fuel site (Access.ofReceiver site.receiver).receiver
        (methodsOf s₁.types site (Access.ofReceiver site.receiver) search
          (site.liveName s₁.types search)) args s₁ = .done found s₂ ∧
      ((found = some e ∧ s' = s₂) ∨ (found = none ∧ ∃ made s₃,
        tryDispatch fuel site none
          (constructorsOf s₂.types site (Access.ofReceiver site.receiver)) args s₂ = .done made s₃ ∧
        ((made = some e ∧ s' = s₃) ∨ (made = none ∧ s' = s₃ ∧
          accessMember s₃.types (Access.ofReceiver site.receiver).receiver
            (membersOf s₃.types site (Access.ofReceiver site.receiver) search
              (site.liveName s₁.types search)) args = some e)))) := by
  unfold accessLive at h
  obtain ⟨args, s₁, hargs, h⟩ := bind_eq_done_iff.1 h
  obtain ⟨search, s₁', hask, h⟩ := bind_eq_done_iff.1 h
  obtain ⟨hsearch, rfl⟩ := ask_eq_done_iff.1 hask
  simp only [get_bind, ← CallSite.liveName.eq_1] at h
  obtain ⟨described, s₁', hdesc, h⟩ := bind_eq_done_iff.1 h
  cases hdesc
  obtain ⟨found, s₂, hfound, h⟩ := bind_eq_done_iff.1 h
  refine ⟨args, s₁, search, found, s₂, hargs, hsearch, hfound, ?_⟩
  cases found with
  | some e₁ =>
    obtain ⟨rfl, rfl⟩ := pure_eq_done_iff.1 h
    exact .inl ⟨rfl, rfl⟩
  | none =>
    dsimp only at h
    rw [get_bind] at h
    obtain ⟨made, s₃, hmade, h⟩ := bind_eq_done_iff.1 h
    refine .inr ⟨rfl, made, s₃, hmade, ?_⟩
    cases made with
    | some e₁ =>
      obtain ⟨rfl, rfl⟩ := pure_eq_done_iff.1 h
      exact .inl ⟨rfl, rfl⟩
    | none =>
      dsimp only at h
      rw [get_bind] at h
      cases hm : accessMember s₃.types (Access.ofReceiver site.receiver).receiver
          (membersOf s₃.types site (Access.ofReceiver site.receiver) search
            (site.liveName s₁.types search)) args with
      | some e₁ =>
        simp only [hm] at h
        obtain ⟨rfl, rfl⟩ := pure_eq_done_iff.1 h
        exact .inr ⟨rfl, rfl, rfl⟩
      | none =>
        simp only [hm] at h
        split at h <;> exact absurd h fail_ne_done

theorem mem_search {r : Registry} {a : Access} {t owner : TypeId} {search : List TypeId}
    (ha : a.owner = some t) (ht : r.typeParams t = []) (h : a.search r fuel = some search)
    (ho : owner ∈ search) : r.typeParams owner = [] := by
  simp only [Access.search, ha] at h
  obtain ⟨types, -, h⟩ := Option.bind_eq_some_iff.1 h
  cases h
  obtain ⟨-, hor⟩ := List.mem_filter.1 ho
  rcases Bool.or_eq_true_iff.1 hor with heq | hempty
  · obtain rfl := of_decide_eq_true heq
    exact ht
  · exact List.isEmpty_iff.1 hempty

theorem owner_mem_of_mem_methodsOf {r : Registry} {a : Access} {search : List TypeId}
    {name : Option String} {m : Method} (hr : r.WellOwned) (h : m ∈ methodsOf r site a search name)
    (hext : m.isExtension = false) : m.owner ∈ search := by
  unfold methodsOf at h
  split at h
  · cases h
  · split at h
    · rcases List.mem_append.1 h with h | h
      · obtain ⟨t, ht, hm⟩ := List.mem_flatMap.1 h
        rwa [hr.owner_of_mem_methods hm]
      · split at h
        · cases h
        · have hmark := hr.extensions m (List.mem_filter.1 h).1
          rw [hext] at hmark
          cases hmark
    · cases h

theorem owner_mem_of_mem_membersOf {r : Registry} {a : Access} {search : List TypeId}
    {name : Option String} {d : Member} (hr : r.WellOwned)
    (h : d ∈ membersOf r site a search name) : d.owner ∈ search := by
  unfold membersOf at h
  split at h
  · cases h
  · split at h
    · obtain ⟨t, ht, hd⟩ := List.mem_flatMap.1 (List.mem_filter.1 h).1
      rwa [hr.owner_of_mem_members hd]
    · cases h

theorem owner_mem_search {search : List TypeId} {owner : TypeId}
    (hreceiver : site.receiver = some e) (hvalue : ∀ target type, e ≠ .typeRef target type)
    (hargs : site.reduceArgs s = .done args s₁) (hown : s₁.types.WellOwned)
    (hsearch : (Access.ofReceiver site.receiver).search s₁.types fuel = some search)
    (h : accessLive fuel site s = .done e' s') (ho : e'.accessedOwner? = some owner) :
    owner ∈ search := by
  obtain ⟨args', s₁', search', found, s₂, hargs', hsearch', hfound, h⟩ := accessLive_eq_done h
  obtain ⟨rfl, rfl⟩ : args = args' ∧ s₁ = s₁' := by simpa using hargs.symm.trans hargs'
  obtain rfl : search = search' := Option.some.inj (hsearch.symm.trans hsearch')
  have haccess := ofReceiver_of_value hvalue
  rw [hreceiver, haccess] at hfound h
  rcases h with ⟨rfl, rfl⟩ | ⟨rfl, made, s₃, hmade, h⟩
  · obtain ⟨r, hr, -⟩ := tryDispatch_eq_some hfound
    obtain ⟨m, hm, hext, rfl⟩ := owner_of_dispatch hr ho
    exact owner_mem_of_mem_methodsOf hown hm hext
  · rw [show constructorsOf s₂.types site { receiver := some e, owner := some e.type } = [] by
      simp [constructorsOf], tryDispatch_nil] at hmade
    cases hmade
    obtain ⟨hmade, -⟩ | ⟨-, rfl, hmember⟩ := h
    · cases hmade
    · have hown₂ : s'.types.WellOwned :=
        types_of_tryDispatch (R := Keeps WellOwned) (fun fuel ↦ (along_instantiate inductive_wellOwned.changes fuel).1)
          hfound hown
      obtain ⟨d, hd, h⟩ := Option.bind_eq_some_iff.1 hmember
      cases h
      cases ho
      exact owner_mem_of_mem_membersOf hown₂ (List.mem_of_find?_eq_some hd)

/-- Among plain methods the first along the types that are searched is called that takes the
arguments. -/
theorem accessLive_of_plain {search : List TypeId} {applies : Method → Bool} {m : Method}
    (hreceiver : site.receiver = some e) (hvalue : ∀ target type, e ≠ .typeRef target type)
    (hargs : site.reduceArgs s = .done args s₁)
    (hsearch : (Access.ofReceiver site.receiver).search s₁.types fuel = some search)
    (htypeArgs : site.typeArgs = []) (hpolicy : s₁.options.ambiguity = .firstWins)
    (hplain : ∀ d ∈ methodsOf s₁.types site (Access.ofReceiver site.receiver) search
      (site.liveName s₁.types search), d.IsPlain)
    (happlies : ∀ d ∈ methodsOf s₁.types site (Access.ofReceiver site.receiver) search
      (site.liveName s₁.types search),
      (Candidate.ofMethod (some e) args d).isApplicable fuel s₁.types = .done (applies d) s₁.types)
    (hfirst : (methodsOf s₁.types site (Access.ofReceiver site.receiver) search
      (site.liveName s₁.types search)).find? applies = some m) :
    accessLive fuel site s =
      .done ((Candidate.ofMethod (some e) args m).emit s₁.types) s₁ := by
  have haccess : (Access.ofReceiver site.receiver).receiver = some e := by
    rw [hreceiver, ofReceiver_of_value hvalue]
  have hne : (methodsOf s₁.types site (Access.ofReceiver site.receiver) search
      (site.liveName s₁.types search)).isEmpty = false := by
    rw [List.isEmpty_eq_false_iff_exists_mem]
    exact ⟨m, List.mem_of_find?_eq_some hfirst⟩
  have hfound : tryDispatch fuel site (Access.ofReceiver site.receiver).receiver
      (methodsOf s₁.types site (Access.ofReceiver site.receiver) search
        (site.liveName s₁.types search)) args s₁ =
      .done (some ((Candidate.ofMethod (some e) args m).emit s₁.types)) s₁ := by
    simp only [tryDispatch, hne, Bool.false_eq_true, if_false, dispatchAt, get_bind, haccess,
      htypeArgs, hpolicy]
    refine onTypes_eq_done_iff.2 ⟨s₁.types, ?_, rfl⟩
    rw [dispatch_of_plain hplain happlies, hfirst]
    rfl
  refine bind_eq_done_iff.2 ⟨args, s₁, hargs, ?_⟩
  refine bind_eq_done_iff.2 ⟨search, s₁, ask_eq_done_iff.2 ⟨hsearch, rfl⟩, ?_⟩
  simp only [get_bind, ← CallSite.liveName.eq_1]
  refine bind_eq_done_iff.2 ⟨_, s₁, rfl, ?_⟩
  exact bind_eq_done_iff.2 ⟨_, s₁, hfound, rfl⟩

theorem accessedOwner?_emit_of_plain {r : Registry} {m : Method} (hm : m.IsPlain)
    (happ : (Candidate.ofMethod (some e) args m).isApplicable fuel r = .done true r) :
    ((Candidate.ofMethod (some e) args m).emit r).accessedOwner? = some m.owner := by
  obtain ⟨-, hfit, -⟩ := Candidate.isApplicable_eq_true_iff.1 happ
  have hkind : m.kind = .instanceMethod := by
    simp only [Candidate.receiverFits, Candidate.ofMethod, hm.not_extension, Bool.false_eq_true,
      if_false] at hfit
    cases hk : m.kind <;> simp_all
  rw [Candidate.emit_eq, Candidate.ofMethod_method]
  simp [Method.isConstructor, hkind, Expr.accessedOwner?, hm.not_extension]

/-- What a value offers is declared by a type that is searched, which is no template, and is closed
if all types searched are. Nothing sees to that: as soon as no method before it takes the arguments,
the method of an open instance among them is called. -/
theorem accessLive_owner (hreceiver : site.receiver = some e)
    (hvalue : ∀ target type, e ≠ .typeRef target type)
    (hargs : site.reduceArgs s = .done args s₁)
    (hreach : Reachable TypeDecl.OwnsMembers s₁.types) (htemplate : s₁.types.typeParams e.type = []) :
    (∀ e' s' owner, accessLive fuel site s = .done e' s' → e'.accessedOwner? = some owner →
      ∃ search, (Access.ofReceiver site.receiver).search s₁.types fuel = some search ∧
        owner ∈ search ∧ s₁.types.typeParams owner = [] ∧
        ∀ n, (∀ t ∈ search, s₁.types.isOpen n t = some false) →
          s₁.types.isOpen n owner = some false) ∧
    ∀ search applies m,
      (Access.ofReceiver site.receiver).search s₁.types fuel = some search →
      site.typeArgs = [] → s₁.options.ambiguity = .firstWins →
      (∀ d ∈ methodsOf s₁.types site (Access.ofReceiver site.receiver) search
        (site.liveName s₁.types search), d.IsPlain ∧
          (Candidate.ofMethod (some e) args d).isApplicable fuel s₁.types =
            .done (applies d) s₁.types) →
      (methodsOf s₁.types site (Access.ofReceiver site.receiver) search
        (site.liveName s₁.types search)).find? applies = some m →
      m.owner ∈ search ∧ ∃ e', accessLive fuel site s = .done e' s₁ ∧
        e'.accessedOwner? = some m.owner := by
  have hown := hreach.wellOwned
  refine ⟨fun e' s' owner h ho ↦ ?_, fun search applies m hsearch htypeArgs hpolicy hall hfirst ↦ ?_⟩
  · obtain ⟨args', s₁', search, -, -, hargs', hsearch, -⟩ := accessLive_eq_done h
    obtain ⟨rfl, rfl⟩ : args = args' ∧ s₁ = s₁' := by simpa using hargs.symm.trans hargs'
    have hmem := owner_mem_search hreceiver hvalue hargs hown hsearch h ho
    refine ⟨search, hsearch, hmem, ?_, fun n hclosed ↦ hclosed owner hmem⟩
    refine mem_search ?_ htemplate hsearch hmem
    rw [hreceiver, ofReceiver_of_value hvalue]
  · have hm := List.mem_of_find?_eq_some hfirst
    obtain ⟨hplain, happ⟩ := hall m hm
    rw [List.find?_some hfirst] at happ
    exact ⟨owner_mem_of_mem_methodsOf hown hm hplain.not_extension, _,
      accessLive_of_plain hreceiver hvalue hargs hsearch htypeArgs hpolicy (fun d hd ↦ (hall d hd).1)
        (fun d hd ↦ (hall d hd).2) hfirst, accessedOwner?_emit_of_plain hplain happ⟩

def crateItem : TypeId := .ofParam "Crate" "U"

def crate : TypeId := .ofName "Crate"

/-- Makes a template `Crate` derived from the array of its type parameter, and its instance at
`int`. -/
def makeCrate : Attempt Registry RegistrationError TypeId := do
  let item ← registerParam "U" { owner := "Crate", index := 0 }
  let base ← instantiate 4 .array [item]
  let template ← register
    { name := "Crate", id := crate, kind := .classType, base := some base, typeParams := [item] }
  instantiate 4 template [.int]

def crateTypes : Registry := (makeCrate builtin).state?.getD {}

theorem reachable_crateTypes : Reachable TypeDecl.OwnsMembers crateTypes := by
  have hrun : (makeCrate builtin).state?.isSome = true := by decide +kernel
  obtain ⟨r, hr⟩ := Option.isSome_iff_exists.1 hrun
  have hkeeps : Along (Keeps (Reachable TypeDecl.OwnsMembers)) makeCrate := by
    refine Along.bind (fun _ _ h hr ↦ .step hr (.registerParam h)) fun item ↦ ?_
    refine Along.bind (fun _ _ h hr ↦ .step hr (.instantiate h)) fun base ↦ ?_
    refine Along.bind (fun _ _ h hr ↦ .step hr (.register ⟨by simp, by simp, by simp⟩ h))
      fun template ↦ ?_
    exact fun _ _ h hr ↦ .step hr (.instantiate h)
  have hreach := hkeeps _ _ hr .builtin
  rwa [crateTypes, hr]

/-- The use `c.push("no")` of a value `c` of type `Crate<int>`. -/
def pushText : CallSite where
  kind := .ofMethod
  name := "push"
  span := .unknown
  receiver := some (.parameter "c" (.ofInstance crate [.int]))
  args := [pure (.literal (.text "no"))]

def crateState : Reducer := { types := crateTypes, scopes := ⟨{}, []⟩ }

/-- The text does not fit the `push` of the array of integers, and goes to that of the open array. -/
theorem accessLive_owner_pushText :
    Reachable TypeDecl.OwnsMembers crateTypes ∧
      crateTypes.isOpen 5 (.ofInstance crate [.int]) = some false ∧
      crateTypes.typeParams (.ofInstance crate [.int]) = [] ∧
      ∃ e owner, accessLive 6 pushText crateState = .done e crateState ∧
        e.accessedOwner? = some owner ∧ crateTypes.typeParams owner = [] ∧
        crateTypes.isOpen 5 owner = some true := by
  let element : TypeId := .ofInstance .array [crateItem]
  let search : List TypeId := [.ofInstance crate [.int], .ofInstance .array [.int], .object, element]
  have htemplate : crateTypes.typeParams (.ofInstance crate [.int]) = [] := by decide +kernel
  have hsearch : (Access.ofReceiver pushText.receiver).search crateTypes 6 = some search := by
    decide +kernel
  have hall : ∀ d ∈ methodsOf crateTypes pushText (Access.ofReceiver pushText.receiver) search
      (pushText.liveName crateTypes search), (d.isUnboundGeneric = false ∧ d.isVariadic = false ∧
        d.isExtension = false) ∧ ((Candidate.ofMethod pushText.receiver [.literal (.text "no")]
          d).isApplicable 6 crateTypes).value? = some (d.owner == element) := by
    decide +kernel
  have hfirst : ((methodsOf crateTypes pushText (Access.ofReceiver pushText.receiver) search
      (pushText.liveName crateTypes search)).find? (·.owner == element)).isSome = true := by
    decide +kernel
  obtain ⟨m, hm⟩ := Option.isSome_iff_exists.1 hfirst
  have hmo : m.owner = element := by simpa using List.find?_some hm
  obtain ⟨-, hleak⟩ := @accessLive_owner 6 pushText crateState crateState _ _ rfl (by rintro _ _ ⟨⟩)
    rfl reachable_crateTypes htemplate
  obtain ⟨-, e, he, ho⟩ := hleak search (·.owner == element) m hsearch rfl rfl (by
    intro d hd
    obtain ⟨⟨hb, hf, hx⟩, happ⟩ := hall d hd
    obtain ⟨r, hr⟩ := Outcome.exists_done happ
    obtain rfl := (Candidate.along_isApplicable _).of_done hr
    exact ⟨⟨hb, hf, hx⟩, hr⟩) hm
  rw [hmo] at ho
  exact ⟨reachable_crateTypes, by decide +kernel, htemplate, e, element, he, ho, by decide +kernel,
    by decide +kernel⟩

end Reduction

end CallResolution
