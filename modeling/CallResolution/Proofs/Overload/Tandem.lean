import CallResolution.Proofs.Conversion.Agreement
import CallResolution.Proofs.Overload.Stages
import CallResolution.Proofs.Tandem

namespace CallResolution

open Attempt Registry

instance : Cites Candidate := ⟨fun c t ↦ cites c.method t ∨ cites c.args t⟩

/-- What is packed is an argument or the array of the rest parameter. -/
theorem Method.mem_of_packRest {r : Registry} {d : Method} {es packed : List Expr} {e : Expr}
    (h : d.packRest r es = .ok packed) (he : e ∈ packed) :
    e ∈ es ∨ ∃ rest ∈ d.params, e.handles = [rest.type] := by
  unfold Method.packRest at h
  cases hrest : d.restElement r with
  | error cause =>
    rw [hrest] at h
    cases h
  | ok p =>
    obtain ⟨array, element⟩ := p
    obtain ⟨rest, hlast, rfl, -⟩ := Method.restElement_eq_ok_iff.1 hrest
    rw [hrest] at h
    simp only [bind, Except.bind] at h
    split at h
    · cases h
    · cases h
      rcases List.mem_append.1 he with he | he
      · exact .inl (List.take_subset _ _ he)
      · rw [List.mem_singleton.1 he]
        exact .inr ⟨rest, List.mem_of_getLast? hlast, rfl⟩

namespace Registry.Agrees

variable {void : TypeId → Prop} {r s : Registry} {d : Method} {es : List Expr}

theorem restElement (h : Agrees void r s) (hd : ∀ t ∈ d.handles, Accounted void r t) :
    d.restElement s = d.restElement r := by
  unfold Method.restElement
  cases hlast : d.params.getLast? with
  | none => rfl
  | some rest =>
    have hmem : rest.type ∈ d.paramTypes := List.mem_map_of_mem (List.mem_of_getLast? hlast)
    dsimp only
    rw [(h.looksAlike (hd _ (Method.mem_handles_of_mem_paramTypes hmem))).elementType?]

theorem coerce (h : Agrees void r s) {t : TypeId} (ht : Accounted void r t) (e : Expr) :
    s.coerce t e = r.coerce t e := by
  unfold Registry.coerce
  rw [(h.looksAlike ht).signature?]

theorem packRest (h : Agrees void r s) (hd : ∀ t ∈ d.handles, Accounted void r t) :
    d.packRest s es = d.packRest r es := by
  unfold Method.packRest
  rw [h.restElement hd]
  cases hrest : d.restElement r with
  | error e => rfl
  | ok p =>
    obtain ⟨array, element⟩ := p
    obtain ⟨rest, hlast, -, helement⟩ := Method.restElement_eq_ok_iff.1 hrest
    have hitems : ∀ item, s.coerce element item = r.coerce element item :=
      h.coerce (h.closed.elementType? helement)
    simp only [bind, Except.bind, hitems]

theorem emit (h : Agrees void r s) {c : Candidate} (hc : ∀ t ∈ c.method.handles, Accounted void r t) :
    c.emit s = c.emit r := by
  have hargs : (c.args.zip c.method.params).map (fun p ↦ s.coerce p.2.type p.1) =
      (c.args.zip c.method.params).map fun p ↦ r.coerce p.2.type p.1 := by
    refine List.map_congr_left fun p hp ↦ h.coerce (hc _ ?_) p.1
    exact Method.mem_handles_of_mem_paramTypes (List.mem_map_of_mem (List.of_mem_zip hp).2)
  unfold Candidate.emit
  rw [hargs]

theorem best (h : Agrees void r s) (ambiguity : Ambiguity) (span : Span) {cs : List Candidate}
    (hcs : ∀ c ∈ cs, ∀ t ∈ c.method.handles, Accounted void r t) :
    Candidate.best s ambiguity span cs = Candidate.best r ambiguity span cs := by
  unfold Candidate.best
  cases hranked : Candidate.ranked cs with
  | nil => rfl
  | cons c rest =>
    have hdescribe : ∀ c' ∈ c :: rest.takeWhile (·.rank = c.rank),
        Candidate.describe s c' = Candidate.describe r c' := by
      intro c' hc'
      have hmem : c' ∈ c :: rest := by
        rcases List.mem_cons.1 hc' with rfl | hc'
        · exact List.mem_cons_self
        · exact List.mem_cons_of_mem _ (List.takeWhile_subset _ hc')
      rw [← hranked, Candidate.mem_ranked] at hmem
      unfold Candidate.describe
      rw [h.describeAll fun t ht ↦ hcs c' hmem t (Method.mem_handles_of_mem_paramTypes ht)]
    dsimp only
    rw [List.map_congr_left hdescribe]

end Registry.Agrees

namespace Tandem

variable {T : Tandem} {r s : Registry} {m n : Nat} {d : Method} {map : Substitution} {c : Candidate}
  {typeArgs : List TypeId}

theorem Valid.agrees_of_runs (hT : T.Valid m n) (h : T.Runs r s) (hlive : T.live r) :
    Agrees T.void r s := hT.agrees hlive (h hlive)

theorem tracks_mapTypes (hT : T.Valid m n) (h : T.Runs r s) (hmap : T.Knows r map) (hd : T.Knows r d) :
    T.Tracks T.atRegistry r s (d.mapTypes (substitute m map)) (d.mapTypes (substitute n map)) := by
  have hparam : ∀ p ∈ d.params, ∀ r' s', T.Extends r r' s' → T.Tracks T.atRegistry r' s'
      (p.mapTypes (substitute m map)) (p.mapTypes (substitute n map)) := by
    intro p hp r' s' h'
    have ht : T.Knows r p.type := hd.of_subset fun t ht ↦
      Method.mem_handles_of_mem_paramTypes (ht ▸ List.mem_map_of_mem hp)
    exact (hT.substitute h'.runs (hmap.grows h'.grows) (ht.grows h'.grows)).bind
      fun t r'' s'' h'' ht ↦ .pure h''.runs ht
  refine (Tracks.mapM h hparam).bind fun params r₁ s₁ h₁ hparams ↦ ?_
  have hresult : T.Knows r d.result := hd.of_subset fun t ht ↦ ht ▸ d.result_mem_handles
  refine (hT.substitute h₁.runs (hmap.grows h₁.grows) (hresult.grows h₁.grows)).bind
    fun result r₂ s₂ h₂ hresult ↦ .pure h₂.runs fun hlive t ht ↦ ?_
  rcases Method.mem_handles_iff.1 ht with ht | rfl | ht
  · obtain ⟨p, hp, rfl⟩ := List.mem_map.1 ht
    exact (hparams.grows h₂.grows) hlive _ ⟨p, hp, rfl⟩
  · exact hresult hlive _ rfl
  · exact (hd.grows (h₁.trans h₂).grows) hlive t (Method.mem_handles_of_mem_typeParams ht)

theorem tracks_specialize (hT : T.Valid m n) (h : T.Runs r s) (hmap : T.Knows r map)
    (hd : T.Knows r d) : T.Tracks T.atTypes r s (d.specialize m map) (d.specialize n map) := by
  unfold Method.specialize
  cases d.typeParams.mapM map.find? with
  | none => exact .fail h _
  | some args =>
    have hmapped : T.Tracks T.atTypes r s
        (Attempt.mapError .registration (d.mapTypes (substitute m map)))
        (Attempt.mapError .registration (d.mapTypes (substitute n map))) :=
      (tracks_mapTypes hT h hmap hd).mapError rfl fun e _ ↦ ⟨e, rfl⟩
    exact hmapped.bind fun replaced r' s' h' hreplaced ↦ .pure h'.runs hreplaced

theorem tracks_specialize_candidate (hT : T.Valid m n) (h : T.Runs r s) (hmap : T.Knows r map)
    (hc : T.Knows r c) : T.Tracks T.atTypes r s (c.specialize m map) (c.specialize n map) := by
  have hd : T.Knows r c.method := hc.of_subset fun t ↦ .inl
  refine (tracks_specialize hT h hmap hd).bind fun d r' s' h' hd ↦ .pure h'.runs fun hlive t ht ↦ ?_
  rcases ht with ht | ht
  · exact hd hlive t ht
  · exact hc.grows h'.grows hlive t (.inr ht)

theorem tracks_acceptsAll (hT : T.Valid m n) (h : T.Runs r s) {ts : List TypeId} {es : List Expr}
    (hts : T.Knows r ts) (hes : T.Knows r es) :
    T.Tracks T.atTypes r s (.ask (·.acceptsAll m ts es)) (.ask (·.acceptsAll n ts es)) := by
  refine .ask h (fun hlive b hb ↦ ?_) fun b _ ↦ knows_of_not fun t ht ↦ ht
  have haccepts := (hT.agrees_of_runs h hlive).acceptsAll hT.le (fun t ht ↦ hts hlive t ⟨t, ht, rfl⟩)
    fun e he t ht ↦ hes hlive t ⟨e, he, ht⟩
  exact (haccepts b hb).1

theorem tracks_isApplicable (hT : T.Valid m n) (h : T.Runs r s) (hc : T.Knows r c) :
    T.Tracks T.atTypes r s (c.isApplicable m) (c.isApplicable n) := by
  have hfalse : T.Tracks T.atTypes r s (Pure.pure false) (Pure.pure false) :=
    .pure h (knows_of_not fun t ht ↦ ht)
  have hargs : T.Knows r c.args := hc.of_subset fun t ↦ .inr
  have hparams : T.Knows r c.method.paramTypes := hc.of_subset fun t ⟨u, hu, htu⟩ ↦
    .inl (Method.mem_handles_of_mem_paramTypes (htu ▸ hu))
  unfold Candidate.isApplicable
  split
  · exact hfalse
  · split
    · refine .get_bind (.ofExcept_bind h (fun hlive ↦ ?_) fun p hok ↦ ?_)
      · exact (hT.agrees_of_runs h hlive).restElement fun t ht ↦ hc hlive t (.inl ht)
      · obtain ⟨array, element⟩ := p
        obtain ⟨rest, -, -, helement⟩ := Method.restElement_eq_ok_iff.1 hok
        dsimp only
        split
        · exact hfalse
        · refine tracks_acceptsAll hT h (knows_list_iff.2 ?_) hargs
          refine List.forall_mem_append.2 ⟨fun t ht ↦ ?_, fun t ht hlive u hu ↦ ?_⟩
          · exact knows_list_iff.1 hparams t (List.dropLast_subset _ ht)
          · rw [hu, (List.mem_replicate.1 ht).2]
            exact (hT.agrees_of_runs h hlive).closed.elementType? helement
    · split
      · exact hfalse
      · exact tracks_acceptsAll hT h hparams hargs

theorem tracks_bindExplicit (hT : T.Valid m n) (h : T.Runs r s) (htypeArgs : T.Knows r typeArgs)
    (hc : T.Knows r c) :
    T.Tracks T.atTypes r s (c.bindExplicit m typeArgs) (c.bindExplicit n typeArgs) := by
  have hnone : T.Tracks T.atTypes r s (Pure.pure (none : Option Candidate)) (Pure.pure none) :=
    .pure h knows_none
  unfold Candidate.bindExplicit
  dsimp only
  split
  · exact hnone
  · refine .ask_bind (fun hlive b hb ↦ ?_) fun b _ ↦ ?_
    · have hsatisfies := Echoes.allM fun p hp ↦ (hT.agrees_of_runs h hlive).satisfies hT.le
        (hc hlive _ (.inl (Method.mem_handles_of_mem_typeParams (List.of_mem_zip hp).1)))
        (htypeArgs hlive _ ⟨_, (List.of_mem_zip hp).2, rfl⟩)
      exact (hsatisfies b hb).1
    · cases b with
      | false => exact hnone
      | true =>
        refine .ofExcept_bind h (fun _ ↦ rfl) fun map hok ↦ ?_
        have hmap : T.Knows r map := by
          rintro hlive t ⟨u, hu⟩
          unfold Substitution.ofArgs at hok
          split at hok
          · cases hok
          · cases hok
            have hmem := (List.of_mem_zip (Dictionary.mem_of_find?_ofList hu)).2
            exact htypeArgs hlive t ⟨t, hmem, rfl⟩
        refine (tracks_specialize_candidate hT h hmap hc).bind fun c r' s' h' hc ↦ .pure h'.runs ?_
        exact hc.some

theorem knows_filterMap {os : List (Option Candidate)} (h : T.Knows r os) :
    T.Knows r (os.filterMap id) := by
  refine h.of_subset fun t ⟨c, hc, ht⟩ ↦ ?_
  obtain ⟨o, ho, rfl⟩ := List.mem_filterMap.1 hc
  exact ⟨_, ho, c, rfl, ht⟩

theorem tracks_bindTypeArgs (hT : T.Valid m n) (h : T.Runs r s) (htypeArgs : T.Knows r typeArgs)
    {cs : List Candidate} (hcs : T.Knows r cs) :
    T.Tracks T.atTypes r s (Candidate.bindTypeArgs m typeArgs cs)
      (Candidate.bindTypeArgs n typeArgs cs) := by
  unfold Candidate.bindTypeArgs
  split
  · exact .pure h hcs
  · refine (Tracks.mapM h fun c hc r' s' h' ↦ ?_).bind fun os r' s' h' hos ↦
      .pure h'.runs (knows_filterMap hos)
    exact tracks_bindExplicit hT h'.runs (htypeArgs.grows h'.grows)
      ((knows_list_iff.1 hcs c hc).grows h'.grows)

theorem tracks_bindInferred (hT : T.Valid m n) (h : T.Runs r s) (hc : T.Knows r c) :
    T.Tracks T.atTypes r s (c.bindInferred m) (c.bindInferred n) := by
  have hinfer (hlive : T.live r) := (hT.agrees_of_runs h hlive).infer hT.le
    (fun t ht ↦ hc hlive t (.inl ht)) fun e he t ht ↦ hc hlive t (.inr ⟨e, he, ht⟩)
  refine .ask_bind (fun hlive found hfound ↦ (hinfer hlive found hfound).1) fun found hfound ↦ ?_
  cases found with
  | none => exact .pure h knows_none
  | some map =>
    have hmap : T.Knows r map := fun hlive t ⟨u, hu⟩ ↦ (hinfer hlive _ hfound).2 map rfl u t hu
    refine (tracks_specialize_candidate hT h hmap hc).bind fun c r₁ s₁ h₁ hc ↦ ?_
    refine (tracks_isApplicable hT h₁.runs hc).bind fun b r₂ s₂ h₂ _ ↦ ?_
    cases b with
    | false => exact .pure h₂.runs knows_none
    | true => exact .pure h₂.runs (hc.grows h₂.grows).some

theorem tracks_settle (hT : T.Valid m n) (h : T.Runs r s) (hc : T.Knows r c) :
    T.Tracks T.atTypes r s (c.settle m) (c.settle n) := by
  refine (tracks_isApplicable hT h hc).bind fun b r' s' h' _ ↦ ?_
  have hc' := hc.grows h'.grows
  cases b with
  | false => exact .pure h'.runs knows_none
  | true =>
    rw [if_pos rfl, if_pos rfl]
    split
    · exact tracks_bindInferred hT h'.runs hc'
    · exact .pure h'.runs hc'.some

theorem tracks_pack (hT : T.Valid m n) (h : T.Runs r s) (hc : T.Knows r c) :
    T.Tracks T.atTypes r s c.pack c.pack := by
  unfold Candidate.pack
  split
  · refine .get_bind (.ofExcept_bind h (fun hlive ↦ ?_) fun packed hok ↦ .pure h fun hlive t ht ↦ ?_)
    · exact (hT.agrees_of_runs h hlive).packRest fun t ht ↦ hc hlive t (.inl ht)
    · rcases ht with ht | ⟨e, he, ht⟩
      · exact hc hlive t (.inl ht)
      · rcases Method.mem_of_packRest hok he with he | ⟨rest, hrest, hhandles⟩
        · exact hc hlive t (.inr ⟨e, he, ht⟩)
        · have ht : t ∈ e.handles := ht
          rw [hhandles, List.mem_singleton] at ht
          have hmem : rest.type ∈ c.method.paramTypes := List.mem_map_of_mem hrest
          exact hc hlive t (.inl (ht ▸ Method.mem_handles_of_mem_paramTypes hmem))
  · exact .pure h hc

theorem knows_ofMethod {receiver : Option Expr} {args : List Expr} (hreceiver : T.Knows r receiver)
    (hargs : T.Knows r args) (hd : T.Knows r d) : T.Knows r (Candidate.ofMethod receiver args d) := by
  intro hlive t ht
  unfold Candidate.ofMethod at ht
  split at ht
  · rcases ht with ht | ⟨e, he, ht⟩
    · exact hd hlive t ht
    · rcases List.mem_append.1 he with he | he
      · exact hreceiver hlive t ⟨e, Option.mem_toList.1 he, ht⟩
      · exact hargs hlive t ⟨e, he, ht⟩
  · rcases ht with ht | ht
    · exact hd hlive t ht
    · exact hargs hlive t ht

theorem knows_emit (hc : T.Knows r c) : T.Knows r (c.emit r) := by
  refine hc.of_subset fun t ht ↦ .inl ?_
  have ht : t ∈ (c.emit r).handles := ht
  unfold Candidate.emit at ht
  dsimp only at ht
  split at ht
  · rw [List.mem_singleton.1 ht]
    exact c.method.result_mem_handles
  · rw [List.mem_singleton.1 ht]
    exact c.method.result_mem_handles

/-- The choice among overloads is made alike in both runs. -/
theorem tracks_dispatch (hT : T.Valid m n) (h : T.Runs r s) (ambiguity : Ambiguity) (span : Span)
    {receiver : Option Expr} {members : List Method} {args : List Expr}
    (hreceiver : T.Knows r receiver) (hmembers : T.Knows r members) (htypeArgs : T.Knows r typeArgs)
    (hargs : T.Knows r args) :
    T.Tracks T.atTypes r s (dispatch m ambiguity span receiver members typeArgs args)
      (dispatch n ambiguity span receiver members typeArgs args) := by
  have hcandidates : T.Knows r (members.map (Candidate.ofMethod receiver args)) := by
    refine knows_list_iff.2 fun c hc ↦ ?_
    obtain ⟨d, hd, rfl⟩ := List.mem_map.1 hc
    exact knows_ofMethod hreceiver hargs (knows_list_iff.1 hmembers d hd)
  refine (tracks_bindTypeArgs hT h htypeArgs hcandidates).bind fun bound r₁ s₁ h₁ hbound ↦ ?_
  refine (Tracks.mapM h₁.runs fun c hc r' s' h' ↦ ?_).bind fun settled r₂ s₂ h₂ hsettled ↦ ?_
  · exact tracks_settle hT h'.runs ((knows_list_iff.1 hbound c hc).grows h'.grows)
  have hkept := knows_list_iff.1 (knows_filterMap hsettled)
  refine (Tracks.mapM h₂.runs fun c hc r' s' h' ↦ ?_).bind fun packed r₃ s₃ h₃ hpacked ↦ .get_bind ?_
  · exact tracks_pack hT h'.runs ((hkept c hc).grows h'.grows)
  have hpacked := knows_list_iff.1 hpacked
  refine .ofExcept_bind h₃.runs (fun hlive ↦ ?_) fun found hbest ↦ ?_
  · exact (hT.agrees_of_runs h₃.runs hlive).best ambiguity span fun c hc t ht ↦
      hpacked c hc hlive t (.inl ht)
  · cases found with
    | none => exact .pure h₃.runs knows_none
    | some c =>
      have hc := hpacked c (Candidate.mem_of_best hbest)
      refine (Tracks.pure (V := T.atTypes) h₃.runs (knows_emit hc).some).congr_right fun hlive ↦ ?_
      have hemit : c.emit s₃ = c.emit r₃ :=
        (hT.agrees_of_runs h₃.runs hlive).emit fun t ht ↦ hc hlive t (.inl ht)
      rw [← hemit]

end Tandem

end CallResolution
