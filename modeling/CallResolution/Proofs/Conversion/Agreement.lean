import CallResolution.Overload.Dispatch
import CallResolution.Proofs.Conversion.CommonGround
import CallResolution.Proofs.Generic.Inference
import CallResolution.Proofs.Registry.Accounted
import CallResolution.Proofs.Scope.Match

namespace CallResolution

variable {void : TypeId → Prop} {r s : Registry} {m n : Nat} {t param arg : TypeId}
  {ts args : List TypeId}

namespace Registry

namespace Agrees

variable (h : Agrees void r s)

include h

theorem commonGround : CommonGround (Accounted void r) r s where
  find? := h.find?
  object := h.closed.object
  neighbours t _ u hu := by
    rcases mem_neighbours_iff.1 hu with hu | hu | hu | hu
    · exact h.closed.base? hu
    · exact h.closed.interfaces hu
    · exact h.closed.template? hu
    · exact h.closed.typeArgs hu

theorem looksAlike (ht : Accounted void r t) : LooksAlike r s t := h.commonGround.looksAlike ht

theorem isOpen (hmn : m ≤ n) (ht : Accounted void r t) :
    Echoes (fun _ ↦ True) (r.isOpen m t) (s.isOpen n t) :=
  h.commonGround.isOpen hmn ht

theorem convertible (hmn : m ≤ n) (ht : Accounted void r t) :
    Echoes (fun types ↦ ∀ u ∈ types, Accounted void r u) (r.convertible m t) (s.convertible n t) :=
  h.commonGround.convertible hmn ht

theorem satisfies (hmn : m ≤ n) (hp : Accounted void r param) (ha : Accounted void r arg) :
    Echoes (fun _ ↦ True) (r.satisfies m param arg) (s.satisfies n param arg) :=
  h.commonGround.satisfies hmn hp ha

theorem accepts (hmn : m ≤ n) (hp : Accounted void r param) (ha : Accounted void r arg) :
    Echoes (fun _ ↦ True) (r.accepts m param arg) (s.accepts n param arg) :=
  h.commonGround.accepts hmn hp ha

theorem position (hmn : m ≤ n) (types : List TypeId) {target : TypeId} (ht : Accounted void r t)
    (htarget : Accounted void r target) :
    Echoes (fun _ ↦ True) (r.position m types t target) (s.position n types t target) :=
  h.commonGround.position hmn types ht htarget

theorem acceptsExpr (hmn : m ≤ n) (hp : Accounted void r param) {e : Expr}
    (he : ∀ t ∈ e.handles, Accounted void r t) :
    Echoes (fun _ ↦ True) (r.acceptsExpr m param e) (s.acceptsExpr n param e) := by
  have htype := he _ e.type_mem_handles
  unfold Registry.acceptsExpr
  rw [(h.looksAlike hp).signature?]
  split
  · rename_i params body t signature hsig
    have hsig : ∀ u ∈ signature.mentioned, Accounted void r u := fun u hu ↦ h.closed.signature? hsig hu
    have hparams : ∀ u ∈ params.map Param.type, Accounted void r u := fun u hu ↦
      he u (List.mem_cons_of_mem _ (List.mem_cons_of_mem _ hu))
    have hbody : Accounted void r body.type := he _ (List.mem_cons_of_mem _ List.mem_cons_self)
    split
    · exact .some trivial
    · have hmatched : Echoes (fun _ ↦ True)
          ((signature.params.zip params).allM fun p ↦
            if p.1 = p.2.type then some true
            else if r.isParam p.1 then r.accepts m p.1 p.2.type else some false)
          ((signature.params.zip params).allM fun p ↦
            if p.1 = p.2.type then some true
            else if s.isParam p.1 then s.accepts n p.1 p.2.type else some false) := by
        refine .allM fun p hmem ↦ ?_
        have hexpected := hsig p.1 (List.mem_append_left _ (List.of_mem_zip hmem).1)
        have hactual := hparams p.2.type (List.mem_map_of_mem (List.of_mem_zip hmem).2)
        rw [(h.looksAlike hexpected).isParam]
        split
        · exact .some trivial
        · split
          · exact h.accepts hmn hexpected hactual
          · exact .some trivial
      refine hmatched.bind fun b _ ↦ ?_
      cases b with
      | true => exact h.accepts hmn (hsig _ (List.mem_append_right _ List.mem_cons_self)) hbody
      | false => exact .some trivial
  · exact h.accepts hmn hp htype

theorem acceptsAll (hmn : m ≤ n) {es : List Expr} (hts : ∀ t ∈ ts, Accounted void r t)
    (hes : ∀ e ∈ es, ∀ t ∈ e.handles, Accounted void r t) :
    Echoes (fun _ ↦ True) (r.acceptsAll m ts es) (s.acceptsAll n ts es) := by
  refine .allM fun p hp ↦ h.acceptsExpr hmn (hts p.1 ?_) (hes p.2 ?_)
  · exact (List.of_mem_zip hp).1
  · exact (List.of_mem_zip hp).2

theorem instanceOf (hmn : m ≤ n) (template : TypeId) (ha : Accounted void r arg) :
    Echoes (fun found ↦ ∀ t ∈ found.toList, Accounted void r t) (r.instanceOf m template arg)
      (s.instanceOf n template arg) := by
  refine (h.convertible hmn ha).bind fun types htypes ↦ ?_
  induction types with
  | nil => exact .some (by simp)
  | cons t types ih =>
    have htest : ∀ u ∈ t :: types, Echoes (fun _ ↦ True)
        (do return !(← r.isOpen m u) && r.template? u == some template)
        (do return !(← s.isOpen n u) && s.template? u == some template) := by
      intro u hu
      rw [(h.looksAlike (htypes u hu)).template?]
      exact (h.isOpen hmn (htypes u hu)).bind fun _ _ ↦ .some trivial
    obtain ⟨ht, hts⟩ := List.forall_mem_cons.1 htest
    obtain ⟨hat, hats⟩ := List.forall_mem_cons.1 htypes
    rw [onlyOne, onlyOne]
    refine ht.bind fun b _ ↦ ?_
    cases b with
    | false => exact ih hats
    | true =>
      refine (Echoes.anyM hts).bind fun b _ ↦ ?_
      cases b with
      | true => exact .some (by simp)
      | false => exact .some (by simpa using hat)

theorem pairTypes (hmn : m ≤ n) (hp : Accounted void r param) (ha : Accounted void r arg) :
    Echoes (fun pairs ↦ ∀ p ∈ pairs, Accounted void r p.2) (r.pairTypes m param arg)
      (s.pairTypes n param arg) := by
  induction m generalizing n param arg with
  | zero => exact .none _
  | succ m ih =>
    cases n with
    | zero => omega
    | succ n =>
      have hmn : m ≤ n := by omega
      have hlook := h.looksAlike hp
      rw [Registry.pairTypes, Registry.pairTypes, hlook.isParam, hlook.template?, hlook.typeArgs]
      split
      · exact .some (by simpa using ha)
      · refine (h.isOpen hmn hp).bind fun b _ ↦ ?_
        cases b with
        | false => exact .some (by simp)
        | true =>
          simp only [if_true]
          cases htemplate : r.template? param with
          | none => exact .some (by simp)
          | some template =>
            refine (h.instanceOf hmn template ha).bind fun found hfound ↦ ?_
            cases found with
            | none => exact .some (by simp)
            | some found =>
              dsimp only
              rw [(h.looksAlike (hfound found (by simp))).typeArgs]
              refine (Echoes.mapM fun p hmem ↦ ih hmn ?_ ?_).bind fun pairs hpairs ↦ .some ?_
              · exact h.closed.typeArgs (List.of_mem_zip hmem).1
              · exact h.closed.typeArgs (List.of_mem_zip hmem).2
              · intro p hmem
                obtain ⟨ps, hps, hmem⟩ := List.mem_flatten.1 hmem
                exact hpairs ps hps p hmem

theorem pairExpr (hmn : m ≤ n) (hp : Accounted void r param) {e : Expr}
    (he : ∀ t ∈ e.handles, Accounted void r t) :
    Echoes (fun pairs ↦ ∀ p ∈ pairs, Accounted void r p.2) (r.pairExpr m param e)
      (s.pairExpr n param e) := by
  have htype := he _ e.type_mem_handles
  unfold Registry.pairExpr
  rw [(h.looksAlike hp).signature?]
  split
  · rename_i params body t signature hsig
    have hsig : ∀ u ∈ signature.mentioned, Accounted void r u := fun u hu ↦ h.closed.signature? hsig hu
    have hparams : ∀ u ∈ params.map Param.type, Accounted void r u := fun u hu ↦
      he u (List.mem_cons_of_mem _ (List.mem_cons_of_mem _ hu))
    have hbody : Accounted void r body.type := he _ (List.mem_cons_of_mem _ List.mem_cons_self)
    refine (Echoes.mapM fun p hmem ↦ h.pairTypes hmn ?_ ?_).bind fun pairs hpairs ↦ ?_
    · exact hsig _ (List.mem_append_left _ (List.of_mem_zip hmem).1)
    · exact hparams _ (List.mem_map_of_mem (List.of_mem_zip hmem).2)
    · have hresult := hsig _ (List.mem_append_right _ List.mem_cons_self)
      refine (h.pairTypes hmn hresult hbody).bind fun rest hrest ↦ .some ?_
      refine List.forall_mem_append.2 ⟨fun p hmem ↦ ?_, hrest⟩
      obtain ⟨ps, hps, hmem⟩ := List.mem_flatten.1 hmem
      exact hpairs ps hps p hmem
  · exact h.pairTypes hmn hp htype

theorem receiverFit (hmn : m ≤ n) (types : List TypeId) {entry query : Option TypeId}
    (hentry : ∀ t ∈ entry.toList, Accounted void r t) (hquery : ∀ t ∈ query.toList, Accounted void r t) :
    Echoes (fun _ ↦ True) (r.receiverFit m types entry query) (s.receiverFit n types entry query) := by
  cases entry with
  | none => exact .some trivial
  | some entry =>
    cases query with
    | none => exact .some trivial
    | some query =>
      have hentry := hentry entry (by simp)
      have hquery := hquery query (by simp)
      rw [Registry.receiverFit, Registry.receiverFit]
      split
      · exact .some trivial
      · refine (h.position hmn types hquery hentry).bind fun i _ ↦ ?_
        cases i with
        | some i => exact .some trivial
        | none =>
          dsimp only
          rw [(h.looksAlike hentry).staticTarget?, (h.looksAlike hquery).staticTarget?]
          split
          · rename_i entryTarget queryTarget he hq
            have he := h.closed.staticTarget? he
            have hq := h.closed.staticTarget? hq
            split
            · exact .some trivial
            · refine (h.convertible hmn hq).bind fun wrapped _ ↦ ?_
              exact (h.position hmn wrapped hq he).bind fun _ _ ↦ .some trivial
          · exact .some trivial

end Agrees

end Registry

open Registry

namespace Registry.Agrees

variable {α : Type} (h : Agrees void r s)

include h

theorem closestMatch (hmn : m ≤ n) {query : SymbolKey} {c : Scope α}
    (hquery : ∀ t ∈ query.receiver.toList, Accounted void r t)
    (hc : ∀ e ∈ c.entries, ∀ t ∈ e.1.receiver.toList, Accounted void r t) :
    Echoes (fun _ ↦ True) (c.closestMatch r m query) (c.closestMatch s n query) := by
  have htypes : Echoes (fun _ ↦ True) (Scope.receiverTypes r m query.receiver)
      (Scope.receiverTypes s n query.receiver) := by
    cases hq : query.receiver with
    | none => exact .some trivial
    | some t =>
      intro types ht
      exact ⟨(h.convertible hmn (hquery t (by simp [hq])) types ht).1, trivial⟩
  rw [Scope.closestMatch_eq, Scope.closestMatch_eq]
  refine htypes.bind fun types _ ↦ ?_
  refine (Echoes.mapM (Q := fun _ ↦ True) fun e he ↦ ?_).bind fun fits _ ↦ .some trivial
  have hentry := hc e (List.mem_filter.1 he).1
  exact (h.receiverFit hmn types hentry hquery).bind fun _ _ ↦ .some trivial

theorem chainClosestMatch (hmn : m ≤ n) {query : SymbolKey} {c : ScopeChain α}
    (hquery : ∀ t ∈ query.receiver.toList, Accounted void r t)
    (hc : ∀ scope ∈ c.toList, ∀ e ∈ scope.entries, ∀ t ∈ e.1.receiver.toList, Accounted void r t) :
    Echoes (fun _ ↦ True) (c.closestMatch r m query) (c.closestMatch s n query) := by
  unfold ScopeChain.closestMatch
  generalize c.toList = scopes at hc
  induction scopes with
  | nil => exact .some trivial
  | cons scope scopes ih =>
    obtain ⟨hscope, hscopes⟩ := List.forall_mem_cons.1 hc
    rw [firstMatch, firstMatch]
    refine (h.closestMatch hmn hquery hscope).bind fun found _ ↦ ?_
    cases found with
    | some e => exact .some trivial
    | none => exact ih hscopes

theorem expectedTypes {d : Method} (hd : ∀ t ∈ d.handles, Accounted void r t) (count : Nat) :
    d.expectedTypes s count = d.expectedTypes r count ∧
      ∀ ts, d.expectedTypes r count = some ts → ∀ t ∈ ts, Accounted void r t := by
  have hparams : ∀ t ∈ d.paramTypes, Accounted void r t := fun t ht ↦
    hd t (Method.mem_handles_of_mem_paramTypes ht)
  unfold Method.expectedTypes
  split
  · cases hlast : d.paramTypes.getLast? with
    | none => exact ⟨rfl, by simp⟩
    | some rest =>
      have hrest := hparams rest (List.mem_of_getLast? hlast)
      simp only [Option.bind_eq_bind, Option.bind_some]
      rw [(h.looksAlike hrest).elementType?]
      refine ⟨rfl, fun ts hts ↦ ?_⟩
      obtain ⟨element, helement, hts⟩ := Option.bind_eq_some_iff.1 hts
      split at hts
      · cases hts
      · cases hts
        refine List.forall_mem_append.2 ⟨fun t ht ↦ hparams t (List.dropLast_subset _ ht), ?_⟩
        intro t ht
        rw [(List.mem_replicate.1 ht).2]
        exact h.closed.elementType? helement
  · refine ⟨rfl, ?_⟩
    rintro ts ⟨⟩
    exact hparams

theorem fits (hmn : m ≤ n) {map : Substitution} (hmap : ∀ t b, map.find? t = some b → Accounted void r b)
    (hts : ∀ t ∈ ts, Accounted void r t) :
    Echoes (fun _ ↦ True) (map.fits r m ts) (map.fits s n ts) := by
  refine .allM fun t ht ↦ ?_
  cases hb : map.find? t with
  | none => exact .some trivial
  | some b => exact h.satisfies hmn (hts t ht) (hmap t b hb)

theorem infer (hmn : m ≤ n) {d : Method} {es : List Expr} (hd : ∀ t ∈ d.handles, Accounted void r t)
    (hes : ∀ e ∈ es, ∀ t ∈ e.handles, Accounted void r t) :
    Echoes (fun found ↦ ∀ map, found = some map → ∀ t b, map.find? t = some b → Accounted void r b)
      (d.infer r m es) (d.infer s n es) := by
  obtain ⟨hexpected, htypes⟩ := h.expectedTypes hd es.length
  unfold Method.infer
  rw [hexpected]
  cases hts : d.expectedTypes r es.length with
  | none => exact .some (by simp)
  | some ts =>
    have htypes := htypes ts hts
    refine (Echoes.mapM fun p hmem ↦ h.pairExpr hmn ?_ ?_).bind fun pairs hpairs ↦ ?_
    · exact htypes p.1 (List.of_mem_zip hmem).1
    · exact hes p.2 (List.of_mem_zip hmem).2
    · cases hbind : Substitution.bindAll ∅ (pairs.flatten.filter (·.1 ∈ d.typeParams)) with
      | none => exact .some (by simp)
      | some map =>
        have hmap : ∀ t b, map.find? t = some b → Accounted void r b := by
          intro t b hb
          rcases Substitution.mem_of_bindAll hbind hb with hb | hb
          · cases hb
          · obtain ⟨ps, hps, hmem⟩ := List.mem_flatten.1 (List.mem_filter.1 hb).1
            exact hpairs ps hps _ hmem
        refine (h.fits hmn hmap fun t ht ↦ hd t (Method.mem_handles_of_mem_typeParams ht)).bind
          fun b _ ↦ .some ?_
        cases b with
        | false => simp
        | true =>
          rintro _ ⟨⟩
          exact hmap

end Registry.Agrees

end CallResolution
