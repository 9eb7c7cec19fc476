import CallResolution.Proofs.Identity
import CallResolution.Proofs.Registry.Failure
import Mathlib.Data.Fintype.Card
import Mathlib.Data.Set.Finite.Lemmas
import Mathlib.Logic.Relation
import Mathlib.Order.WellFounded

namespace CallResolution

open Attempt Relation

instance : Finite TypeId := by
  refine Finite.of_injective (fun t ↦ t.bits.toFin) ?_
  intro t u h
  obtain ⟨t⟩ := t
  obtain ⟨u⟩ := u
  have hbits : t = u := UInt64.toFin_inj.1 h
  rw [hbits]

namespace Registry

variable {r r' : Registry} {fuel : Nat} {map : Substitution} {t template target : TypeId}
  {args : List TypeId} {d : TypeDecl}

theorem staticWrapper_ne_exhausted (target : TypeId) (r : Registry) :
    staticWrapper target r ≠ .exhausted := by
  cases hc : r.contains (.ofStatic target) with
  | true => simp [staticWrapper_of_known hc]
  | false =>
    cases hn : r.name? target with
    | none => simp [staticWrapper_of_unknown hc hn]
    | some name => simp [staticWrapper_of_new hc hn]

/-- What instantiation may ask for on its way. -/
inductive Call
  | substitute (map : Substitution) (t : TypeId)
  | instantiate (template : TypeId) (args : List TypeId)

def Call.run (fuel : Nat) : Call → Attempt Registry RegistrationError TypeId
  | substitute map t => Registry.substitute fuel map t
  | instantiate template args => Registry.instantiate fuel template args

/-- To some nesting depth the call comes to an end. -/
def Ends (c : Call × Registry) : Prop := ∃ fuel, c.1.run fuel c.2 ≠ .exhausted

/-- Each call is followed by those that it makes itself, in the state in which it makes them. -/
inductive Makes : Call × Registry → Call × Registry → Prop
  | target {r : Registry} {map : Substitution} {t target : TypeId} (hmap : map.find? t = none)
      (hs : r.staticTarget? t = some target) :
      Makes (.substitute map t, r) (.substitute map target, r)
  | argument {r r' : Registry} {map : Substitution} {t template a : TypeId} {fuel : Nat}
      {before after vs : List TypeId} (hmap : map.find? t = none) (hs : r.staticTarget? t = none)
      (ht : r.template? t = some template) (hargs : r.typeArgs t = before ++ a :: after)
      (hbefore : before.mapM (substitute fuel map) r = .done vs r') :
      Makes (.substitute map t, r) (.substitute map a, r')
  | replaced {r r' : Registry} {map : Substitution} {t template : TypeId} {fuel : Nat}
      {vs : List TypeId} (hmap : map.find? t = none) (hs : r.staticTarget? t = none)
      (ht : r.template? t = some template)
      (hargs : (r.typeArgs t).mapM (substitute fuel map) r = .done vs r') (hvs : vs ≠ r.typeArgs t) :
      Makes (.substitute map t, r) (.instantiate template vs, r')
  | mention {r r' : Registry} {template t : TypeId} {args : List TypeId} {d : TypeDecl} {fuel : Nat}
      {before after vs : List TypeId} (hnew : NewInstance r template d args)
      (hd : d.mentioned = before ++ t :: after)
      (hbefore : before.mapM (substitute fuel (.ofList (d.typeParams.zip args)))
        (r.insertInstance (r.instanceHeader d template args)) = .done vs r') :
      Makes (.instantiate template args, r) (.substitute (.ofList (d.typeParams.zip args)) t, r')

theorem instantiate_ne_exhausted_iff (hnew : NewInstance r template d args) :
    instantiate (fuel + 1) template args r ≠ .exhausted ↔
      mentionedAt fuel d args (r.insertInstance (r.instanceHeader d template args)) ≠ .exhausted := by
  rw [instantiate_of_new hnew]
  cases mentionedAt fuel d args (r.insertInstance (r.instanceHeader d template args)) <;> simp

theorem ends_substitute (h : ∀ c, Makes (.substitute map t, r) c → Ends c) :
    Ends (.substitute map t, r) := by
  cases hmap : map.find? t with
  | some b => exact ⟨1, by simp [Call.run, substitute_of_bound hmap]⟩
  | none =>
    cases hs : r.staticTarget? t with
    | some target =>
      obtain ⟨n, hn⟩ := h _ (.target hmap hs)
      refine ⟨n + 1, ?_⟩
      rw [Call.run, substitute_of_static hmap hs, bind_ne_exhausted_iff]
      refine ⟨hn, ?_⟩
      intro v r' _
      split
      · simp [pure_apply]
      · exact staticWrapper_ne_exhausted v r'
    | none =>
      cases ht : r.template? t with
      | none => exact ⟨1, by simp [Call.run, substitute_of_plain hmap hs ht]⟩
      | some template =>
        have hargs : ∃ n, (r.typeArgs t).mapM (substitute n map) r ≠ .exhausted := by
          apply exists_mapM_ne_exhausted (deepens_substitute map)
          intro before a after vs r' n hsplit hbefore
          exact h _ (.argument hmap hs ht hsplit hbefore)
        obtain ⟨n, hn⟩ := hargs
        cases hrun : (r.typeArgs t).mapM (substitute n map) r with
        | exhausted => exact absurd hrun hn
        | failed e r' =>
          refine ⟨n + 1, ?_⟩
          rw [Call.run, substitute_of_instance hmap hs ht, bind_ne_exhausted_iff, hrun]
          exact ⟨by simp, by simp⟩
        | done vs r' =>
          by_cases hvs : vs = r.typeArgs t
          · refine ⟨n + 1, ?_⟩
            rw [Call.run, substitute_of_instance hmap hs ht, bind_ne_exhausted_iff, hrun]
            refine ⟨by simp, ?_⟩
            intro vs' r'' hdone
            cases hdone
            rw [if_pos hvs]
            simp [pure_apply]
          · obtain ⟨m, hm⟩ := h _ (.replaced hmap hs ht hrun hvs)
            refine ⟨max m n + 1, ?_⟩
            rw [Call.run, substitute_of_instance hmap hs ht, bind_ne_exhausted_iff,
              (Deepens.mapM (deepens_substitute map n _ (Nat.le_max_right m n)) _).done hrun]
            refine ⟨by simp, ?_⟩
            intro vs' r'' hdone
            cases hdone
            rw [if_neg hvs, (deepens_of_le (Nat.le_max_left m n)).2 template vs r' hm]
            exact hm

theorem ends_instantiate (h : ∀ c, Makes (.instantiate template args, r) c → Ends c) :
    Ends (.instantiate template args, r) := by
  rcases known_or_refused_or_new r template args with hk | ⟨e, hrefused⟩ | ⟨d, hnew⟩
  · exact ⟨1, by simp [Call.run, instantiate_of_known hk]⟩
  · exact ⟨1, by simp [Call.run, instantiate_of_refused hrefused]⟩
  · have hwalk : ∃ n, mentionedAt n d args (r.insertInstance (r.instanceHeader d template args)) ≠
        .exhausted := by
      apply exists_mapM_ne_exhausted (deepens_substitute (.ofList (d.typeParams.zip args)))
      intro before t after vs r' n hsplit hbefore
      exact h _ (.mention hnew hsplit hbefore)
    obtain ⟨n, hn⟩ := hwalk
    exact ⟨n + 1, (instantiate_ne_exhausted_iff hnew).2 hn⟩

/-- A call ends if all calls that it makes do. -/
theorem ends_of_makes {c : Call × Registry} (h : ∀ c', Makes c c' → Ends c') : Ends c := by
  obtain ⟨c | c, r⟩ := c
  · exact ends_substitute h
  · exact ends_instantiate h

/-- The calls that a call makes go less deep than it does. -/
theorem Makes.ne_exhausted {c c' : Call × Registry} (h : Makes c c')
    (hc : c.1.run (fuel + 1) c.2 ≠ .exhausted) : c'.1.run fuel c'.2 ≠ .exhausted := by
  cases h with
  | target hmap hs =>
    rw [Call.run, substitute_of_static hmap hs, bind_ne_exhausted_iff] at hc
    exact hc.1
  | argument hmap hs ht hargs hbefore =>
    rw [Call.run, substitute_of_instance hmap hs ht, bind_ne_exhausted_iff, hargs] at hc
    exact ne_exhausted_of_mapM (deepens_substitute _) hc.1 hbefore
  | replaced hmap hs ht hargs hvs =>
    rename_i r r' map t template n vs
    rw [Call.run, substitute_of_instance hmap hs ht, bind_ne_exhausted_iff] at hc
    have hmake := hc.2 vs r' (mapM_agree (deepens_substitute map) hargs hc.1)
    rwa [if_neg hvs] at hmake
  | mention hnew hd hbefore =>
    rw [Call.run, instantiate_ne_exhausted_iff hnew] at hc
    unfold mentionedAt at hc
    rw [hd] at hc
    exact ne_exhausted_of_mapM (deepens_substitute _) hc hbefore

theorem ends_of_acc {c : Call × Registry} (h : Acc (fun c' c ↦ Makes c c') c) : Ends c := by
  induction h with
  | intro c _ ih => exact ends_of_makes ih

theorem acc_of_ends {c : Call × Registry} (h : Ends c) : Acc (fun c' c ↦ Makes c c') c := by
  obtain ⟨fuel, h⟩ := h
  induction fuel generalizing c with
  | zero =>
    obtain ⟨c | c, r⟩ := c <;> exact absurd rfl h
  | succ fuel ih =>
    apply Acc.intro
    intro c' hc'
    exact ih (hc'.ne_exhausted h)

/-! Along the calls the known types become more, except between substitutions in a type and in one of
its parts. There are only so many types, so whatever does not end comes back to where it was. -/

/-- A new instance is known before the types that its template mentions are asked for. -/
theorem known_ssubset_of_makes {c : Call × Registry} (h : Makes (.instantiate template args, r) c) :
    r.known ⊂ c.2.known := by
  cases h with
  | mention hnew hd hbefore =>
    have hgains := (gains_mapM _ _ _).of_done hbefore
    exact (known_ssubset_insertInstance hnew.unknown).trans_subset hgains.known_subset

theorem Makes.gains {c c' : Call × Registry} (h : Makes c c') : Gains c.2 c'.2 := by
  cases h with
  | target hmap hs => exact refl _
  | argument hmap hs ht hargs hbefore => exact (gains_mapM _ _ _).of_done hbefore
  | replaced hmap hs ht hargs hvs => exact (gains_mapM _ _ _).of_done hargs
  | mention hnew hd hbefore => exact .inr (known_ssubset_of_makes (.mention hnew hd hbefore))

theorem known_subset_of_reflTransGen {c c' : Call × Registry} (h : ReflTransGen Makes c c') :
    c.2.known ⊆ c'.2.known := by
  induction h with
  | refl => exact subset_rfl
  | tail _ hmakes ih => exact ih.trans hmakes.gains.known_subset

theorem Makes.hasPart {c : Call × Registry} {u : TypeId} (h : Makes c (.substitute map u, r))
    (hsub : r.known ⊆ c.2.known) : ∃ t, c = (.substitute map t, r) ∧ r.HasPart t u := by
  have heq := h.gains.eq_of_subset hsub
  cases h with
  | target hmap hs => exact ⟨_, rfl, .inl hs⟩
  | argument hmap hs ht hargs hbefore =>
    cases heq
    exact ⟨_, rfl, .inr (by rw [hargs]; simp)⟩
  | mention hnew hd hbefore =>
    exact absurd hsub (known_ssubset_of_makes (.mention hnew hd hbefore)).not_subset

theorem hasPart_of_transGen {c : Call × Registry} {u : TypeId}
    (h : TransGen Makes c (.substitute map u, r)) (hsub : r.known ⊆ c.2.known) :
    ∃ t, c = (.substitute map t, r) ∧ TransGen r.HasPart t u := by
  induction h using TransGen.head_induction_on with
  | single h =>
    obtain ⟨t, rfl, hpart⟩ := h.hasPart hsub
    exact ⟨t, rfl, .single hpart⟩
  | head h hrest ih =>
    obtain ⟨t', rfl, hparts⟩ := ih (hsub.trans h.gains.known_subset)
    obtain ⟨t, rfl, hpart⟩ := h.hasPart hsub
    exact ⟨t, rfl, .head hpart hparts⟩

/-- A call that is made again below itself is a substitution in a type that is a part of itself. -/
theorem exists_substitute_of_transGen {c : Call × Registry} (h : TransGen Makes c c) :
    ∃ map t, c.1 = .substitute map t ∧ TransGen c.2.HasPart t t := by
  obtain ⟨⟨map, t⟩ | ⟨template, args⟩, r⟩ := c
  · obtain ⟨t', heq, hparts⟩ := hasPart_of_transGen h subset_rfl
    cases heq
    exact ⟨map, t, rfl, hparts⟩
  · obtain ⟨c', hmakes, hrest⟩ := TransGen.head'_iff.1 h
    exact absurd (known_subset_of_reflTransGen hrest) (known_ssubset_of_makes hmakes).not_subset

theorem not_transGen_of_acc {α : Type} {R : α → α → Prop} {a : α} (h : Acc (fun b a ↦ R a b) a) :
    ¬TransGen R a a := by
  induction h with
  | intro a _ ih =>
    intro hcycle
    obtain ⟨b, hab, hrest⟩ := TransGen.head'_iff.1 hcycle
    exact ih b hab (.tail' hrest hab)

theorem acc_of_reflTransGen {α : Type} {R : α → α → Prop} {a b : α} (h : Acc (fun b a ↦ R a b) a)
    (hreach : ReflTransGen R a b) : Acc (fun b a ↦ R a b) b := by
  induction hreach with
  | refl => exact h
  | tail _ hstep ih => exact ih.inv hstep

theorem wellFounded_of_acyclic {α : Type} [Finite α] {R : α → α → Prop} (h : ∀ a, ¬TransGen R a a) :
    WellFounded R := by
  have : Std.Irrefl (TransGen R) := ⟨h⟩
  have hwf : WellFounded (TransGen R) := Finite.wellFounded_of_trans_of_irrefl _
  exact Subrelation.wf (fun hab ↦ .single hab) hwf

/-- Of finitely many, those from which no circle can be reached are the accessible ones. -/
theorem acc_iff_acyclic {α : Type} [Finite α] {R : α → α → Prop} {a : α} :
    Acc (fun b a ↦ R a b) a ↔ ∀ b, ReflTransGen R a b → ¬TransGen R b b := by
  constructor
  · intro h b hreach
    exact not_transGen_of_acc (acc_of_reflTransGen h hreach)
  · intro h
    have hpath : ∀ {c b}, TransGen (fun c b ↦ ReflTransGen R a b ∧ R b c) c b →
        ReflTransGen R a b ∧ TransGen R b c := by
      intro c b hcb
      induction hcb with
      | single hstep => exact ⟨hstep.1, .single hstep.2⟩
      | tail _ hstep ih => exact ⟨hstep.1, .head hstep.2 ih.2⟩
    have hwf := wellFounded_of_acyclic fun b hb ↦ h b (hpath hb).1 (hpath hb).2
    have hacc : ∀ b, ReflTransGen R a b → Acc (fun b a ↦ R a b) b := by
      intro b
      induction b using hwf.induction with
      | _ b ih =>
        intro hreach
        exact .intro b fun c hbc ↦ ih c ⟨hreach, hbc⟩ (hreach.tail hbc)
    exact hacc a .refl

/-- Neither `c` nor any call below it is made again below itself. -/
def Acyclic (c : Call × Registry) : Prop := ∀ c', ReflTransGen Makes c c' → ¬TransGen Makes c' c'

/-- The substitutions between which nothing becomes known come to an end, if all other calls do. -/
theorem acc_of_steady {c : Call × Registry} (h : Acyclic c)
    (hgain : ∀ c', ReflTransGen Makes c c' → c.2.known ⊂ c'.2.known → Acc (fun c' c ↦ Makes c c') c')
    (hK : r.known = c.2.known) (hreach : ReflTransGen Makes c (.substitute map t, r)) :
    Acc (fun c' c ↦ Makes c c') (.substitute map t, r) := by
  have hpath : ∀ {u t}, TransGen (fun u t ↦ ReflTransGen Makes c (.substitute map t, r) ∧
      Makes (.substitute map t, r) (.substitute map u, r)) u t →
      ReflTransGen Makes c (.substitute map t, r) ∧
        TransGen Makes (.substitute map t, r) (.substitute map u, r) := by
    intro u t hut
    induction hut with
    | single h => exact ⟨h.1, .single h.2⟩
    | tail _ h ih => exact ⟨h.1, .head h.2 ih.2⟩
  -- only the type changes between these calls, and there are finitely many types
  have hwf := wellFounded_of_acyclic fun t ht ↦ h _ (hpath ht).1 (hpath ht).2
  induction t using hwf.induction with
  | _ t ih =>
  apply Acc.intro
  intro c₁ hmakes
  have hreach₁ := hreach.tail hmakes
  rcases hmakes.gains with heq | hlt
  · obtain ⟨⟨map', u⟩ | ⟨template, args⟩, s⟩ := c₁
    · cases heq
      obtain ⟨t', ht', -⟩ := hmakes.hasPart subset_rfl
      cases ht'
      exact ih u ⟨hreach, hmakes⟩ hreach₁
    · cases heq
      apply Acc.intro
      intro c₂ hmakes₂
      exact hgain c₂ (hreach₁.tail hmakes₂) (hK ▸ known_ssubset_of_makes hmakes₂)
  · exact hgain c₁ hreach₁ (hK ▸ hlt)

/-- A call that does not come back to itself comes to an end. -/
theorem acc_of_acyclic {c : Call × Registry} (h : Acyclic c) : Acc (fun c' c ↦ Makes c c') c := by
  -- sets of handles cannot grow for ever, so the calls that make a type known come first
  induction hK : c.2.known using WellFoundedGT.induction generalizing c with
  | ind K ih =>
  have hgain : ∀ c', ReflTransGen Makes c c' → c.2.known ⊂ c'.2.known →
      Acc (fun c' c ↦ Makes c c') c' := by
    intro c' hreach hlt
    refine ih _ (hK ▸ hlt) ?_ rfl
    intro c₁ hreach₁
    exact h c₁ (hreach.trans hreach₁)
  obtain ⟨⟨map, t⟩ | ⟨template, args⟩, r⟩ := c
  · exact acc_of_steady h hgain rfl .refl
  · apply Acc.intro
    intro c' hmakes
    exact hgain c' (.single hmakes) (known_ssubset_of_makes hmakes)

/-- Instantiation comes to an end exactly if no call on its way is made again below itself. Such a call
is a substitution in a type that is a part of itself. -/
theorem instantiate_ends_iff (r : Registry) (template : TypeId) (args : List TypeId) :
    ((∃ fuel, instantiate fuel template args r ≠ .exhausted) ↔
      ¬∃ map t s, ReflTransGen Makes (.instantiate template args, r) (.substitute map t, s) ∧
        TransGen Makes (.substitute map t, s) (.substitute map t, s)) ∧
    ∀ map t s, TransGen Makes (.substitute map t, s) (.substitute map t, s) → TransGen s.HasPart t t := by
  refine ⟨⟨?_, ?_⟩, ?_⟩
  · intro hends hcycle
    obtain ⟨map, t, s, hreach, hcycle⟩ := hcycle
    have hacc := acc_of_ends (c := (.instantiate template args, r)) hends
    exact not_transGen_of_acc (acc_of_reflTransGen hacc hreach) hcycle
  · intro h
    refine ends_of_acc (c := (.instantiate template args, r)) (acc_of_acyclic ?_)
    intro c' hreach hcycle
    obtain ⟨map, t, heq, -⟩ := exists_substitute_of_transGen hcycle
    obtain ⟨c, s⟩ := c'
    cases heq
    exact h ⟨map, t, s, hreach, hcycle⟩
  · intro map t s hcycle
    obtain ⟨map', t', heq, hparts⟩ := exists_substitute_of_transGen hcycle
    cases heq
    exact hparts

section Growing

variable {node p x : TypeId} {s : Registry}

theorem ofInstance_injective (node : TypeId) : Function.Injective fun x ↦ TypeId.ofInstance node [x] :=
  fun _ _ h ↦ TypeId.mixFrom_cons_injective 0 node.bits [] (congrArg TypeId.bits h)

/-- `node` at `x` is known for what it is. -/
def IsInstance (r : Registry) (node x : TypeId) : Prop :=
  ∃ e, r.find? (.ofInstance node [x]) = some e ∧ e.template = some node ∧ e.typeArgs = [x] ∧
    e.staticTarget = none

theorem IsInstance.grows (h : s.IsInstance node x) (hgrows : Grows s r') : r'.IsInstance node x := by
  obtain ⟨e, he, hshape⟩ := h
  exact ⟨e, hgrows.find? he, hshape⟩

theorem IsInstance.substitute (h : s.IsInstance node x) (hmap : map.find? (.ofInstance node [x]) = none) :
    Registry.substitute (fuel + 1) map (.ofInstance node [x]) s = (do
      let replaced ← [x].mapM (Registry.substitute fuel map)
      if replaced = [x] then return .ofInstance node [x] else instantiate fuel node replaced :
        Attempt Registry RegistrationError TypeId) s := by
  obtain ⟨e, he, htemplate, hargs, hstatic⟩ := h
  have hs : s.staticTarget? (.ofInstance node [x]) = none := by rw [staticTarget?, he]; exact hstatic
  have ht : s.template? (.ofInstance node [x]) = some node := by rw [template?, he]; exact htemplate
  have ha : s.typeArgs (.ofInstance node [x]) = [x] := by rw [typeArgs, he]; exact hargs
  rw [substitute_of_instance hmap hs ht, ha]

theorem isInstance_header (hnew : NewInstance s node d [x]) (hkind : d.staticTarget = none) :
    (s.insertInstance (s.instanceHeader d node [x])).IsInstance node x :=
  ⟨_, find?_insertInstance_self hnew.unknown, rfl, rfl, hkind⟩

/-- At the argument `x` the template itself, open in its parameter, becomes its instance at `x`. -/
theorem substitute_open (hopen : s.IsInstance node p) (hmap : map.find? p = some x)
    (hnode : map.find? (.ofInstance node [p]) = none) (hx : s.contains (.ofInstance node [x]) = true)
    (hxp : x ≠ p) : substitute 2 map (.ofInstance node [p]) s = .done (.ofInstance node [x]) s := by
  have hp : [p].mapM (substitute 1 map) s = .done [x] s := by
    rw [mapM_cons_eq_done_iff]
    exact ⟨x, s, [], substitute_of_bound hmap, rfl, rfl⟩
  rw [hopen.substitute hnode, bind_eq_done_iff]
  refine ⟨[x], s, hp, ?_⟩
  rw [if_neg (by simpa using hxp)]
  exact instantiate_of_known hx

/-- `t` is known and has no parts. -/
def IsPlain (r : Registry) (t : TypeId) : Prop :=
  ∃ e, r.find? t = some e ∧ e.template = none ∧ e.staticTarget = none

theorem IsPlain.substitute (h : s.IsPlain t) :
    Registry.substitute (fuel + 1) map t s = .done ((map.find? t).getD t) s := by
  obtain ⟨e, he, htemplate, hstatic⟩ := h
  cases hmap : map.find? t with
  | some b => exact substitute_of_bound hmap
  | none =>
    apply substitute_of_plain hmap
    · rw [staticTarget?, he]
      exact hstatic
    · rw [template?, he]
      exact htemplate

/-- After some plain types `node` mentions its own instance at its instance at its parameter `p`. -/
structure Nesting (r : Registry) (node : TypeId) (d : TypeDecl) (p : TypeId) : Prop where
  found : r.find? node = some d
  kind : d.staticTarget = none
  params : d.typeParams = [p]
  mentioned : ∃ before rest, d.mentioned = before ++ .ofInstance node [.ofInstance node [p]] :: rest ∧
    ∀ t ∈ before, r.IsPlain t
  param : r.contains p = true
  openInstance : r.IsInstance node p
  open_ne : .ofInstance node [p] ≠ p
  nested_ne : .ofInstance node [.ofInstance node [p]] ≠ p

theorem Nesting.grows (h : s.Nesting node d p) (hgrows : Grows s r') : r'.Nesting node d p :=
  { h with
    found := hgrows.find? h.found
    mentioned := by
      obtain ⟨before, rest, hmentioned, hplain⟩ := h.mentioned
      refine ⟨before, rest, hmentioned, fun t ht ↦ ?_⟩
      obtain ⟨e, he, hshape⟩ := hplain t ht
      exact ⟨e, hgrows.find? he, hshape⟩
    param := hgrows.contains h.param
    openInstance := h.openInstance.grows hgrows }

theorem Nesting.find?_zip (h : s.Nesting node d p) (x t : TypeId) :
    (Dictionary.ofList (d.typeParams.zip [x])).find? t = if t = p then some x else none := by
  rw [h.params]
  exact Dictionary.find?_insert ∅ p t x

/-- The instance at `x` asks for the instance at the instance at `x`. -/
theorem Nesting.exhausted_of_next (h : s.Nesting node d p) (hnew : NewInstance s node d [x])
    (hxp : x ≠ p) (hnext : (s.insertInstance (s.instanceHeader d node [x])).IsInstance node
      (.ofInstance node [p]))
    (hexhausted : instantiate fuel node [.ofInstance node [x]]
      (s.insertInstance (s.instanceHeader d node [x])) = .exhausted) :
    instantiate (fuel + 2) node [x] s = .exhausted := by
  have hgrows : Grows s (s.insertInstance (s.instanceHeader d node [x])) := .insertInstance hnew.unknown
  have hbound : (Dictionary.ofList (d.typeParams.zip [x])).find? p = some x := by
    rw [h.find?_zip, if_pos rfl]
  have hopen := substitute_open (h.openInstance.grows hgrows) hbound
    (by rw [h.find?_zip, if_neg h.open_ne])
    (contains_of_find? (find?_insertInstance_self hnew.unknown)) hxp
  by_contra hends
  have hwalk := (instantiate_ne_exhausted_iff hnew).1 hends
  obtain ⟨before, rest, hmentioned, hplain⟩ := (h.grows hgrows).mentioned
  unfold mentionedAt at hwalk
  rw [hmentioned] at hwalk
  have hfirst := mapM_ne_exhausted_iff.1 hwalk before _ rest _ _ rfl
    (mapM_eq_done_map fun t ht ↦ (hplain t ht).substitute)
  rw [hnext.substitute (by rw [h.find?_zip, if_neg h.nested_ne]), bind_ne_exhausted_iff] at hfirst
  obtain ⟨hargs, hmade⟩ := hfirst
  have hopens : [TypeId.ofInstance node [p]].mapM (substitute 2 (.ofList (d.typeParams.zip [x])))
      (s.insertInstance (s.instanceHeader d node [x])) =
      .done [.ofInstance node [x]] (s.insertInstance (s.instanceHeader d node [x])) :=
    mapM_cons_eq_done_iff.2 ⟨_, _, [], hopen, rfl, rfl⟩
  have hmake := hmade _ _ (mapM_agree (deepens_substitute _) hopens hargs)
  rw [if_neg] at hmake
  · exact hmake hexhausted
  · intro heq
    exact hxp (ofInstance_injective node (List.singleton_inj.1 heq))

/-- As long as the handles of the next instances are new, no depth is enough. There are only so many
handles; with the first of them that comes up again this says no more. -/
theorem Nesting.exhausted (h : s.Nesting node d p) (hx : s.contains x = true) (hxp : x ≠ p)
    (hnext : x = .ofInstance node [p] ∨ s.IsInstance node (.ofInstance node [p]))
    (hnew : ∀ k < fuel, s.contains ((fun y ↦ .ofInstance node [y])^[k + 1] x) = false) :
    instantiate fuel node [x] s = .exhausted := by
  -- each instance takes two levels, its own and that of the substitution which asks for the next
  induction fuel using Nat.strongRecOn generalizing x s with
  | ind fuel ih =>
  cases fuel with
  | zero => rfl
  | succ fuel =>
    have hinstance : NewInstance s node d [x] := by
      refine ⟨hnew 0 (by omega), h.found, ?_, ?_⟩
      · simp [TypeDecl.isTemplate, h.params]
      · simp [h.params]
    have hgrows : Grows s (s.insertInstance (s.instanceHeader d node [x])) :=
      .insertInstance hinstance.unknown
    have hheader := isInstance_header hinstance h.kind
    have hnext' : (s.insertInstance (s.instanceHeader d node [x])).IsInstance node
        (.ofInstance node [p]) := by
      rcases hnext with rfl | hnext
      · exact hheader
      · exact hnext.grows hgrows
    cases fuel with
    | zero =>
      obtain ⟨before, rest, hmentioned, -⟩ := h.mentioned
      rw [instantiate_of_new hinstance, mentionedAt, hmentioned]
      cases before <;> rfl
    | succ fuel =>
      refine h.exhausted_of_next hinstance hxp hnext' ?_
      refine ih fuel (by omega) (h.grows hgrows)
        (contains_of_find? (find?_insertInstance_self hinstance.unknown)) ?_ (.inr hnext') ?_
      · intro heq
        have hp := h.param
        rw [← heq, hinstance.unknown] at hp
        cases hp
      · intro k hk
        have hk' := hnew (k + 1) (by omega)
        rw [Function.iterate_succ_apply] at hk'
        rw [contains_insertInstance_of_ne hinstance.unknown, hk']
        intro heq
        rw [Function.iterate_succ_apply',
          ← Function.iterate_succ_apply (fun y ↦ TypeId.ofInstance node [y])] at heq
        have hback := ofInstance_injective node heq
        rw [← hback, hnew k (by omega)] at hx
        cases hx

end Growing

def nodeTemplate : TypeId := .ofName "Node"
def nodeItem : TypeId := .ofParam "Node" "T"

/-- A list whose tail is a list of lists. -/
def nodeDecl : TypeDecl where
  name := "Node"
  id := nodeTemplate
  kind := .classType
  base := some .object
  typeParams := [nodeItem]
  fields := [{ name := "next", owner := nodeTemplate,
               type := .ofInstance nodeTemplate [.ofInstance nodeTemplate [nodeItem]] }]

def makeNode : Attempt Registry RegistrationError TypeId := do
  let item ← registerParam "T" { owner := "Node", index := 0 }
  let template ← register nodeDecl
  instantiate 3 template [item]

def nodeTypes : Registry := (makeNode builtin).state?.getD {}

theorem nesting_nodeTypes : nodeTypes.Nesting nodeTemplate nodeDecl nodeItem where
  found := by decide +kernel
  kind := rfl
  params := rfl
  mentioned := by
    refine ⟨[.object], [], rfl, fun t ht ↦ ?_⟩
    rw [List.mem_singleton.1 ht]
    exact ⟨objectDecl, by decide +kernel, rfl, rfl⟩
  param := by decide +kernel
  openInstance := by
    have hfound : (nodeTypes.find? (.ofInstance nodeTemplate [nodeItem])).any (fun e ↦
        e.template == some nodeTemplate && e.typeArgs == [nodeItem] && e.staticTarget == none) = true := by
      decide +kernel
    obtain ⟨e, he, hshape⟩ := (Option.any_eq_true _ _).1 hfound
    simp only [Bool.and_eq_true, beq_iff_eq] at hshape
    exact ⟨e, he, hshape.1.1, hshape.1.2, hshape.2⟩
  open_ne := by decide +kernel
  nested_ne := by decide +kernel

-- none of the first fifty handles is one that is known
example : instantiate 50 nodeTemplate [.ofInstance nodeTemplate [nodeItem]] nodeTypes = .exhausted :=
  nesting_nodeTypes.exhausted (by decide +kernel) nesting_nodeTypes.open_ne (.inl rfl) (by decide +kernel)

/-- A template that is its own instance at `circle`. -/
def loopTemplate : TypeId := ⟨0x6327886e56b588f7⟩

def circle : TypeId := ⟨0x1000⟩

def loopItem : TypeId := .ofParam "Loop" "T"

def loopDecl : TypeDecl where
  name := "Loop"
  id := loopTemplate
  kind := .classType
  base := some .object
  typeParams := [loopItem]
  fields := [{ name := "next", owner := loopTemplate, type := circle }]

def makeLoop : Attempt Registry RegistrationError TypeId := do
  let _ ← registerParam "T" { owner := "Loop", index := 0 }
  register loopDecl

def loopTypes : Registry := (makeLoop builtin).state?.getD {}

theorem reachable_loopTypes : Reachable TypeDecl.IsDeclaration loopTypes :=
  reachable_getD ((keeps_registerParam _ _).bind fun _ ↦ keeps_register ⟨rfl, rfl⟩)

def loopEntered : Registry := loopTypes.insertInstance (loopTypes.instanceHeader loopDecl loopTemplate [circle])

theorem instantiate_ends_iff_loop :
    Reachable TypeDecl.IsDeclaration loopTypes ∧ TypeId.ofInstance loopTemplate [circle] = circle ∧
      ∀ fuel, instantiate fuel loopTemplate [circle] loopTypes = .exhausted := by
  refine ⟨reachable_loopTypes, by decide +kernel, fun fuel ↦ ?_⟩
  by_contra hends
  obtain ⟨⟨hacyclic, -⟩, -⟩ := instantiate_ends_iff loopTypes loopTemplate [circle]
  refine hacyclic ⟨fuel, hends⟩ ?_
  have hnew : NewInstance loopTypes loopTemplate loopDecl [circle] :=
    ⟨by decide +kernel, by decide +kernel, by decide +kernel, by decide +kernel⟩
  have hobject : [TypeId.object].mapM (substitute 1 (.ofList (loopDecl.typeParams.zip [circle])))
      loopEntered = .done [.object] loopEntered := by
    refine mapM_eq_done_map (g := id) fun t ht ↦ ?_
    rw [List.mem_singleton.1 ht]
    exact substitute_of_plain (by decide +kernel) (by decide +kernel) (by decide +kernel)
  have hmentioned : loopDecl.mentioned = [.object] ++ circle :: [] := rfl
  have hargs : loopEntered.typeArgs circle = [] ++ circle :: [] := by decide +kernel
  have htemplate : loopEntered.template? circle = some loopTemplate := by decide +kernel
  refine ⟨_, circle, _, .single (.mention hnew hmentioned hobject), .single ?_⟩
  exact .argument (by decide +kernel) (by decide +kernel) htemplate hargs
    (show [].mapM (substitute 0 _) _ = .done [] _ from rfl)

end Registry

end CallResolution
