import CallResolution.Proofs.Conversion.Listing
import CallResolution.Proofs.Conversion.Order
import CallResolution.Proofs.Generic.Inference
import CallResolution.Proofs.Registry.Composition

namespace CallResolution

open Relation

namespace Registry

variable {r E : Registry} {s : Substitution} {t u x y p a v template : TypeId} {ts : List TypeId}
  {entry : TypeDecl}

/-- Only instances have type arguments. -/
def ArgsOfInstances (r : Registry) : Prop :=
  ∀ t d, r.find? t = some d → d.template = none → d.typeArgs = []

theorem Reachable.argsOfInstances (h : Reachable TypeDecl.IsDeclaration r) : r.ArgsOfInstances := by
  have hbuiltin : ∀ e ∈ Registry.builtin.types.entries ++ Registry.builtin.instances.entries,
      e.2.typeArgs = [] := by decide +kernel
  refine h.forall_decl (fun _ _ hd _ ↦ hbuiltin _ (mem_entries_of_find? hd)) (fun _ _ hd _ ↦ hd.typeArgs)
    (fun _ _ _ ↦ rfl) (fun _ _ _ ↦ rfl) (fun _ _ _ _ ht ↦ by cases ht) fun header entry hc hheader ht ↦ ?_
  rw [hc.typeArgs]
  exact hheader (by rwa [← hc.template])

theorem ArgsOfInstances.exists_template (hr : r.ArgsOfInstances) (hopen : r.Open t)
    (hparam : r.isParam t = false) : ∃ template, r.template? t = some template := by
  cases hopen with
  | param h =>
    rw [hparam] at h
    cases h
  | arg ha _ =>
    unfold typeArgs at ha
    cases hd : r.find? t with
    | none => simp [hd] at ha
    | some d =>
      cases ht : d.template with
      | none => simp [hd, hr t d hd ht] at ha
      | some template => exact ⟨template, by simp [template?, hd, ht]⟩

/-- The type `u` is `t` or an argument of it, at any depth. -/
def Mentions (r : Registry) : TypeId → TypeId → Prop := ReflTransGen fun t a ↦ a ∈ r.typeArgs t

theorem Mentions.comprises (h : r.Mentions t u) : r.Comprises t u :=
  ReflTransGen.mono (p := r.HasPart) (fun _ _ ha ↦ Or.inr ha) t u h

/-- The type parameter `p` is `t` or an argument of it, at any depth, though not an argument of another type
parameter. -/
inductive Occurs (r : Registry) (p : TypeId) : TypeId → Prop
  | self : Occurs r p p
  | arg {t a : TypeId} (ht : r.isParam t = false) (ha : a ∈ r.typeArgs t) (h : Occurs r p a) : Occurs r p t

theorem Occurs.isOpen (h : r.Occurs p t) (hp : r.isParam p = true) : r.Open t := by
  induction h with
  | self => exact .param hp
  | arg _ ha _ ih => exact .arg ha ih

/-- The type `y` is an instance of `template` that is not open, and the only one that it converts to. -/
structure Sole (r : Registry) (template y : TypeId) : Prop where
  isInstance : r.template? y = some template
  closed : ¬r.Open y
  only : ∀ ts, Answers (r.convertible · y) ts → ∀ u ∈ ts, r.template? u = some template → ¬r.Open u → u = y

/-- Whether a type is the sole instance of its template can be read off the list of what it converts to. -/
theorem sole_of_convertible {n : Nat} (ht : r.template? y = some template) (hopen : r.isOpen n y = some false)
    (hts : r.convertible n y = some ts)
    (honly : ∀ u ∈ ts, r.template? u = some template → r.isOpen n u ≠ some true → u = y) :
    r.Sole template y where
  isInstance := ht
  closed h := Bool.false_ne_true ((isOpen_iff hopen).2 h)
  only us hus u hu htemplate hclosed := by
    obtain rfl := hus.unique (.of_eq (r.convertible_succ · y) hts)
    exact honly u hu htemplate fun h ↦ hclosed ((isOpen_iff h).1 rfl)

theorem answers_onlyOne {test : Nat → TypeId → Option Bool} (hts : ts.Nodup) (hy : y ∈ ts)
    (htest : ∀ u ∈ ts, Answers (test · u) (decide (u = y))) :
    Answers (fun n ↦ onlyOne (test n) ts) (some y) := by
  induction ts with
  | nil => cases hy
  | cons u us ih =>
    obtain ⟨hu, hus⟩ := List.nodup_cons.1 hts
    obtain ⟨hhead, htail⟩ := List.forall_mem_cons.1 htest
    simp only [onlyOne]
    by_cases huy : u = y
    · subst huy
      rw [decide_eq_true rfl] at hhead
      have hrest : Answers (fun n ↦ us.anyM (test n)) false := by
        refine .anyM_false fun v hv ↦ ?_
        have hne : v ≠ u := fun h ↦ hu (h ▸ hv)
        simpa only [decide_eq_false hne] using htail v hv
      refine hhead.bind ?_
      simp only [if_true]
      exact hrest.bind (.const _)
    · rw [decide_eq_false huy] at hhead
      refine hhead.bind ?_
      simp only [Bool.false_eq_true, if_false]
      exact ih hus ((List.mem_cons.1 hy).resolve_left (Ne.symm huy)) htail

/-- Handles are hashes. What `map` makes of `t` has not been mistaken for something else, nor a view for an
instance. -/
structure Discerned (r : Registry) (map : Substitution) (t : TypeId) : Prop extends r.Unmistaken map t where
  apart : ∀ x w, r.staticTarget? t = some x → r.Becomes map x w → r.template? (.ofStatic w) = none

/-- What an open instance has become is an instance of the same template, and tells what its arguments have
become. -/
theorem forall₂_becomes_of_sole (hgrows : Grows r E) (hclear : E.Discerned s x) (hx : s.find? x = none)
    (hopen : r.Open x) (ht : r.template? x = some template) (hv : r.Sole t v) (h : E.Becomes s x v) :
    t = template ∧ List.Forall₂ (E.Becomes s) (r.typeArgs x) (r.typeArgs v) := by
  obtain ⟨-, htx, hargsx⟩ := hgrows.looksAlike (contains_of_template? ht)
  obtain ⟨-, htv, hargsv⟩ := hgrows.looksAlike (contains_of_template? hv.isInstance)
  have hne : v ≠ x := fun heq ↦ hv.closed (heq ▸ hopen)
  rw [← hargsx, ← hargsv]
  cases hs : E.staticTarget? x with
  | some y =>
    obtain ⟨w, hw, ⟨-, hvx⟩ | ⟨-, rfl, -⟩⟩ := (becomes_view_iff hx hs).1 h
    · exact absurd hvx hne
    · rw [hclear.apart y w hs hw, hv.isInstance] at htv
      cases htv
  | none =>
    obtain ⟨ws, hws, ⟨-, hvx⟩ | ⟨-, rfl, hknown⟩⟩ := (becomes_instance_iff hx hs (htx.trans ht)).1 h
    · exact absurd hvx hne
    · have hi := hclear.inst template ws hs (htx.trans ht) hws hknown
      refine ⟨Option.some.inj ?_, by rwa [hi.typeArgs]⟩
      rw [← hv.isInstance, ← htv, hi.template]

theorem answers_pairTypes_of_param (h : r.isParam x = true) (v : TypeId) :
    Answers (r.pairTypes · x v) [(x, v)] := by
  refine .succ ?_
  simp only [pairTypes, h, if_true]
  exact .const _

theorem answers_pairTypes_of_closed (h : Answers (r.isOpen · x) false) (hx : r.isParam x = false)
    (v : TypeId) : Answers (r.pairTypes · x v) [] := by
  refine .succ ?_
  simp only [pairTypes, hx, Bool.false_eq_true, if_false]
  exact h.bind (.const _)

theorem answers_pairTypes_of_instance {pairs : List (List (TypeId × TypeId))} (hx : r.isParam x = false)
    (hopen : Answers (r.isOpen · x) true) (ht : r.template? x = some template)
    (hv : Answers (r.instanceOf · template v) (some v))
    (hpairs : Answers (fun n ↦ ((r.typeArgs x).zip (r.typeArgs v)).mapM fun q ↦ r.pairTypes n q.1 q.2) pairs) :
    Answers (r.pairTypes · x v) pairs.flatten := by
  refine .succ ?_
  simp only [pairTypes, hx, Bool.false_eq_true, if_false]
  refine hopen.bind ?_
  simp only [if_true, ht]
  exact hv.bind (hpairs.bind (.const _))

/-- The pairs say what `s` puts in the place of the type parameters that occur in `x`. -/
structure Reads (r : Registry) (s : Substitution) (x : TypeId) (pairs : List (TypeId × TypeId)) : Prop where
  sound : ∀ q ∈ pairs, ∀ b, s.find? q.1 = some b → q.2 = b
  complete : ∀ p b, s.find? p = some b → r.Occurs p x → (p, b) ∈ pairs

theorem reads_param (hx : r.isParam x = true) (h : E.Becomes s x v) : r.Reads s x [(x, v)] where
  sound := by
    rintro q hq b hb
    obtain rfl := List.mem_singleton.1 hq
    exact (becomes_bound_iff hb).1 h
  complete p b hb hoccurs := by
    cases hoccurs with
    | self => rw [(becomes_bound_iff hb).1 h, List.mem_singleton]
    | arg hparam => rw [hx] at hparam; cases hparam

theorem reads_flatten {pairs : List (List (TypeId × TypeId))} (hx : s.find? x = none)
    (hargs : ∀ a ∈ r.typeArgs x, ∃ ps ∈ pairs, r.Reads s a ps)
    (hpairs : ∀ ps ∈ pairs, ∃ a ∈ r.typeArgs x, r.Reads s a ps) : r.Reads s x pairs.flatten where
  sound q hq := by
    obtain ⟨ps, hps, hq⟩ := List.mem_flatten.1 hq
    obtain ⟨a, -, ha⟩ := hpairs ps hps
    exact ha.sound q hq
  complete p b hb hoccurs := by
    cases hoccurs with
    | self => rw [hx] at hb; cases hb
    | arg _ ha hoccurs =>
      obtain ⟨ps, hps, hreads⟩ := hargs _ ha
      exact List.mem_flatten.2 ⟨ps, hps, hreads.complete p b hb hoccurs⟩

section

variable (hr : Reachable TypeDecl.IsDeclaration r) (hargs : Noncircular fun t a ↦ a ∈ r.typeArgs t)

include hr hargs

theorem answers_instanceOf (h : r.Sole template y) : Answers (r.instanceOf · template y) (some y) := by
  have htemplates := noncircular_template? (fun _ hd ↦ hd.template) hr
  obtain ⟨ts, hts⟩ := ends_convertible_of_noncircular htemplates hargs y
  obtain ⟨n, hn⟩ := hts.exists_eq
  have hy : y ∈ ts := mem_convertible_of_derives .refl hn
  refine hts.bind (answers_onlyOne (nodup_visitConvertible hn .nil) hy fun u hu ↦ ?_)
  obtain ⟨b, hb⟩ := ends_isOpen_of_noncircular hargs u
  obtain ⟨k, hk⟩ := hb.exists_eq
  have htest : (!b && r.template? u == some template) = decide (u = y) := by
    rw [Bool.eq_iff_iff]
    simp only [Bool.and_eq_true, Bool.not_eq_true', beq_iff_eq, decide_eq_true_eq]
    constructor
    · rintro ⟨rfl, htemplate⟩
      exact h.only ts hts u hu htemplate fun ho ↦ Bool.false_ne_true ((isOpen_iff hk).2 ho)
    · rintro rfl
      exact ⟨Bool.eq_false_iff.2 fun hb ↦ h.closed ((isOpen_iff hk).1 hb), h.isInstance⟩
  rw [← htest]
  exact hb.bind (.const _)

/-- A type that is matched with what `s` has made of it gives `s` back. The induction is on the type: its
arguments are matched with what has become of them. -/
theorem exists_reads (hgrows : Grows r E) (hparams : ∀ p b, s.find? p = some b → r.isParam p = true)
    (hclear : ∀ u, r.Mentions x u → E.Discerned s u)
    (hsole : ∀ u y, r.Mentions x u → r.isParam u = false → r.Open u → E.Becomes s u y →
      ∃ template, r.Sole template y)
    (h : E.Becomes s x v) : ∃ pairs, Answers (r.pairTypes · x v) pairs ∧ r.Reads s x pairs := by
  induction x using hargs.wellFounded.induction generalizing v with
  | _ x ih =>
    cases hx : r.isParam x with
    | true => exact ⟨_, answers_pairTypes_of_param hx v, reads_param hx h⟩
    | false =>
      obtain ⟨b, hb⟩ := ends_isOpen_of_noncircular hargs x
      obtain ⟨k, hk⟩ := hb.exists_eq
      cases b with
      | false =>
        refine ⟨[], answers_pairTypes_of_closed hb hx v, by simp, fun p b hp hoccurs ↦ ?_⟩
        have hopen := hoccurs.isOpen (hparams p b hp)
        exact absurd ((isOpen_iff hk).2 hopen) Bool.false_ne_true
      | true =>
        have hopen : r.Open x := (isOpen_iff hk).1 rfl
        have hnone : s.find? x = none := by
          cases hfind : s.find? x with
          | none => rfl
          | some b => rw [hparams x b hfind] at hx; cases hx
        obtain ⟨template, ht⟩ := hr.argsOfInstances.exists_template hopen hx
        obtain ⟨_, hv⟩ := hsole x v .refl hx hopen h
        obtain ⟨rfl, hbecomes⟩ := forall₂_becomes_of_sole hgrows (hclear x .refl) hnone hopen ht hv h
        obtain ⟨hlen, hparts⟩ := List.forall₂_iff_zip.1 hbecomes
        obtain ⟨pairs, hpairs, hleft, hright⟩ := Answers.exists_mapM_zip
          (f := fun n q ↦ r.pairTypes n q.1 q.2) hlen.le fun q hq ↦ by
            have ha : q.1 ∈ r.typeArgs x := (List.of_mem_zip hq).1
            exact ih q.1 ha (fun u hu ↦ hclear u (.head ha hu))
              (fun u y hu ↦ hsole u y (.head ha hu)) (hparts hq)
        exact ⟨pairs.flatten, answers_pairTypes_of_instance hx hb ht (answers_instanceOf hr hargs hv) hpairs,
          reads_flatten hnone hleft hright⟩

end

theorem pairExpr_of_not_lambda {e : Expr} (he : e.isLambda = false) (fuel : Nat) :
    r.pairExpr fuel p e = r.pairTypes fuel p e.type := by
  cases e with
  | lambda params body t => cases he
  | _ => rfl

end Registry

/-- Pairs that agree with one substitution do not conflict. -/
theorem Substitution.exists_bindAll {s map : Substitution} {pairs : List (TypeId × TypeId)}
    (hmap : ∀ k b, map.find? k = some b → s.find? k = some b)
    (hpairs : ∀ q ∈ pairs, s.find? q.1 = some q.2) : ∃ map', bindAll map pairs = some map' := by
  induction pairs generalizing map with
  | nil => exact ⟨map, rfl⟩
  | cons q pairs ih =>
    obtain ⟨hq, hpairs⟩ := List.forall_mem_cons.1 hpairs
    rw [bindAll]
    cases hfind : map.find? q.1 with
    | none =>
      refine ih (fun k b hb ↦ ?_) hpairs
      rw [Dictionary.find?_insert] at hb
      split at hb
      · rename_i hk
        rw [hk, hq, hb]
      · exact hmap k b hb
    | some other =>
      have hother : other = q.2 := Option.some.inj ((hmap _ _ hfind).symm.trans hq)
      simp only [hother, if_true]
      exact ih hmap hpairs

/-- Pairs that are those of a substitution, in any order and number, give that substitution. -/
theorem Substitution.exists_bindAll_eq {s : Substitution} {pairs : List (TypeId × TypeId)}
    (hpairs : ∀ p b, (p, b) ∈ pairs ↔ s.find? p = some b) :
    ∃ map, bindAll ∅ pairs = some map ∧ ∀ k, map.find? k = s.find? k := by
  have hempty : ∀ k b, (∅ : Substitution).find? k = some b → s.find? k = some b := fun _ _ hb ↦ by cases hb
  obtain ⟨map, hmap⟩ := exists_bindAll hempty fun q hq ↦ (hpairs q.1 q.2).1 hq
  refine ⟨map, hmap, fun k ↦ ?_⟩
  cases hk : s.find? k with
  | some b => exact (find?_of_bindAll hmap).2 (k, b) ((hpairs k b).2 hk)
  | none =>
    cases hb : map.find? k with
    | none => rfl
    | some b =>
      rcases mem_of_bindAll hmap hb with hempty | hmem
      · cases hempty
      · rw [(hpairs k b).1 hmem] at hk
        cases hk

open Registry

/-- The arguments have the very types that `s` makes of the parameter types, as `E` has them: the registry
`r`, or what it grows to where some of them have to be made. -/
structure Method.ExactCall (m : Method) (r E : Registry) (s : Substitution) (types : List TypeId)
    (args : List Expr) : Prop where
  expected : m.expectedTypes r args.length = some types
  plain : ∀ a ∈ args, a.isLambda = false
  exact : List.Forall₂ (E.Becomes s) types (args.map Expr.type)
  keys : ∀ p, (s.find? p).isSome = true ↔ p ∈ m.typeParams
  fits : ∀ p b, s.find? p = some b → Answers (r.satisfies · p b) true
  occurs : ∀ p ∈ m.typeParams, ∃ t ∈ types, r.Occurs p t

namespace Method

variable {m : Method} {r E : Registry} {s : Substitution} {types : List TypeId} {args : List Expr}

/-- A call whose arguments have exactly the types that a choice of type arguments makes of the parameter
types has just these type arguments inferred, however often and wherever a type parameter occurs. Handles
must not clash, and what each open instance has become must be the only closed instance of its template
among the types that it converts to. -/
theorem infer_recovers (hr : Reachable TypeDecl.IsDeclaration r)
    (hargs : Noncircular fun t a ↦ a ∈ r.typeArgs t) (hgrows : Grows r E) (h : m.ExactCall r E s types args)
    (hclear : ∀ t ∈ types, ∀ u, r.Mentions t u → E.Discerned s u)
    (hsole : ∀ t ∈ types, ∀ u y, r.Mentions t u → r.isParam u = false → r.Open u → E.Becomes s u y →
      ∃ template, r.Sole template y) :
    ∃ map, Answers (fun fuel ↦ m.infer r fuel args) (some map) ∧ ∀ k, map.find? k = s.find? k := by
  have hparams : ∀ p b, s.find? p = some b → r.isParam p = true := by
    intro p b hb
    obtain ⟨n, hn⟩ := (h.fits p b hb).exists_eq
    exact isParam_of_satisfies hn
  obtain ⟨hlen, hexact⟩ := List.forall₂_iff_zip.1 h.exact
  rw [List.length_map] at hlen
  obtain ⟨pairs, hpairs, hleft, hright⟩ := Answers.exists_mapM_zip
    (f := fun n q ↦ r.pairExpr n q.1 q.2) hlen.le fun q hq ↦ by
      obtain ⟨ht, ha⟩ := List.of_mem_zip hq
      simp only [pairExpr_of_not_lambda (h.plain q.2 ha)]
      refine exists_reads hr hargs hgrows hparams (hclear q.1 ht) (hsole q.1 ht) (hexact ?_)
      rw [List.zip_map_right]
      exact List.mem_map.2 ⟨q, hq, rfl⟩
  -- A type may mention type parameters that are not the method's own; the pairs for these are dropped.
  have hkept (p b : TypeId) :
      (p, b) ∈ pairs.flatten.filter (·.1 ∈ m.typeParams) ↔ s.find? p = some b := by
    rw [List.mem_filter, List.mem_flatten, decide_eq_true_iff, ← h.keys]
    constructor
    · rintro ⟨⟨ps, hps, hq⟩, hkey⟩
      obtain ⟨c, hc⟩ := Option.isSome_iff_exists.1 hkey
      obtain ⟨_, -, hreads⟩ := hright ps hps
      rw [hc, ← hreads.sound (p, b) hq c hc]
    · intro hb
      have hkey : (s.find? p).isSome = true := by rw [hb]; rfl
      obtain ⟨t, ht, hoccurs⟩ := h.occurs p ((h.keys p).1 hkey)
      obtain ⟨ps, hps, hreads⟩ := hleft t ht
      exact ⟨⟨ps, hps, hreads.complete p b hb hoccurs⟩, hkey⟩
  obtain ⟨map, hbind, hfind⟩ := Substitution.exists_bindAll_eq hkept
  have hfits : Answers (fun n ↦ map.fits r n m.typeParams) true := by
    refine .allM_true fun p hp ↦ ?_
    obtain ⟨b, hb⟩ := Option.isSome_iff_exists.1 ((h.keys p).2 hp)
    simp only [hfind, hb]
    exact h.fits p b hb
  refine ⟨map, ?_, hfind⟩
  simp only [infer, h.expected]
  refine hpairs.bind ?_
  simp only [hbind]
  exact hfits.bind (.const _)

end Method

def pairOf : TypeId := .ofName "Pair"
def mergeKey : TypeId := .ofParam "merge" "K"
def mergeValue : TypeId := .ofParam "merge" "V"

def pairAt (left right : TypeId) : TypeId := .ofInstance pairOf [left, right]

def makeMerge : Attempt Registry RegistrationError TypeId := do
  let left ← registerParam "A" { owner := "Pair", index := 0 }
  let right ← registerParam "B" { owner := "Pair", index := 1 }
  let _ ← register { name := "Pair", id := pairOf, kind := .classType, typeParams := [left, right] }
  let key ← registerParam "K" { owner := "merge", index := 0 }
  let value ← registerParam "V" { owner := "merge", index := 1 }
  let inner ← instantiate 4 pairOf [value, key]
  let outer ← instantiate 4 pairOf [key, inner]
  let _ ← arrayOf 4 outer
  let inner ← instantiate 4 pairOf [.int, .string]
  instantiate 4 pairOf [.string, inner]

def mergeTypes : Registry := (makeMerge builtin).state?.getD {}

theorem reachable_mergeTypes : Reachable TypeDecl.IsDeclaration mergeTypes := by
  refine reachable_getD ((keeps_registerParam _ _).bind fun _ ↦ (keeps_registerParam _ _).bind fun _ ↦ ?_)
  refine (keeps_register ⟨rfl, rfl⟩).bind fun _ ↦ (keeps_registerParam _ _).bind fun _ ↦ ?_
  refine (keeps_registerParam _ _).bind fun _ ↦ (keeps_instantiate _ _ _).bind fun _ ↦ ?_
  refine (keeps_instantiate _ _ _).bind fun _ ↦ (keeps_instantiate _ _ _).bind fun _ ↦ ?_
  exact (keeps_instantiate _ _ _).bind fun _ ↦ keeps_instantiate _ _ _

/-- The type of an entry, `Pair<K, Pair<V, K>>`. -/
def mergeEntry : TypeId := pairAt mergeKey (pairAt mergeValue mergeKey)

def merge : Method where
  name := "merge"
  owner := .object
  id := ⟨90⟩
  kind := .staticMethod
  params := [⟨"key", mergeKey⟩, ⟨"entries", .ofInstance .array [mergeEntry]⟩]
  result := .void
  isVariadic := true
  typeParams := [mergeKey, mergeValue]

def mergeMap : Substitution := .ofList [(mergeKey, .string), (mergeValue, .int)]

def mergeArgs : List Expr :=
  [.literal (.text "k"), .parameter "x" (pairAt .string (pairAt .int .string)),
    .parameter "y" (pairAt .string (pairAt .int .string))]

theorem mem_mergeMap {p b : TypeId} (h : mergeMap.find? p = some b) :
    (p, b) ∈ [(mergeKey, TypeId.string), (mergeValue, .int)] := Dictionary.mem_of_find?_ofList h

/-- What the parameter types of `merge` are made of. -/
def mergeParts : List TypeId := [mergeKey, mergeEntry, pairAt mergeValue mergeKey, mergeValue]

theorem steady_mergeParts : ∀ u ∈ mergeParts, (substitute 6 mergeMap u mergeTypes).value?.isSome = true ∧
    (substitute 6 mergeMap u mergeTypes).state?.map (·.instances.size) = some mergeTypes.instances.size := by
  decide +kernel

theorem becomes_mergeParts_iff {u v : TypeId} (hu : u ∈ mergeParts) :
    mergeTypes.Becomes mergeMap u v ↔ v = mergeTypes.replacement 6 mergeMap u :=
  becomes_iff_of_size (steady_mergeParts u hu).1 (steady_mergeParts u hu).2

theorem exactCall_merge :
    merge.ExactCall mergeTypes mergeTypes mergeMap [mergeKey, mergeEntry, mergeEntry] mergeArgs where
  expected := by decide +kernel
  plain := by decide
  exact := by
    have hkey : mergeTypes.Becomes mergeMap mergeKey .string :=
      (becomes_mergeParts_iff (by decide +kernel)).2 (by decide +kernel)
    have hentry : mergeTypes.Becomes mergeMap mergeEntry (pairAt .string (pairAt .int .string)) :=
      (becomes_mergeParts_iff (by decide +kernel)).2 (by decide +kernel)
    exact .cons hkey (.cons hentry (.cons hentry .nil))
  keys p := by
    constructor
    · intro h
      obtain ⟨b, hb⟩ := Option.isSome_iff_exists.1 h
      have hkeys : ∀ q ∈ [(mergeKey, TypeId.string), (mergeValue, .int)], q.1 ∈ merge.typeParams := by
        decide +kernel
      exact hkeys _ (mem_mergeMap hb)
    · have hbound : ∀ p ∈ merge.typeParams, (mergeMap.find? p).isSome = true := by decide +kernel
      exact hbound p
  fits p b hb := by
    have hfits : ∀ q ∈ [(mergeKey, TypeId.string), (mergeValue, .int)],
        mergeTypes.satisfies 4 q.1 q.2 = some true := by decide +kernel
    have hpb : mergeTypes.satisfies 4 p b = some true := hfits (p, b) (mem_mergeMap hb)
    exact .of_eq (mergeTypes.satisfies_succ · p b) hpb
  occurs := by
    have hinner : pairAt mergeValue mergeKey ∈ mergeTypes.typeArgs mergeEntry := by decide +kernel
    have hvalue : mergeValue ∈ mergeTypes.typeArgs (pairAt mergeValue mergeKey) := by decide +kernel
    have hoccurs : mergeTypes.Occurs mergeValue mergeEntry :=
      .arg (by decide +kernel) hinner (.arg (by decide +kernel) hvalue .self)
    simp only [merge, List.forall_mem_cons, List.exists_mem_cons_iff]
    exact ⟨.inl .self, .inr (.inl hoccurs), by simp⟩

/-- `merge("k", x, y)` with two entries `Pair<string, Pair<int, string>>`. -/
theorem Method.infer_recovers_merge :
    merge.ExactCall mergeTypes mergeTypes mergeMap [mergeKey, mergeEntry, mergeEntry] mergeArgs ∧
      ∃ map, Answers (fun fuel ↦ merge.infer mergeTypes fuel mergeArgs) (some map) ∧
        map.find? mergeKey = some .string ∧ map.find? mergeValue = some .int := by
  have hargs : Noncircular fun t a ↦ a ∈ mergeTypes.typeArgs t := by
    refine (hierarchical_of_rank (List.idxOf · ?_) ?_).args
    · exact [.object, .int, .string, mergeKey, mergeValue, pairAt .int .string, pairAt mergeValue mergeKey,
        mergeEntry]
    · decide +kernel
  have hmem : ∀ t ∈ [mergeKey, mergeEntry, mergeEntry], t ∈ mergeParts := by decide +kernel
  have hstatic : ∀ u ∈ mergeParts, mergeTypes.staticTarget? u = none := by decide +kernel
  have hparts : ∀ u ∈ mergeParts, ∀ v ∈ (mergeTypes.staticTarget? u).toList ++ mergeTypes.typeArgs u,
      v ∈ mergeParts := by decide +kernel
  have hmentions : ∀ t ∈ [mergeKey, mergeEntry, mergeEntry], ∀ u, mergeTypes.Mentions t u → u ∈ mergeParts :=
    fun t ht u hu ↦ mem_of_comprises (hmem t ht) hparts hu.comprises
  have hclear : ∀ t ∈ [mergeKey, mergeEntry, mergeEntry], ∀ u, mergeTypes.Mentions t u →
      mergeTypes.Discerned mergeMap u := by
    intro t ht u hu
    refine ⟨unmistaken_of_parts 6 mergeParts (hmem t ht) hparts steady_mergeParts ?_ ?_ u hu.comprises, ?_⟩
    · decide +kernel
    · decide +kernel
    · intro x w hx
      rw [hstatic u (hmentions t ht u hu)] at hx
      cases hx
  have hsole : ∀ u ∈ mergeParts, mergeTypes.isParam u = false →
      (mergeTypes.template? (mergeTypes.replacement 6 mergeMap u)).any (fun template ↦
        mergeTypes.isOpen 6 (mergeTypes.replacement 6 mergeMap u) = some false ∧
        (mergeTypes.convertible 6 (mergeTypes.replacement 6 mergeMap u)).any (fun ts ↦ ∀ v ∈ ts,
          mergeTypes.template? v = some template → mergeTypes.isOpen 6 v ≠ some true →
            v = mergeTypes.replacement 6 mergeMap u) = true) = true := by decide +kernel
  obtain ⟨map, hmap, hfind⟩ := Method.infer_recovers reachable_mergeTypes hargs (Std.Refl.refl mergeTypes)
    exactCall_merge hclear fun t ht u y hu hparam _ hy ↦ by
      have hu := hmentions t ht u hu
      obtain rfl := (becomes_mergeParts_iff hu).1 hy
      obtain ⟨template, hinst, hrest⟩ := (Option.any_eq_true _ _).1 (hsole u hu hparam)
      obtain ⟨hclosed, honly⟩ := of_decide_eq_true hrest
      obtain ⟨ts, hts, honly⟩ := (Option.any_eq_true _ _).1 honly
      exact ⟨template, sole_of_convertible hinst hclosed hts (of_decide_eq_true honly)⟩
  refine ⟨exactCall_merge, map, hmap, ?_, ?_⟩
  · rw [hfind]
    decide +kernel
  · rw [hfind]
    decide +kernel

def slotTypes : Registry := (makeSlot builtin).state?.getD {}

theorem reachable_slotTypes : Reachable TypeDecl.IsDeclaration slotTypes :=
  (reachable_getD keeps_makeSlot).mono fun _ h ↦ h.toIsDeclaration

/-- `fill<Slot<U>, U>(x: Slot<U>)` -/
def fill : Method where
  name := "fill"
  owner := .object
  id := ⟨91⟩
  kind := .staticMethod
  params := [⟨"x", fillSlot⟩]
  result := .void
  typeParams := [fillSlot, fillItem]

theorem satisfies_slotTypes : ∀ q ∈ [(fillSlot, TypeId.int), (fillItem, .string)],
    Answers (slotTypes.satisfies · q.1 q.2) true := by
  have hfits : ∀ q ∈ [(fillSlot, TypeId.int), (fillItem, .string)],
      slotTypes.satisfies 1 q.1 q.2 = some true := by decide +kernel
  exact fun q hq ↦ .of_eq (slotTypes.satisfies_succ · q.1 q.2) (hfits q hq)

theorem infer_fill : Answers (fun fuel ↦ fill.infer slotTypes fuel [.literal (.int 1)]) none := by
  have hexpected : fill.expectedTypes slotTypes 1 = some [fillSlot] := rfl
  have hpair : Answers (slotTypes.pairExpr · fillSlot (.literal (.int 1))) [(fillSlot, .int)] := by
    simp only [pairExpr_of_not_lambda (e := .literal (.int 1)) rfl]
    exact answers_pairTypes_of_param (by decide +kernel) .int
  have hbind : Substitution.bindAll ∅ ([[(fillSlot, TypeId.int)]].flatten.filter (·.1 ∈ fill.typeParams)) =
      some (.insert ∅ fillSlot .int) := rfl
  have hfits : Answers (fun n ↦ Substitution.fits slotTypes n (.insert ∅ fillSlot .int) fill.typeParams)
      false := by
    have hunbound : (Dictionary.insert ∅ fillSlot TypeId.int).find? fillItem = none := by decide +kernel
    simp only [Substitution.fits, fill, List.allM_cons, Dictionary.find?_insert_self, hunbound]
    exact (satisfies_slotTypes (fillSlot, .int) (by simp)).bind (.const false)
  simp only [Method.infer, List.length_singleton, hexpected, List.zip_cons_cons, List.zip_nil_right,
    List.mapM_cons, List.mapM_nil]
  refine (hpair.bind (.const [[(fillSlot, TypeId.int)]])).bind ?_
  simp only [hbind]
  exact hfits.bind (.const none)

def pickItem : TypeId := .ofParam "pick" "T"

def pickTypes : Registry := (registerParam "T" { owner := "pick", index := 0 } builtin).state?.getD {}

/-- `pick<T>(x: T, rest: int...)`, where the rest parameter is not an array. -/
def pick : Method where
  name := "pick"
  owner := .object
  id := ⟨92⟩
  kind := .staticMethod
  params := [⟨"x", pickItem⟩, ⟨"rest", .int⟩]
  result := .void
  isVariadic := true
  typeParams := [pickItem]

/-- A type parameter that is mentioned only by another type parameter is not inferred, and nothing is
inferred for a rest parameter that is not an array, though the arguments have the types that a choice of
type arguments makes of the parameter types. -/
theorem Method.infer_not_recovered :
    (Reachable TypeDecl.IsDeclaration slotTypes ∧ fill.isUnboundGeneric = true ∧
      (∀ p ∈ fill.typeParams, slotTypes.Mentions fillSlot p) ∧
      slotTypes.Becomes (.ofList [(fillSlot, .int), (fillItem, .string)]) fillSlot .int ∧
      (∀ q ∈ [(fillSlot, TypeId.int), (fillItem, .string)],
        slotTypes.isOpen 1 q.2 = some false ∧ Answers (slotTypes.satisfies · q.1 q.2) true) ∧
      Answers (fun fuel ↦ fill.infer slotTypes fuel [.literal (.int 1)]) none) ∧
    Reachable TypeDecl.IsDeclaration pickTypes ∧ pick.isUnboundGeneric = true ∧
      pickTypes.Becomes (.ofList [(pickItem, .int)]) pickItem .int ∧ pickTypes.isOpen 1 .int = some false ∧
      Answers (pickTypes.satisfies · pickItem .int) true ∧
      Answers (fun fuel ↦ pick.infer pickTypes fuel [.literal (.int 1)]) none := by
  refine ⟨⟨reachable_slotTypes, by decide +kernel, ?_, ?_, fun q hq ↦ ⟨?_, satisfies_slotTypes q hq⟩,
    infer_fill⟩, reachable_getD (keeps_registerParam _ _), by decide +kernel, ?_, by decide +kernel, ?_, ?_⟩
  · have hargs : fillItem ∈ slotTypes.typeArgs fillSlot := by decide +kernel
    simp only [fill, List.forall_mem_cons]
    exact ⟨.refl, .single hargs, by simp⟩
  · exact becomes_of_size (n := 1) (by decide +kernel) (by decide +kernel)
  · have hclosed : ∀ q ∈ [(fillSlot, TypeId.int), (fillItem, .string)],
        slotTypes.isOpen 1 q.2 = some false := by decide +kernel
    exact hclosed q hq
  · exact becomes_of_size (n := 1) (by decide +kernel) (by decide +kernel)
  · exact .of_eq (pickTypes.satisfies_succ · pickItem .int) (n := 1) (by decide +kernel)
  · have hexpected : pick.expectedTypes pickTypes 1 = none := by decide +kernel
    simp only [infer, List.length_singleton, hexpected]
    exact .const none

end CallResolution
