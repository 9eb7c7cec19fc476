import CallResolution.Proofs.Overload.Failure
import CallResolution.Proofs.Reduction.Growth
import CallResolution.Proofs.Reduction.WellScoped

/-!
Where errors come from. What a form cannot be reduced for is a fault of one of the forms in it, found in
the state in which that form is met, or else of the library's own bookkeeping.
-/

namespace CallResolution

open Attempt Registry

namespace Node

/-- What a symbol or a call goes by. -/
def name? : Node → Option String
  | symbol name _ | call _ name _ _ _ _ => some name
  | literal _ _ | lambda _ _ _ => none

def receiver? : Node → Option Node
  | call _ _ _ receiver _ _ => receiver
  | _ => none

/-- The second form stands in the first, within the lambdas `around` of it. -/
inductive Holds : Node → List (List Param) → Node → Prop
  | self (node : Node) : Holds node [] node
  | receiver {kind : CallKind} {name : String} {typeArgs : List TypeId} {on n : Node} {args : List Node}
      {span : Span} {around : List (List Param)} (h : Holds on around n) :
      Holds (.call kind name typeArgs (some on) args span) around n
  | arg {kind : CallKind} {name : String} {typeArgs : List TypeId} {on : Option Node} {a n : Node}
      {args : List Node} {span : Span} {around : List (List Param)} (ha : a ∈ args)
      (h : Holds a around n) : Holds (.call kind name typeArgs on args span) around n
  | body {params : List Param} {body n : Node} {span : Span} {around : List (List Param)}
      (h : Holds body around n) : Holds (.lambda params body span) (around ++ [params]) n

end Node

namespace Reduction

variable {fuel : Nat} {site : CallSite} {s t u : Reducer} {e : CompileError}

/-- The name that is given when no method or member of that name fits. With an empty one that is the
default member of a type that the receiver converts to, once the arguments are reduced. -/
inductive CallSite.Shows (fuel : Nat) (site : CallSite) (s : Reducer) (after : Registry) : String → Prop
  | own : Shows fuel site s after site.name
  | default {args : List Expr} {s₁ : Reducer} {owner t : TypeId} {ts : List TypeId} {shown : String}
      (hname : site.name = "") (hargs : site.reduceArgs s = .done args s₁) (hgrows : Grows s₁.types after)
      (howner : (Access.ofReceiver site.receiver).owner = some owner)
      (hts : s₁.types.convertible fuel owner = some ts) (ht : t ∈ ts)
      (hdefault : s₁.types.defaultMember? t = some shown) : Shows fuel site s after shown

/-- The errors that the use of a symbol under a stock rule can end in, its arguments apart. -/
inductive CallSite.Faults (fuel : Nat) (site : CallSite) (s : Reducer) (after : Registry) :
    CompileError → Prop
  | internal {e : CompileError} (h : e.isInternal = true) : Faults fuel site s after e
  | undefined {shown : String} (h : site.Shows fuel s after shown) :
      Faults fuel site s after (.undefinedSymbol shown site.span)
  | noMatch {shown : String} (h : site.Shows fuel s after shown) (described : String) :
      Faults fuel site s after (.noMatchingOverload shown described site.span)
  | ambiguous (method candidates : String) :
      Faults fuel site s after (.ambiguousOverload method candidates site.span)

theorem onTypes_eq_failed_iff {α : Type} {x : Attempt Registry CompileError α} :
    onTypes x s = .failed e t ↔ ∃ r, x s.types = .failed e r ∧ t = { s with types := r } := by
  unfold onTypes within
  cases x s.types with
  | done a r => simp
  | failed e' r => simp [eq_comm]
  | exhausted => simp

theorem faults_of_dispatchAt {receiver : Option Expr} {members : List Method} {args : List Expr}
    (h : dispatchAt fuel site receiver members args s = .failed e t) (s₀ : Reducer) (after : Registry) :
    site.Faults fuel s₀ after e := by
  simp only [dispatchAt, get_bind] at h
  obtain ⟨r, hr, -⟩ := onTypes_eq_failed_iff.1 h
  rcases raises_dispatch _ _ _ _ _ _ _ _ _ _ hr with he | ⟨name, candidates, rfl⟩
  · exact .internal he
  · exact .ambiguous name candidates

theorem faults_of_tryDispatch {receiver : Option Expr} {members : List Method} {args : List Expr}
    (h : tryDispatch fuel site receiver members args s = .failed e t) (s₀ : Reducer) (after : Registry) :
    site.Faults fuel s₀ after e := by
  unfold tryDispatch at h
  split at h
  · cases h
  · exact faults_of_dispatchAt h s₀ after

theorem callOverload_failed {receiver : Option Expr} {overloads : List Method}
    (h : callOverload fuel site receiver overloads s = .failed e t) :
    site.reduceArgs s = .failed e t ∨ site.Faults fuel s t.types e := by
  unfold callOverload at h
  rcases bind_eq_failed_iff.1 h with h | ⟨args, s₁, -, h⟩
  · exact .inl h
  refine .inr ?_
  rcases bind_eq_failed_iff.1 h with h | ⟨described, s₂, -, h⟩
  · cases h
  rcases bind_eq_failed_iff.1 h with h | ⟨found, s₃, -, h⟩
  · exact faults_of_dispatchAt h s t.types
  cases found with
  | some e' => cases h
  | none =>
    cases h
    exact .noMatch .own described

theorem shows_liveName {args : List Expr} {s₁ : Reducer} {search : List TypeId} {after : Registry}
    (hargs : site.reduceArgs s = .done args s₁) (hgrows : Grows s₁.types after)
    (hsearch : (Access.ofReceiver site.receiver).search s₁.types fuel = some search) :
    site.Shows fuel s after ((site.liveName s₁.types search).getD site.name) := by
  unfold CallSite.liveName
  split
  case isFalse => exact .own
  case isTrue hname =>
    cases hfound : search.findSome? s₁.types.defaultMember? with
    | none => exact .own
    | some shown =>
      obtain ⟨x, hx, hdefault⟩ := List.exists_of_findSome?_eq_some hfound
      unfold Access.search at hsearch
      cases howner : (Access.ofReceiver site.receiver).owner with
      | none =>
        rw [howner] at hsearch
        cases hsearch
        cases hx
      | some owner =>
        rw [howner] at hsearch
        obtain ⟨ts, hts, hsearch⟩ := Option.bind_eq_some_iff.1 hsearch
        cases hsearch
        exact .default (String.isEmpty_iff.1 hname) hargs hgrows howner hts (List.mem_filter.1 hx).1 hdefault

theorem accessLive_failed (h : accessLive fuel site s = .failed e t) :
    site.reduceArgs s = .failed e t ∨ site.Faults fuel s t.types e := by
  unfold accessLive at h
  rcases bind_eq_failed_iff.1 h with h | ⟨args, s₁, hargs, h⟩
  · exact .inl h
  refine .inr ?_
  rcases bind_eq_failed_iff.1 h with h | ⟨search, s₁', hask, h⟩
  · exact absurd h ask_ne_failed
  obtain ⟨hsearch, rfl⟩ := ask_eq_done_iff.1 hask
  simp only [get_bind, ← CallSite.liveName.eq_1] at h
  rcases bind_eq_failed_iff.1 h with h | ⟨described, s₁', hdesc, h⟩
  · cases h
  cases hdesc
  rcases bind_eq_failed_iff.1 h with h | ⟨found, s₂, hfound, h⟩
  · exact faults_of_tryDispatch h s t.types
  cases found with
  | some e' => cases h
  | none =>
    dsimp only at h
    rw [get_bind] at h
    rcases bind_eq_failed_iff.1 h with h | ⟨made, s₃, hmade, h⟩
    · exact faults_of_tryDispatch h s t.types
    cases made with
    | some e' => cases h
    | none =>
      dsimp only at h
      rw [get_bind] at h
      have hgrows : Grows s₁.types s₃.types :=
        IsTrans.trans _ _ _ (types_of_tryDispatch grows_substitute hfound)
          (types_of_tryDispatch grows_substitute hmade)
      have hshows := shows_liveName hargs hgrows hsearch
      cases hm : accessMember s₃.types (Access.ofReceiver site.receiver).receiver
          (membersOf s₃.types site (Access.ofReceiver site.receiver) search
            (site.liveName s₁.types search)) args with
      | some e' =>
        simp only [hm] at h
        cases h
      | none =>
        simp only [hm] at h
        split at h
        · cases h
          exact .undefined hshows
        · cases h
          exact .noMatch hshows _

theorem applyRule_failed {rule : Rule} (hstock : rule.isStock = true)
    (h : applyRule fuel site rule s = .failed e t) :
    site.reduceArgs s = .failed e t ∨ site.Faults fuel s t.types e := by
  cases rule with
  | constant e' => cases h
  | typeReference target =>
    rcases bind_eq_failed_iff.1 h with h | ⟨type, s₁, -, h⟩
    · obtain ⟨r, hr, -⟩ := onTypes_eq_failed_iff.1 h
      refine .inr (.internal ?_)
      exact Raises.mapError (Q := (·.isInternal = true)) (fun _ _ _ _ ↦ rfl) _ _ _ hr
    · cases h
  | methods overloads => exact callOverload_failed h
  | constructors target =>
    rw [applyRule, applyRuleBy, get_bind] at h
    exact callOverload_failed h
  | liveMembers => exact accessLive_failed h
  | receiver | letIn _ | failing _ => cases hstock

theorem resolve_failed (hstock : s.scopes.IsStock) (h : resolve fuel site s = .failed e t) :
    site.reduceArgs s = .failed e t ∨ site.Faults fuel s t.types e := by
  unfold resolve resolveBy at h
  rcases bind_eq_failed_iff.1 h with h | ⟨found, s', hask, h⟩
  · exact absurd h ask_ne_failed
  obtain ⟨hfound, rfl⟩ := ask_eq_done_iff.1 hask
  rw [get_bind] at h
  cases hd : (found.map Prod.snd).or (s.scopes.find? .missing) with
  | none =>
    simp only [hd] at h
    cases h
    exact .inr (.undefined .own)
  | some d =>
    simp only [hd] at h
    refine applyRule_failed ?_ h
    rcases Option.or_eq_some_iff.1 hd with hd | ⟨-, hd⟩
    · obtain ⟨⟨k, d'⟩, rfl, rfl⟩ := Option.map_eq_some_iff.1 hd
      obtain ⟨scope, hscope, hmem, -⟩ := ScopeChain.mem_of_closestMatch hfound
      exact hstock scope hscope _ hmem
    · obtain ⟨scope, hscope, k, hmem, -⟩ := ScopeChain.mem_of_find? hd
      exact hstock scope hscope _ hmem

/-- The name under which a form is reported in the state `u`, where `after` are the types once it is given
up: its own or, if that is empty, the default member of a type that what its receiver reduces to (or, if
that is a type, this type) converts to. -/
inductive Reports (fuel : Nat) (u : Reducer) (after : Registry) (node : Node) : String → Prop
  | own {name : String} (hname : node.name? = some name) : Reports fuel u after node name
  | default {on : Node} {e : Expr} {u' : Reducer} {r : Registry} {owner t : TypeId} {ts : List TypeId}
      {shown : String} (hname : node.name? = some "") (hon : node.receiver? = some on)
      (hrun : reduce fuel on u = .done e u') (hargs : Grows u'.types r) (hafter : Grows r after)
      (howner : (Access.ofReceiver (some e)).owner = some owner) (hts : r.convertible fuel owner = some ts)
      (ht : t ∈ ts) (hdefault : r.defaultMember? t = some shown) : Reports fuel u after node shown

/-- The error is about the form itself, which is met in the state `u`. -/
inductive Blames (fuel : Nat) (u : Reducer) (after : Registry) (node : Node) : CompileError → Prop
  | undefinedSymbol {shown : String} (h : Reports fuel u after node shown) :
      Blames fuel u after node (.undefinedSymbol shown node.span)
  | noMatchingOverload {shown : String} (h : Reports fuel u after node shown) (described : String) :
      Blames fuel u after node (.noMatchingOverload shown described node.span)
  | ambiguousOverload {name : String} (hname : node.name? = some name) (method candidates : String) :
      Blames fuel u after node (.ambiguousOverload method candidates node.span)
  | scopeTooDeep {params : List Param} {body : Node} {span : Span} (hnode : node = .lambda params body span)
      (hdeep : u.options.maxDepth < u.scopes.depth + 1) :
      Blames fuel u after node (.scopeTooDeep u.options.maxDepth span)

/-- The state `u` is met on the way from `s`, in the body of the lambdas `around`. -/
structure Inside (s : Reducer) (around : List (List Param)) (u : Reducer) : Prop where
  types : Grows s.types u.types
  scopes : Nested s.scopes around u.scopes
  options : u.options = s.options
  depth_le : u.scopes.depth ≤ max s.scopes.depth s.options.maxDepth

/-- The error is internal or about a form in `node`. -/
def Traced (fuel : Nat) (node : Node) (s : Reducer) (after : Registry) (e : CompileError) : Prop :=
  e.isInternal = true ∨
    ∃ around n u, node.Holds around n ∧ Inside s around u ∧ Blames fuel u after n e

/-- Under stock definitions, the second state has the scopes of the first and at least its types. -/
def Proceeds (s t : Reducer) : Prop := s.scopes.IsStock → Restores s t ∧ Grows s.types t.types

instance : Std.Refl Proceeds := ⟨fun _ _ ↦ ⟨refl _, refl _⟩⟩

instance : IsTrans Reducer Proceeds := by
  refine ⟨fun s t u h h' hstock ↦ ?_⟩
  obtain ⟨hst, hgrows⟩ := h hstock
  obtain ⟨htu, hgrows'⟩ := h' (hst.scopes ▸ hstock)
  exact ⟨IsTrans.trans _ _ _ hst htu, IsTrans.trans _ _ _ hgrows hgrows'⟩

theorem proceeds_reduce (fuel : Nat) (node : Node) : Along Proceeds (reduce fuel node) :=
  fun s t h hstock ↦ ⟨restores_reduce fuel node s t h, grows_reduce hstock h⟩

theorem proceeds_reduceReceiver (fuel : Nat) (on : Option Node) : Along Proceeds (reduceReceiver fuel on) := by
  cases on with
  | none => exact .pure none
  | some node => exact (proceeds_reduce fuel node).bind fun _ ↦ .pure _

theorem delay_eq_map (fuel : Nat) (nodes : List Node) : delay fuel nodes = nodes.map (reduce fuel) := by
  induction nodes with
  | nil => rfl
  | cons node nodes ih => rw [delay_cons, List.map_cons, ih]

theorem proceeds_delay (fuel : Nat) (nodes : List Node) : ∀ x ∈ delay fuel nodes, Along Proceeds x := by
  rw [delay_eq_map, List.forall_mem_map]
  exact fun node _ ↦ proceeds_reduce fuel node

namespace Nested

variable {root c : ScopeChain Definition} {around : List (List Param)}

theorem depth_eq (h : Nested root around c) : c.depth = root.depth + around.length := by
  induction h with
  | root => rfl
  | enter _ _ ih =>
    rw [ScopeChain.depth_enter, ih, List.length_cons]
    omega

theorem of_enter {f : Scope Definition} {params : List Param} (hf : f.entries = paramEntries params)
    (h : Nested (root.enter f) around c) : Nested root (around ++ [params]) c := by
  induction h with
  | root => exact .enter .root hf
  | enter _ hg ih => exact .enter ih hg

end Nested

namespace Inside

variable {around : List (List Param)}

theorem self (s : Reducer) : Inside s [] s := ⟨refl _, .root, rfl, le_max_left _ _⟩

theorem of_proceeds (hst : Proceeds s t) (hstock : s.scopes.IsStock) (h : Inside t around u) :
    Inside s around u := by
  obtain ⟨⟨hscopes, hoptions⟩, hgrows⟩ := hst hstock
  exact ⟨IsTrans.trans _ _ _ hgrows h.types, hscopes ▸ h.scopes, h.options.trans hoptions,
    hscopes ▸ hoptions ▸ h.depth_le⟩

/-- What is met in the body of a lambda is met from outside it. -/
theorem of_enter {r : Registry} {c : ScopeChain Definition} {o : Options} {f : Scope Definition}
    {params : List Param} (hf : f.entries = paramEntries params) (hdepth : c.depth + 1 ≤ o.maxDepth)
    (h : Inside ⟨r, c.enter f, o⟩ around u) : Inside ⟨r, c, o⟩ (around ++ [params]) u := by
  refine ⟨h.types, .of_enter hf h.scopes, h.options, h.depth_le.trans ?_⟩
  change max (c.depth + 1) o.maxDepth ≤ max c.depth o.maxDepth
  omega

end Inside

theorem Traced.of_proceeds {node : Node} {after : Registry} (hst : Proceeds s t)
    (hstock : s.scopes.IsStock) (h : Traced fuel node t after e) : Traced fuel node s after e := by
  rcases h with he | ⟨around, n, u, hn, hu, hblames⟩
  · exact .inl he
  · exact .inr ⟨around, n, u, hn, hu.of_proceeds hst hstock, hblames⟩

theorem Traced.imp {node node' : Node} {after : Registry}
    (hholds : ∀ around n, node.Holds around n → node'.Holds around n) (h : Traced fuel node s after e) :
    Traced fuel node' s after e := by
  rcases h with he | ⟨around, n, u, hn, hu, hblames⟩
  · exact .inl he
  · exact .inr ⟨around, n, u, hholds around n hn, hu, hblames⟩

/-- A run of arguments fails at one of them, in a state that the others proceed to. -/
theorem reduceArgs_failed {nodes : List Node} (hargs : site.args = delay fuel nodes)
    (h : site.reduceArgs s = .failed e t) :
    ∃ node ∈ nodes, ∃ u, Proceeds s u ∧ reduce fuel node u = .failed e t := by
  obtain ⟨before, x, after, zs, u, hsplit, hbefore, hx⟩ := exists_split_of_mapM_failed h
  have hmem (y : Reduction Expr) (hy : y ∈ before ++ x :: after) : y ∈ nodes.map (reduce fuel) := by
    rwa [← delay_eq_map, ← hargs, hsplit]
  obtain ⟨node, hnode, rfl⟩ := List.mem_map.1 (hmem x (by simp))
  refine ⟨node, hnode, u, ?_, hx⟩
  refine (Along.mapM_of_mem fun y hy ↦ ?_).of_done hbefore
  obtain ⟨node', -, rfl⟩ := List.mem_map.1 (hmem y (by simp [hy]))
  exact proceeds_reduce fuel node'

/-- What the use of a symbol is at fault for, its form is. -/
theorem traced_of_faults {node : Node} {after : Registry} (hname : node.name? = some site.name)
    (hspan : node.span = site.span)
    (hreports : ∀ shown, site.Shows fuel t after shown → Reports fuel s after node shown)
    (h : site.Faults fuel t after e) : Traced fuel node s after e := by
  have hblames (hb : Blames fuel s after node e) : Traced fuel node s after e :=
    .inr ⟨[], node, s, .self node, .self s, hb⟩
  cases h with
  | internal he => exact .inl he
  | undefined hshows =>
    rw [← hspan] at hblames ⊢
    exact hblames (.undefinedSymbol (hreports _ hshows))
  | noMatch hshows described =>
    rw [← hspan] at hblames ⊢
    exact hblames (.noMatchingOverload (hreports _ hshows) described)
  | ambiguous method candidates =>
    rw [← hspan] at hblames ⊢
    exact hblames (.ambiguousOverload hname method candidates)

/-- From a state with stock definitions, the form fails for a fault of its own or of one that it holds. -/
def IsTraced (fuel : Nat) (node : Node) : Prop :=
  ∀ s t e, s.scopes.IsStock → reduce fuel node s = .failed e t → Traced fuel node s t.types e

theorem traced_symbol (name : String) (span : Span) : IsTraced fuel (.symbol name span) := by
  intro s t e hstock h
  rw [reduce_symbol] at h
  rcases resolve_failed hstock h with h | h
  · cases h
  · refine traced_of_faults (s := s) rfl rfl (fun shown hshows ↦ ?_) h
    cases hshows with
    | own => exact .own rfl
    | default _ _ _ howner => cases howner

theorem traced_lambda {params : List Param} {body : Node} {span : Span}
    (hbody : IsTraced fuel body) : IsTraced fuel (.lambda params body span) := by
  rintro ⟨r, c, o⟩ t e hstock h
  by_cases hdepth : c.depth + 1 ≤ o.maxDepth
  case neg =>
    rw [reduce_lambda, inScope_of_deep (by omega)] at h
    cases h
    exact .inr ⟨[], _, _, .self _, .self _, .scopeTooDeep rfl (by simpa using hdepth)⟩
  cases hf : ({} : Scope Definition).addAll (paramEntries params) with
  | error e' =>
    rw [reduce_lambda_of_error hdepth hf] at h
    cases h
    exact .inl rfl
  | ok f =>
    have hentries := Scope.entries_of_addAll hf
    rw [reduce_lambda_of_ok hdepth hf] at h
    have hleave (u : Reducer) (hu : (reduce fuel body ⟨r, c.enter f, o⟩).state? = some u) :
        u.scopes.leave? = some c := by
      rw [(restores_reduce fuel body _ u hu).scopes, ScopeChain.leave?_enter]
    cases hrun : reduce fuel body ⟨r, c.enter f, o⟩ with
    | done e' u =>
      rw [ensuring_pop_of_done (map_eq_done_iff.2 ⟨_, hrun, rfl⟩) (hleave u (by rw [hrun]; rfl))] at h
      cases h
    | exhausted =>
      rw [ensuring_of_exhausted (by rw [map_apply, hrun])] at h
      cases h
    | failed e' u =>
      rw [ensuring_pop_of_failed (by rw [map_apply, hrun]) (hleave u (by rw [hrun]; rfl))] at h
      cases h
      rcases hbody _ _ _ (Tandem.isStock_enter hstock hentries) hrun with he | ⟨around, n, v, hn, hv, hblames⟩
      · exact .inl he
      · exact .inr ⟨around ++ [params], n, v, .body hn, hv.of_enter hentries hdepth, hblames⟩

/-- The name that a call is reported under comes from its receiver as reduced first. -/
theorem reports_of_shows {kind : CallKind} {name : String} {typeArgs : List TypeId} {on : Option Node}
    {args : List Node} {span : Span} {receiver : Option Expr} {after : Registry} {shown : String}
    (hstock : t.scopes.IsStock) (hreceiver : reduceReceiver fuel on s = .done receiver t)
    (h : CallSite.Shows fuel { kind, name, typeArgs, span, receiver, args := delay fuel args } t after shown) :
    Reports fuel s after (.call kind name typeArgs on args span) shown := by
  cases h with
  | own => exact .own rfl
  | default hname hargs hafter howner hts ht hdefault =>
    cases on with
    | none =>
      cases hreceiver
      cases howner
    | some node =>
      obtain ⟨e, u, hrun, h⟩ := bind_eq_done_iff.1 hreceiver
      cases h
      have hproceeds := (Along.mapM_of_mem (proceeds_delay fuel args)).of_done hargs
      exact .default (congrArg some hname) rfl hrun (hproceeds hstock).2 hafter howner hts ht hdefault

theorem traced_call {kind : CallKind} {name : String} {typeArgs : List TypeId} {on : Option Node}
    {args : List Node} {span : Span} (hon : ∀ node ∈ on, IsTraced fuel node)
    (hargs : ∀ node ∈ args, IsTraced fuel node) :
    IsTraced fuel (.call kind name typeArgs on args span) := by
  intro s t e hstock h
  rw [reduce_call] at h
  rcases bind_eq_failed_iff.1 h with h | ⟨receiver, s₁, hreceiver, h⟩
  · cases on with
    | none => cases h
    | some node =>
      rcases bind_eq_failed_iff.1 h with h | ⟨_, _, _, h⟩
      · exact (hon node rfl s t e hstock h).imp fun around n ↦ .receiver
      · cases h
  have hproceeds := (proceeds_reduceReceiver fuel on).of_done hreceiver
  have hstock₁ : s₁.scopes.IsStock := (hproceeds hstock).1.scopes ▸ hstock
  rcases resolve_failed hstock₁ h with h | h
  · obtain ⟨node, hnode, u, hu, hrun⟩ := reduceArgs_failed rfl h
    have htraced := hargs node hnode u t e ((hu hstock₁).1.scopes ▸ hstock₁) hrun
    have hall : Proceeds s u := IsTrans.trans _ _ _ hproceeds hu
    exact (htraced.of_proceeds hall hstock).imp fun around n ↦ .arg hnode
  · exact traced_of_faults rfl rfl (fun shown ↦ reports_of_shows hstock₁ hreceiver) h

mutual

theorem traced_reduce (fuel : Nat) : (node : Node) → IsTraced fuel node
  | .literal _ _ => fun _ _ _ _ h ↦ by cases h
  | .symbol name span => traced_symbol name span
  | .call _ _ _ on args _ => traced_call (traced_receiver fuel on) (traced_args fuel args)
  | .lambda _ body _ => traced_lambda (traced_reduce fuel body)

theorem traced_receiver (fuel : Nat) : (on : Option Node) → ∀ node ∈ on, IsTraced fuel node
  | none => by simp
  | some node => by simpa using traced_reduce fuel node

theorem traced_args (fuel : Nat) : (nodes : List Node) → ∀ node ∈ nodes, IsTraced fuel node
  | [] => by simp
  | node :: nodes => List.forall_mem_cons.2 ⟨traced_reduce fuel node, traced_args fuel nodes⟩

end

theorem Blames.span_eq {node : Node} {after : Registry} (h : Blames fuel u after node e) :
    e.span = node.span := by
  cases h with
  | undefinedSymbol _ | noMatchingOverload _ _ | ambiguousOverload _ _ _ => rfl
  | scopeTooDeep hnode _ =>
    rw [hnode]
    rfl

end Reduction

namespace Environment

open Reduction

theorem isStock_numberRoot : ScopeChain.IsStock ⟨numberRoot, []⟩ := by
  intro s hs
  obtain rfl := List.mem_singleton.1 hs
  decide

/-- Under stock definitions, the form that an error points to is one of those that the compiled form
consists of, and it has the fault that the error says. -/
theorem compile_failure_points_into_source {env env' : Environment} {root : Scope Definition}
    (hroot : env.root = some root) (hstock : ScopeChain.IsStock ⟨root, []⟩) {fuel : Nat} {node : Node}
    {error : EnvironmentError} (h : compile fuel node env = .failed error env') :
    ∃ e, error = .compilation e ∧ (e.isInternal = false →
      ∃ around n u, node.Holds around n ∧ Inside ⟨env.types, ⟨root, []⟩, env.options⟩ around u ∧
        Blames fuel u env'.types n e ∧ e.span = n.span) := by
  rw [compile, reduceWith_apply hroot] at h
  cases hrun : reduce fuel node ⟨env.types, ⟨root, []⟩, env.options⟩ with
  | done a s =>
    rw [hrun] at h
    cases h
  | exhausted =>
    rw [hrun] at h
    cases h
  | failed e s =>
    rw [hrun] at h
    cases h
    refine ⟨e, rfl, fun he ↦ ?_⟩
    rcases traced_reduce fuel node _ _ _ hstock hrun with hinternal | ⟨around, n, u, hn, hu, hblames⟩
    · rw [he] at hinternal
      cases hinternal
    · exact ⟨around, n, u, hn, hu, hblames, hblames.span_eq⟩

/-- The function `(a : array) => a.(7)`, in which the method that is called goes without a name. -/
def unnamedCall : Node :=
  .lambda [⟨"a", .array⟩]
    (.call .ofMethod "" [] (some (.symbol "a" ⟨1, 14, 1⟩)) [.literal (.int 7) ⟨1, 17, 1⟩] ⟨1, 14, 5⟩)
    ⟨1, 1, 18⟩

/-- The call is reported as one to the default member of an array. -/
theorem compile_failure_points_into_unnamedCall :
    ScopeChain.IsStock ⟨numberRoot, []⟩ ∧
    compile 5 unnamedCall { root := some numberRoot } =
      .failed (.compilation (.undefinedSymbol "Item" ⟨1, 14, 5⟩)) { root := some numberRoot } ∧
    ∃ around n u, unnamedCall.Holds around n ∧
      Inside ⟨.builtin, ⟨numberRoot, []⟩, {}⟩ around u ∧
      Blames 5 u .builtin n (.undefinedSymbol "Item" ⟨1, 14, 5⟩) ∧ n.span = ⟨1, 14, 5⟩ := by
  have hrun : compile 5 unnamedCall { root := some numberRoot } =
      .failed (.compilation (.undefinedSymbol "Item" ⟨1, 14, 5⟩)) { root := some numberRoot } := rfl
  obtain ⟨e, he, hpoints⟩ := compile_failure_points_into_source rfl isStock_numberRoot hrun
  cases he
  obtain ⟨around, n, u, hn, hu, hblames, hspan⟩ := hpoints rfl
  exact ⟨isStock_numberRoot, hrun, around, n, u, hn, hu, hblames, hspan.symm⟩

end Environment

end CallResolution
