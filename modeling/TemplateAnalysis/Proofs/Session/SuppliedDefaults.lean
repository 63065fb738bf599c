import TemplateAnalysis.Proofs.Ast.ClosedTrees
import TemplateAnalysis.Proofs.Session.BindingShape

/-!
# Defaults that are supplied

A parameter that no argument is supplied for is bound to its default, with the arguments
before it substituted. Supplying these defaults as arguments binds the same, and so asks for
the same instance: at every parameter both ways bind the same tree, in the same session. The
trees may be supplied, since what has been substituted is closed, and with them every
parameter but a pack has its argument, so that nothing is left for the pack. An instantiation
binds its arguments one level deeper than they are bound outside of it; where that succeeds,
the levels that are left make no difference.
-/

namespace TemplateAnalysis

open Session Analysis

/-! ### Parameters that are no packs -/

namespace ParameterList

variable {ps : ParameterList} {p : TemplateParameter} {args : Arguments} {k : Nat}
  {defaults : List Node}

def plainCount (ps : ParameterList) : Nat := ps.countP (!·.isPack)

/-- In a valid list a pack stands behind all other parameters. -/
theorem isPack_eq_false_iff (hvalid : ps.validate = .ok ()) {i : Nat} (hp : ps[i]? = some p) :
    p.isPack = false ↔ i < ps.plainCount := by
  induction ps generalizing i with
  | nil => cases hp
  | cons q rest ih =>
    obtain ⟨hlast, hrest⟩ := validate_cons.mp hvalid
    rw [plainCount]
    cases hpack : q.isPack with
    | true =>
      obtain ⟨rfl, -⟩ := hlast hpack
      cases i with
      | zero =>
        cases hp
        simp [hpack]
      | succ i => cases hp
    | false =>
      rw [List.countP_cons_of_pos (by simp [hpack])]
      cases i with
      | zero =>
        cases hp
        simp [hpack]
      | succ i => exact (ih hrest hp).trans Nat.succ_lt_succ_iff.symm

theorem plainCount_le_length (ps : ParameterList) : ps.plainCount ≤ ps.length :=
  List.countP_le_length

theorem plainCount_of_grows {qs : ParameterList} (h : List.Forall₂ TemplateParameter.Grows ps qs) :
    qs.plainCount = ps.plainCount := by
  unfold plainCount
  induction h with
  | nil => rfl
  | cons hparameter _ ih => rw [List.countP_cons, List.countP_cons, ih, hparameter.isPack]

/-- Whether a tree is the default of the parameter at `index`, for what the parameters before
it are bound to. -/
def DefaultsTo (ps : ParameterList) (args : Arguments) (index : Nat) (node : Node) : Prop :=
  ∃ p pattern, ps[index]? = some p ∧ p.isPack = false ∧ p.defaultArgument = some pattern ∧
    pattern.substitute (args.take index) = .ok node

/-- Some trees are the defaults of the parameters from the `k`-th on, but for a pack. -/
structure DefaultsFrom (ps : ParameterList) (args : Arguments) (k : Nat) (defaults : List Node) :
    Prop where
  length : k + defaults.length = ps.plainCount
  each : ∀ i node, defaults[i]? = some node → ps.DefaultsTo args (k + i) node

theorem DefaultsTo.isExpansion_eq_false {index : Nat} {node : Node}
    (h : ps.DefaultsTo args index node) : node.isExpansion = false := by
  obtain ⟨_, pattern, _, _, _, hnode⟩ := h
  have hclosed := (pattern.closes_substitute.substitute _).yields node hnode
  cases node with
  | packExpansion inner span => cases hclosed _ List.mem_cons_self
  | _ => rfl

theorem DefaultsTo.of_grows {qs : ParameterList} {index : Nat} {node : Node}
    (h : ps.DefaultsTo args index node) (hgrows : List.Forall₂ TemplateParameter.Grows ps qs) :
    qs.DefaultsTo args index node := by
  obtain ⟨p, pattern, hp, hpack, hdefault, hnode⟩ := h
  obtain ⟨hlt, rfl⟩ := List.getElem?_eq_some_iff.mp hp
  have hgrown := hgrows.get hlt (hgrows.length_eq ▸ hlt)
  exact ⟨_, pattern, List.getElem?_eq_getElem _, hgrown.isPack.trans hpack,
    hgrown.defaultArgument pattern hdefault, hnode⟩

theorem DefaultsFrom.of_grows {qs : ParameterList} (h : ps.DefaultsFrom args k defaults)
    (hgrows : List.Forall₂ TemplateParameter.Grows ps qs) : qs.DefaultsFrom args k defaults where
  length := h.length.trans (plainCount_of_grows hgrows).symm
  each i node hnode := (h.each i node hnode).of_grows hgrows

theorem DefaultsFrom.forall_mem (h : ps.DefaultsFrom args k defaults) :
    ∀ node ∈ defaults, ∃ index, ps.DefaultsTo args index node := fun node hnode => by
  obtain ⟨i, hi⟩ := List.mem_iff_getElem?.mp hnode
  exact ⟨k + i, h.each i node hi⟩

theorem exists_defaultsFrom (hk : k ≤ ps.plainCount)
    (h : ∀ index, k ≤ index → index < ps.plainCount → ∃ node, ps.DefaultsTo args index node) :
    ∃ defaults, ps.DefaultsFrom args k defaults := by
  have hnode : ∀ i : Fin (ps.plainCount - k), ∃ node, ps.DefaultsTo args (k + i) node :=
    fun i => h (k + i) (Nat.le_add_right k i) (by omega)
  choose node hnode using hnode
  refine ⟨List.ofFn node, by rw [List.length_ofFn]; omega, fun i d hd => ?_⟩
  obtain ⟨hi, rfl⟩ := List.getElem?_eq_some_iff.mp hd
  rw [List.getElem_ofFn]
  exact hnode ⟨i, by rwa [List.length_ofFn] at hi⟩

end ParameterList

/-! ### One parameter after the other -/

section Binding

variable {inst : Instantiator} {s u : Session} {site : BindingSite} {defaults : List Node}
  {args : Arguments} {index : Nat} {done bound : Binding} {p : TemplateParameter}

def BindingSite.append (site : BindingSite) (more : List Node) : BindingSite :=
  { site with supplied := site.supplied ++ more }

/-- With the defaults supplied, every parameter gets the tree that it gets without. -/
theorem BindingSite.argument_append (hvalid : site.parameters.validate = .ok ())
    (hdefaults : site.parameters.DefaultsFrom args site.supplied.length defaults)
    (hp : site.parameters[index]? = some p) (hpack : p.isPack = false) :
    (site.append defaults).argument index p (args.take index) =
      site.argument index p (args.take index) := by
  unfold argument append
  by_cases hsupplied : index < site.supplied.length
  · rw [List.getElem?_append_left hsupplied, List.getElem?_eq_getElem hsupplied]
  · have hle := Nat.le_of_not_lt hsupplied
    have hplain := (ParameterList.isPack_eq_false_iff hvalid hp).mp hpack
    have hindex : index - site.supplied.length < defaults.length := by
      have := hdefaults.length
      omega
    have hgiven := List.getElem?_eq_getElem hindex
    obtain ⟨q, pattern, hq, _, hpattern, hnode⟩ := hdefaults.each _ _ hgiven
    rw [Nat.add_sub_cancel' hle] at hq hnode
    cases hp.symm.trans hq
    rw [List.getElem?_append_right hle, hgiven, List.getElem?_eq_none hle]
    simp only [hpattern, hnode]

/-- Nothing is left for a pack, with the defaults supplied and without. -/
theorem BindingSite.drop_append (hvalid : site.parameters.validate = .ok ())
    (hdefaults : site.parameters.DefaultsFrom args site.supplied.length defaults)
    (hp : site.parameters[index]? = some p) (hpack : p.isPack = true) :
    (site.append defaults).supplied.drop index = [] ∧ site.supplied.drop index = [] := by
  have hplain : site.parameters.plainCount ≤ index := by
    by_contra hlt
    have := (ParameterList.isPack_eq_false_iff hvalid hp).mpr (Nat.lt_of_not_le hlt)
    rw [hpack] at this
    cases this
  have hlength := hdefaults.length
  constructor
  · rw [append, List.drop_eq_nil_iff, List.length_append]
    omega
  · rw [List.drop_eq_nil_iff]
    omega

theorem exec_bindNext_append (hvalid : site.parameters.validate = .ok ())
    (hdefaults : site.parameters.DefaultsFrom args site.supplied.length defaults)
    (hp : site.parameters[index]? = some p) (hdone : done.arguments = args.take index) :
    exec (bindNext inst (site.append defaults) index done p) s =
      exec (bindNext inst site index done p) s := by
  rw [bindNext, bindNext]
  cases hpack : p.isPack with
  | true =>
    obtain ⟨hleft, hleft'⟩ := site.drop_append hvalid hdefaults hp hpack
    simp only [if_true, hleft, hleft']
    rfl
  | false =>
    simp only [Bool.false_eq_true, if_false, hdone]
    rw [site.argument_append hvalid hdefaults hp hpack]
    rfl

theorem prefix_of_bindFrom {ps : ParameterList}
    (h : exec (bindFrom inst site index done ps) s = (.ok bound, u)) :
    done.arguments <+: bound.arguments := by
  obtain ⟨xs, hxs, _⟩ := returns_bindFrom site ps index done s bound (congrArg Prod.fst h)
  exact ⟨xs, hxs.symm⟩

/-- The loop over the parameters binds the same with the defaults supplied. -/
theorem exec_bindFrom_append (hvalid : site.parameters.validate = .ok ())
    (hdefaults : site.parameters.DefaultsFrom bound.arguments site.supplied.length defaults) :
    ∀ {ps : ParameterList} {index : Nat} {s : Session} {done : Binding},
      (∀ k p, ps[k]? = some p → site.parameters[index + k]? = some p) →
      index = done.arguments.length →
      exec (bindFrom inst site index done ps) s = (.ok bound, u) →
      exec (bindFrom inst (site.append defaults) index done ps) s = (.ok bound, u)
  | [], _, _, _, _, _, h => by
    rw [bindFrom] at h ⊢
    exact h
  | p :: ps, index, s, done, hps, hindex, h => by
    have hdone : done.arguments = bound.arguments.take index := by
      rw [hindex]
      exact List.prefix_iff_eq_take.mp (prefix_of_bindFrom h)
    rw [bindFrom] at h ⊢
    obtain ⟨next, w, hnext, h⟩ := exec_bind_eq_ok.mp h
    refine exec_bind_eq_ok.mpr ⟨next, w, ?_, ?_⟩
    · have hp := hps 0 p rfl
      rw [Nat.add_zero] at hp
      rwa [exec_bindNext_append hvalid hdefaults hp hdone]
    · obtain ⟨x, hx, _⟩ := returns_bindNext site index done p s next (congrArg Prod.fst hnext)
      refine exec_bindFrom_append hvalid hdefaults (fun k q hq => ?_) ?_ h
      · rw [Nat.add_assoc, Nat.add_comm 1 k]
        exact hps (k + 1) q hq
      · rw [hx, List.length_append, hindex, List.length_singleton]

theorem bindingSite_append {target : Symbol} {data : TemplateData}
    (hentity : target.entity = .template data) {supplied : List Node} {span : Span}
    (hsite : bindingSite target supplied span = .ok site)
    (hdefaults : data.parameters.DefaultsFrom args supplied.length defaults) :
    bindingSite target (supplied ++ defaults) span = .ok (site.append defaults) := by
  have hplain : (supplied ++ defaults).find? (·.isExpansion) =
      supplied.find? (·.isExpansion) := by
    have hnone : defaults.find? (·.isExpansion) = none := by
      refine List.find?_eq_none.mpr fun node hnode => ?_
      obtain ⟨index, hindex⟩ := hdefaults.forall_mem node hnode
      simp [hindex.isExpansion_eq_false]
    rw [List.find?_append, hnone, Option.or_none]
  have hcount : ¬ data.parameters.length < (supplied ++ defaults).length := by
    have := data.parameters.plainCount_le_length
    rw [List.length_append, hdefaults.length]
    exact Nat.not_lt_of_le this
  obtain ⟨rfl, -⟩ := site_of_bindingSite hentity hsite
  unfold bindingSite at hsite ⊢
  rw [hentity] at hsite ⊢
  simp only [hplain] at hsite ⊢
  cases hfind : supplied.find? (·.isExpansion) with
  | some expansion => simp [hfind] at hsite
  | none => simp only [hcount, and_false, if_false]; rfl

/-- Whatever arguments are bound for a template, they are bound with the defaults supplied,
and nothing else is done. -/
theorem exec_bindSources_append {template : SymbolId} {data : TemplateData}
    (hentity : (s.table.symbol template).entity = .template data)
    (hvalid : data.parameters.validate = .ok ()) {supplied : List Node} {span : Span}
    (h : exec (bindSources inst template supplied span) s = (.ok bound, u))
    (hdefaults : data.parameters.DefaultsFrom bound.arguments supplied.length defaults) :
    exec (bindSources inst template (supplied ++ defaults) span) s = (.ok bound, u) := by
  rw [bindSources, exec_symbol_bind] at h ⊢
  cases hsite : bindingSite (s.table.symbol template) supplied span with
  | error d =>
    rw [exec_bind, exec_ofExcept, hsite] at h
    cases h
  | ok site =>
    rw [exec_ofExcept_bind _ hsite] at h
    rw [exec_ofExcept_bind _ (bindingSite_append hentity hsite hdefaults)]
    obtain ⟨rfl, -⟩ := site_of_bindingSite hentity hsite
    refine exec_bindFrom_append hvalid hdefaults (fun k p hp => ?_) rfl h
    rwa [Nat.zero_add]

end Binding

/-! ### Sessions -/

namespace Session

variable {config : Config} {s u v : Session} {template : SymbolId} {data : TemplateData}
  {supplied defaults : List Node} {span : Span} {args : Arguments}

/-- Where arguments are bound, the parameters that none is supplied for have their defaults. -/
theorem exists_defaultsFrom_of_bindArguments (hs : s.Closed)
    (hentity : (s.table.symbol template).entity = .template data)
    (hvalid : data.parameters.validate = .ok ())
    (hcall : (Operation.bindArguments template supplied span).IsOn s)
    (hfewer : supplied.length ≤ data.parameters.plainCount)
    (h : exec (bindArguments template supplied span) s = (.ok args, u)) :
    ∃ defaults, data.parameters.DefaultsFrom args supplied.length defaults := by
  obtain ⟨hfits, hbinds, -⟩ := binds_of_bindArguments hs hentity hcall h
  refine ParameterList.exists_defaultsFrom hfewer fun index hmissing hplain => ?_
  have hlt := Nat.lt_of_lt_of_le hplain data.parameters.plainCount_le_length
  have hp := List.getElem?_eq_getElem hlt
  obtain ⟨x, hx⟩ : ∃ x, args[index]? = some x :=
    ⟨_, List.getElem?_eq_getElem (hfits.length_eq ▸ hlt)⟩
  have hpack := (ParameterList.isPack_eq_false_iff hvalid hp).mpr hplain
  cases hbinds index _ _ hp hx with
  | pack isPack _ => simp [hpack] at isPack
  | supplied _ eq _ => simp [List.getElem?_eq_none hmissing] at eq
  | default _ _ eq substitute _ => exact ⟨_, _, _, hp, hpack, eq, substitute⟩

theorem exec_bindArguments_append (hentity : (s.table.symbol template).entity = .template data)
    (hvalid : data.parameters.validate = .ok ())
    (h : exec (bindArguments template supplied span) s = (.ok args, u))
    (hdefaults : data.parameters.DefaultsFrom args supplied.length defaults) :
    exec (bindArguments template (supplied ++ defaults) span) s = (.ok args, u) := by
  obtain ⟨bound, w, hbound, h⟩ := exec_bind_eq_ok.mp h
  cases h
  exact exec_bind_eq_ok.mpr
    ⟨bound, u, exec_bindSources_append hentity hvalid hbound hdefaults, rfl⟩

/-- What binds the arguments of a template inside of an instantiation does what binding them
outside of it does. -/
theorem exec_bindArguments_of_within {left : Nat} (hleft : left ≤ s.config.maxDepth - s.depth)
    {bound : Binding} (h : exec (bindSources (instantiateWithin left) template supplied span) s =
      (.ok bound, u)) : exec (bindArguments template supplied span) s = (.ok bound.arguments, u) :=
  exec_bind_eq_ok.mpr ⟨bound, u, (Converses.bindSources template supplied span).exec_eq_of_makesAs
    (makesAs_instantiate hleft) h, rfl⟩

/-- An instance of a template is made by binding the arguments, and then finding or making the
instance for what they are bound to. -/
theorem exec_instantiate_eq_ok (hentity : (s.table.symbol template).entity = .template data)
    {i : SymbolId} : exec (instantiate template supplied span) s = (.ok i, u) ↔
      ∃ left bound v, s.config.maxDepth - s.depth = left + 1 ∧
        exec (bindSources (instantiateWithin left) template supplied span) s = (.ok bound, v) ∧
        exec (instanceFor (instantiateWithin left) template (s.table.symbol template) data bound
          span) v = (.ok i, u) := by
  rw [instantiate, exec_get_bind]
  cases hleft : s.config.maxDepth - s.depth with
  | zero =>
    rw [instantiateWithin, exec_get_bind, exec_throw]
    simp
  | succ left =>
    rw [instantiateWithin_succ, instantiateStep, exec_symbol_bind, hentity]
    constructor
    · intro h
      obtain ⟨bound, v, hbound, h⟩ := exec_bind_eq_ok.mp h
      exact ⟨left, bound, v, rfl, hbound, h⟩
    · rintro ⟨_, bound, v, hsucc, hbound, h⟩
      cases hsucc
      exact exec_bind_eq_ok.mpr ⟨bound, v, hbound, h⟩

theorem exec_instantiate_append (hentity : (s.table.symbol template).entity = .template data)
    (hvalid : data.parameters.validate = .ok ())
    (hbound : exec (bindArguments template supplied span) s = (.ok args, v))
    (hdefaults : data.parameters.DefaultsFrom args supplied.length defaults) {i : SymbolId}
    (h : exec (instantiate template supplied span) s = (.ok i, u)) :
    exec (instantiate template (supplied ++ defaults) span) s = (.ok i, u) := by
  obtain ⟨left, bound, w, hleft, hsources, hinstance⟩ := (exec_instantiate_eq_ok hentity).mp h
  have hwithin := exec_bindArguments_of_within (by omega) hsources
  rw [hbound] at hwithin
  cases hwithin
  exact (exec_instantiate_eq_ok hentity).mpr
    ⟨left, bound, v, hleft, exec_bindSources_append hentity hvalid hsources hdefaults, hinstance⟩

/-- Instantiation does the same once its arguments have been bound. -/
theorem exec_instantiate_of_bindArguments (hs : s.Closed)
    (hentity : (s.table.symbol template).entity = .template data)
    (htemplate : s.table.HasSymbol template)
    (hsupplied : AllKnown s.Known (handlesOfNodes supplied))
    (hbound : exec (bindArguments template supplied span) s = (.ok args, v)) {i : SymbolId}
    (h : exec (instantiate template supplied span) s = (.ok i, u)) :
    exec (instantiate template supplied span) v = (.ok i, u) := by
  obtain ⟨left, bound, w, hleft, hsources, hinstance⟩ := (exec_instantiate_eq_ok hentity).mp h
  have hwithin := exec_bindArguments_of_within (by omega) hsources
  rw [hbound] at hwithin
  cases hwithin
  have hsteady := steady_bindSources (steady_instantiateWithin (Nat.le_refl left) s (by omega)) hs
    htemplate hsupplied span span
  obtain ⟨hv, hgrows⟩ := hsteady.changes.preserves hs
  have hspares := hsteady.spares bound (by rw [hsources])
  have hagain := hsteady.again bound (by rw [hsources]) _ hv (.refl _)
  rw [hsources] at hgrows hspares hagain
  refine (exec_instantiate_eq_ok ((hspares.entity_eq htemplate).trans hentity)).mpr
    ⟨left, bound, v, ?_, hagain, ?_⟩
  · rw [hgrows.config, hgrows.depth]
    exact hleft
  · -- Binding has left the template as it was, but for the type that it remembers.
    obtain ⟨type, hsymbol⟩ := hspares template htemplate
    rw [hsymbol]
    exact hinstance

theorem Run.validate_parameters (hs : (start config).Run s)
    (hentity : (s.table.symbol template).entity = .template data) :
    data.parameters.validate = .ok () :=
  (hs.isHeaded.template template _ _ (Symbol.heading?_eq_some.mpr ⟨data, hentity, rfl, rfl⟩)).1

section

variable (hs : (start config).Run s) (hentity : (s.table.symbol template).entity = .template data)
  (hcall : (Operation.bindArguments template supplied span).IsOn s)
  (h : exec (bindArguments template supplied span) s = (.ok args, u))

include hs hcall h

theorem isOn_instantiate (hv : v = s ∨ u.Run v) :
    v.Closed ∧ (Operation.instantiate template supplied span).IsOn v := by
  have hclosed := hs.closed
  have hrun : s.Run v := by
    rcases hv with rfl | hv
    · exact .refl
    · have hcalled := Run.refl.bindArguments hcall
      rw [h] at hcalled
      exact hcalled.trans hv
  obtain ⟨hclosedv, hgrows⟩ := hrun.preserves hclosed
  exact ⟨hclosedv, .of_known (hgrows.allKnown hcall.known)⟩

include hentity

/-- Later the template may have been given more defaults, but has the ones it had, and binds
the arguments as it did. -/
theorem binds_later (hdefaults : data.parameters.DefaultsFrom args supplied.length defaults)
    (hv : u.Run v) : ∃ data', (v.table.symbol template).entity = .template data' ∧
      data'.parameters.validate = .ok () ∧
      data'.parameters.DefaultsFrom args supplied.length defaults ∧
      exec (bindArguments template supplied span) v = (.ok args, v) := by
  have hclosed := hs.closed
  have hcalled := hs.bindArguments hcall
  have hsteady := steady_bindArguments hclosed hcall.known.head hcall.known.tail span span
  have hagain := hsteady.again args (by rw [h])
  obtain ⟨hu, hgrows⟩ := hsteady.changes.preserves hclosed
  rw [h] at hcalled hagain hu hgrows
  obtain ⟨hclosedv, hlater⟩ := hv.preserves hu
  obtain ⟨data', hentity', hparameters, -⟩ :=
    ((hgrows.trans hlater).table.symbol template hcall.known.head).template_entity hentity
  exact ⟨data', hentity', (hcalled.trans hv).validate_parameters hentity',
    hdefaults.of_grows hparameters, hagain v hclosedv hlater⟩

theorem run_of_instantiate (hv : v = s ∨ u.Run v) {i : SymbolId} {w : Session}
    (hi : exec (instantiate template supplied span) v = (.ok i, w)) : u.Run w := by
  obtain ⟨hclosed, hknown⟩ := isOn_instantiate hs hcall h hv
  rcases hv with rfl | hv
  · have hmade := exec_instantiate_of_bindArguments hclosed hentity hcall.known.head
      hcall.known.tail h hi
    have hrun := Run.refl.instantiate (isOn_instantiate hs hcall h (.inr .refl)).2
    rwa [hmade] at hrun
  · have hrun := hv.instantiate hknown
    rwa [hi] at hrun

end

/-- In any session that operations reach, arguments for a template that are less than its
parameters, a pack not counted, are bound only if all defaults that this takes are there, each
for what the parameters before it are bound to. With these defaults supplied the template binds
the same arguments, at once and ever after; and where it is instantiated, in this session or
after its arguments have been bound, the instance is the same with the defaults supplied and
without, and stays it. -/
theorem transparent_defaults (hs : (start config).Run s)
    (hentity : (s.table.symbol template).entity = .template data)
    (hcall : (Operation.bindArguments template supplied span).IsOn s)
    (hfewer : supplied.length < data.parameters.plainCount)
    (h : exec (bindArguments template supplied span) s = (.ok args, u)) :
    ∃ defaults, data.parameters.DefaultsFrom args supplied.length defaults ∧
      exec (bindArguments template (supplied ++ defaults) span) s = (.ok args, u) ∧
      (∀ v, u.Run v →
        exec (bindArguments template (supplied ++ defaults) span) v = (.ok args, v)) ∧
      ∀ v, v = s ∨ u.Run v → ∀ i w, exec (instantiate template supplied span) v = (.ok i, w) →
        exec (instantiate template (supplied ++ defaults) span) v = (.ok i, w) ∧
        ∀ w', w.Run w' →
          exec (instantiate template (supplied ++ defaults) span) w' = (.ok i, w') := by
  have hvalid := hs.validate_parameters hentity
  obtain ⟨defaults, hdefaults⟩ := exists_defaultsFrom_of_bindArguments
    hs.closed hentity hvalid hcall (Nat.le_of_lt hfewer) h
  refine ⟨defaults, hdefaults, exec_bindArguments_append hentity hvalid h hdefaults,
    fun v hv => ?_, fun v hv i w hi => ⟨?_, fun w' hw' => ?_⟩⟩
  · obtain ⟨data', hentity', hvalid', hdefaults', hbound⟩ :=
      binds_later hs hentity hcall h hdefaults hv
    exact exec_bindArguments_append hentity' hvalid' hbound hdefaults'
  · rcases hv with rfl | hv
    · exact exec_instantiate_append hentity hvalid h hdefaults hi
    · obtain ⟨data', hentity', hvalid', hdefaults', hbound⟩ :=
        binds_later hs hentity hcall h hdefaults hv
      exact exec_instantiate_append hentity' hvalid' hbound hdefaults' hi
  · obtain ⟨hclosed, hknown⟩ := isOn_instantiate hs hcall h hv
    have hrun := run_of_instantiate hs hentity hcall h hv hi
    obtain ⟨data', hentity', hvalid', hdefaults', hbound⟩ :=
      binds_later hs hentity hcall h hdefaults (hrun.trans hw')
    exact exec_instantiate_append hentity' hvalid' hbound hdefaults'
      (hw'.exec_instantiate hclosed hknown hi span)

/-- `template <int M, int N = M> struct Box;`: `Box<3>` is `Box<3, 3>`. -/
theorem transparent_defaults_box :
    let parameters : ParameterList := [⟨"M", .nonType, none, false, none, .synthesized⟩,
      ⟨"N", .nonType, none, false, some (.valueParameter "M" 0 .synthesized), .synthesized⟩]
    let s := (Operation.declareClass "Box" .structKey .synthesized).after
      ((Operation.beginTemplate parameters .synthesized).after (start .standard))
    let three : Node := .literal (.int 3) .synthesized
    ∃ args u i w defaults,
      exec (bindArguments ⟨2⟩ [three] .synthesized) s = (.ok args, u) ∧
      exec (instantiate ⟨2⟩ [three] .synthesized) u = (.ok i, w) ∧
      parameters.DefaultsFrom args 1 defaults ∧
      exec (instantiate ⟨2⟩ ([three] ++ defaults) .synthesized) u = (.ok i, w) ∧
      exec (instantiate ⟨2⟩ ([three] ++ defaults) .synthesized) w = (.ok i, w) := by
  intro parameters s three
  have hrun : (start .standard).Run s :=
    (Run.refl.step _ .of_handles_nil).step _ .of_handles_nil
  have hbox : s.table.HasSymbol ⟨2⟩ := by decide +kernel
  have hcall : (Operation.bindArguments ⟨2⟩ [three] .synthesized).IsOn s :=
    .of_symbol hbox
  have hbinds : (exec (bindArguments ⟨2⟩ [three] .synthesized) s).1.isOk = true := by
    decide +kernel
  have hmakes : (exec (instantiate ⟨2⟩ [three] .synthesized)
      (exec (bindArguments ⟨2⟩ [three] .synthesized) s).2).1.isOk = true := by decide +kernel
  rcases hbound : exec (bindArguments ⟨2⟩ [three] .synthesized) s with ⟨d | args, u⟩
  · rw [hbound] at hbinds
    cases hbinds
  rw [hbound] at hmakes
  rcases hmade : exec (instantiate ⟨2⟩ [three] .synthesized) u with ⟨d | i, w⟩
  · rw [hmade] at hmakes
    cases hmakes
  have hentity : (s.table.symbol ⟨2⟩).entity =
      .template ⟨parameters, .classTemplate .structKey, none, false⟩ := by
    subst s parameters
    rfl
  have hfewer : [three].length < parameters.plainCount := by decide
  obtain ⟨defaults, hdefaults, -, -, hsame⟩ :=
    transparent_defaults hrun hentity hcall hfewer hbound
  obtain ⟨happend, hstays⟩ := hsame u (.inr .refl) i w hmade
  exact ⟨args, u, i, w, defaults, rfl, hmade, hdefaults, happend, hstays w .refl⟩

end Session

end TemplateAnalysis
