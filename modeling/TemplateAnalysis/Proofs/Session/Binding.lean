import TemplateAnalysis.Proofs.Session.Resolution

/-!
# Binding arguments

Arguments that have been bound are bound to the same in every later session, without
a change of it. The parameters may have been given more defaults in between; an
argument that came from a default comes from the same one.
-/

namespace TemplateAnalysis

open Session Analysis

variable {inst inst' : Instantiator} {s : Session}

theorem isTypeArgument_eq {t u : SymbolTable} (h : t.Grows u) :
    ∀ node : Node, (∀ y, Handle.symbol y ∈ node.handles → t.HasSymbol y) →
      isTypeArgument u node = isTypeArgument t node
  | .name _ id _, hknown => by
    have hgrows := (h.symbol id (hknown id (by simp [Node.handles]))).entity
    rw [isTypeArgument, isTypeArgument]
    generalize (t.symbol id).entity = e at hgrows
    generalize (u.symbol id).entity = f at hgrows
    cases hgrows <;> rfl
  | .paren inner _, hknown => by
    rw [isTypeArgument, isTypeArgument]
    exact isTypeArgument_eq h inner hknown
  | .literal _ _, _ | .typeParameter _ _ _, _ | .valueParameter _ _ _, _ | .unary _ _ _, _
  | .binary _ _ _ _, _ | .conditional _ _ _ _, _ | .typeId _ _ _, _ | .resolvedType _ _ _, _
  | .templateId _ _ _ _, _ | .packExpansion _ _, _ | .base _, _ | .member _, _
  | .staticAssert _, _ | .classBody _, _ => rfl
termination_by structural node => node

theorem steady_bindType (hinst : inst.Steady s inst') (hs : s.Closed) {argument : Node}
    (h : AllKnown s.Known argument.handles) :
    Steady s (bindType inst argument) (bindType inst' argument)
      fun bound u => AllKnown u.Known bound.handles := by
  refine (steady_resolveNode argument hinst hs h).bind hs fun type u htype hu _ => ?_
  have hform := steady_onTypes hu (.unqualified type) (fun _ => rfl)
    (TypeGraph.Operation.isOn_of_operands rfl htype)
    (by simp [TypeGraph.Operation.symbols]) trivial
  refine hform.bind hu fun id v hid hv _ => ?_
  have hknown : AllKnown v.Known (TemplateArgument.type id (v.table.typeText v.types id)).handles :=
    AllKnown.nil.cons hid.1
  refine (Steady.pure hknown).congr (exec_get_bind _ _) (fun w hw hgrows => ?_) hv
  rw [exec_get_bind, hv.typeText_eq hw hgrows hid.1]

theorem exec_bindValue (valueType : Option Primitive) (argument : Node) (s : Session) :
    exec (bindValue valueType argument) s =
      (s.table.evaluate argument >>= fun value =>
        match valueType with
        | none => .ok (.value value)
        | some type => ((value.convert type).map TemplateArgument.value).mapError
            (Diagnostic.ofConversion argument.span), s) := by
  rw [bindValue, exec_bind, exec_evaluate]
  cases s.table.evaluate argument with
  | error d => rfl
  | ok value =>
    cases valueType with
    | none => rfl
    | some type => exact exec_ofExcept s _

theorem steady_bindValue (valueType : Option Primitive) (argument : Node) :
    Steady s (bindValue valueType argument) (bindValue valueType argument)
      fun bound u => AllKnown u.Known bound.handles := by
  have hexec := exec_bindValue valueType argument
  refine Steady.reads hexec hexec (fun u _ hgrows => ?_) fun bound hbound => ?_
  · exact (hgrows.table.evaluate_persists argument).bind fun _ => .refl _
  · obtain ⟨value, _, hvalue⟩ := bind_eq_ok.mp hbound
    cases valueType with
    | none =>
      cases hvalue
      exact AllKnown.nil
    | some type =>
      obtain ⟨_, _, rfl⟩ := map_eq_ok.mp (mapError_eq_ok.mp hvalue)
      exact AllKnown.nil

theorem steady_bindOne (hinst : inst.Steady s inst') (hs : s.Closed) (template : String)
    {parameter parameter' : TemplateParameter} (hparameter : parameter.Grows parameter')
    (index : Nat) {argument : Node} (h : AllKnown s.Known argument.handles) :
    Steady s (bindOne inst template parameter index argument)
      (bindOne inst' template parameter' index argument)
      fun bound u => AllKnown u.Known bound.handles := by
  have hsame : ∀ u : Session, s.Grows u →
      isTypeArgument u.table argument = isTypeArgument s.table argument :=
    fun u hgrows => isTypeArgument_eq hgrows.table argument fun y hy => h (.symbol y) hy
  cases hkind : parameter.kind with
  | type =>
    cases htype : isTypeArgument s.table argument with
    | true =>
      refine (steady_bindType hinst hs h).congr ?_ (fun u _ hgrows => ?_) hs
      · rw [bindOne, exec_get_bind, htype, hkind]
      · rw [bindOne, exec_get_bind, hsame u hgrows, htype, hparameter.kind, hkind]
    | false =>
      refine Steady.error (d := ⟨.argumentKindMismatch template index .type, argument.span⟩) ?_ _
      rw [bindOne, exec_get_bind, htype, hkind]
      rfl
  | nonType =>
    cases htype : isTypeArgument s.table argument with
    | true =>
      refine Steady.error (d := ⟨.argumentKindMismatch template index .nonType, argument.span⟩)
        ?_ _
      rw [bindOne, exec_get_bind, htype, hkind]
      rfl
    | false =>
      refine (steady_bindValue parameter.valueType argument).congr ?_ (fun u _ hgrows => ?_) hs
      · rw [bindOne, exec_get_bind, htype, hkind]
      · rw [bindOne, exec_get_bind, hsame u hgrows, htype, hparameter.kind, hkind,
          hparameter.valueType]

theorem steady_bindElements (template : String)
    {parameter parameter' : TemplateParameter} (hparameter : parameter.Grows parameter') :
    ∀ (index : Nat) (arguments : List Node) {s : Session}, inst.Steady s inst' → s.Closed →
      AllKnown s.Known (handlesOfNodes arguments) →
      Steady s (bindElements inst template parameter index arguments)
        (bindElements inst' template parameter' index arguments)
        fun bound u => AllKnown u.Known (handlesOfArguments bound)
  | _, [], s, _, hs, _ => by
    rw [bindElements, bindElements]
    exact Steady.pure AllKnown.nil
  | index, argument :: rest, s, hinst, hs, h => by
    rw [bindElements, bindElements]
    refine (steady_bindOne hinst hs template hparameter index h.left).bind hs
      fun bound u hbound hu hgrows => ?_
    refine (steady_bindElements template hparameter (index + 1) rest (hinst.later hgrows) hu
      (hgrows.allKnown h.right)).bind hu fun elements v helements _ hgrows => Steady.pure ?_
    exact (hgrows.allKnown hbound).append helements

/-- The same arguments bound for the same template, whose parameters may have been
given more defaults. -/
structure BindingSite.Grows (site site' : BindingSite) : Prop where
  template : site'.template = site.template
  supplied : site'.supplied = site.supplied

theorem BindingSite.Grows.argument_persists {site site' : BindingSite} (h : site.Grows site')
    {parameter parameter' : TemplateParameter} (hparameter : parameter.Grows parameter')
    (index : Nat) (done : Arguments) :
    Persists (site.argument index parameter done) (site'.argument index parameter' done) := by
  intro node hnode
  rw [BindingSite.argument] at hnode ⊢
  rw [h.supplied]
  cases hsupplied : site.supplied[index]? with
  | some argument =>
    rw [hsupplied] at hnode
    exact hnode
  | none =>
    rw [hsupplied] at hnode
    cases hdefault : parameter.defaultArgument with
    | none =>
      rw [hdefault] at hnode
      cases hnode
    | some pattern =>
      rw [hdefault] at hnode
      rw [hparameter.defaultArgument pattern hdefault]
      exact hnode

theorem BindingSite.argument_known {known : Handle → Prop} {site : BindingSite}
    (hsupplied : AllKnown known (handlesOfNodes site.supplied)) {parameter : TemplateParameter}
    (hparameter : AllKnown known parameter.handles) (index : Nat) {done : Arguments}
    (hdone : AllKnown known (handlesOfArguments done)) :
    Yields (site.argument index parameter done) fun node => AllKnown known node.handles := by
  rw [BindingSite.argument]
  split
  · rename_i argument hargument
    exact Yields.ok fun h hh => hsupplied h
      (mem_handlesOfNodes.mpr ⟨argument, List.mem_of_getElem? hargument, hh⟩)
  · rename_i pattern _ hpattern
    refine pattern.handles_substitute.yields done hdone ?_
    rw [TemplateParameter.handles, hpattern] at hparameter
    exact hparameter
  · exact Yields.error _

theorem handlesOfArguments_append (xs ys : Arguments) :
    handlesOfArguments (xs ++ ys) = handlesOfArguments xs ++ handlesOfArguments ys := by
  induction xs with
  | nil => rfl
  | cons x xs ih =>
    rw [List.cons_append, handlesOfArguments, handlesOfArguments, ih, List.append_assoc]

theorem AllKnown.push {known : Handle → Prop} {done : Arguments} {bound : TemplateArgument}
    (hdone : AllKnown known (handlesOfArguments done)) (hbound : AllKnown known bound.handles) :
    AllKnown known (handlesOfArguments (done ++ [bound])) := by
  rw [handlesOfArguments_append]
  exact hdone.append (hbound.append AllKnown.nil)

theorem AllKnown.drop {known : Handle → Prop} {nodes : List Node}
    (h : AllKnown known (handlesOfNodes nodes)) (n : Nat) :
    AllKnown known (handlesOfNodes (nodes.drop n)) := fun x hx => by
  obtain ⟨node, hnode, hxnode⟩ := mem_handlesOfNodes.mp hx
  exact h x (mem_handlesOfNodes.mpr ⟨node, List.mem_of_mem_drop hnode, hxnode⟩)

theorem steady_bindNext (hinst : inst.Steady s inst') (hs : s.Closed) {site site' : BindingSite}
    (hsite : site.Grows site') {parameter parameter' : TemplateParameter}
    (hparameter : parameter.Grows parameter') (index : Nat) {done : Binding}
    (hsupplied : AllKnown s.Known (handlesOfNodes site.supplied))
    (hdefault : AllKnown s.Known parameter.handles)
    (hdone : AllKnown s.Known (handlesOfArguments done.arguments)) :
    Steady s (bindNext inst site index done parameter) (bindNext inst' site' index done parameter')
      fun next u => AllKnown u.Known (handlesOfArguments next.arguments) := by
  rw [bindNext, bindNext, hparameter.isPack, hsite.supplied, hsite.template, hparameter.kind]
  by_cases hpack : parameter.isPack = true
  · rw [if_pos hpack, if_pos hpack]
    refine (steady_bindElements site.template hparameter index _ hinst hs
      (hsupplied.drop index)).bind hs fun elements u helements _ hgrows => Steady.pure ?_
    exact AllKnown.push (hgrows.allKnown hdone) helements
  · rw [if_neg hpack, if_neg hpack]
    have hargument : Steady s (ofExcept (site.argument index parameter done.arguments))
        (ofExcept (site'.argument index parameter' done.arguments))
        fun argument u => u = s ∧ AllKnown s.Known argument.handles :=
      Steady.reads (fun _ => exec_ofExcept _ _) (fun _ => exec_ofExcept _ _)
        (fun _ _ _ => hsite.argument_persists hparameter index done.arguments)
        fun argument h =>
          ⟨rfl, BindingSite.argument_known hsupplied hdefault index hdone argument h⟩
    refine hargument.bind hs fun argument u hu _ _ => ?_
    obtain ⟨rfl, hargument⟩ := hu
    refine (steady_bindOne hinst hs site.template hparameter index hargument).bind hs
      fun bound v hbound _ hgrows => Steady.pure ?_
    exact AllKnown.push (hgrows.allKnown hdone) hbound

theorem steady_bindFrom {site site' : BindingSite} (hsite : site.Grows site')
    {parameters parameters' : ParameterList}
    (hparameters : List.Forall₂ TemplateParameter.Grows parameters parameters') :
    ∀ {s : Session} (index : Nat) {done : Binding}, inst.Steady s inst' → s.Closed →
      AllKnown s.Known (handlesOfNodes site.supplied) →
      AllKnown s.Known (parameters.flatMap (·.handles)) →
      AllKnown s.Known (handlesOfArguments done.arguments) →
      Steady s (bindFrom inst site index done parameters)
        (bindFrom inst' site' index done parameters')
        fun bound u => AllKnown u.Known (handlesOfArguments bound.arguments) := by
  induction hparameters with
  | nil =>
    intro s index done _ hs _ _ hdone
    rw [bindFrom, bindFrom]
    exact Steady.pure hdone
  | cons hparameter _ ih =>
    intro s index done hinst hs hsupplied hdefaults hdone
    rw [bindFrom, bindFrom]
    refine (steady_bindNext hinst hs hsite hparameter index hsupplied hdefaults.left hdone).bind hs
      fun next u hnext hu hgrows => ?_
    exact ih (index + 1) (hinst.later hgrows) hu (hgrows.allKnown hsupplied)
      (hgrows.allKnown hdefaults.right) hnext

theorem packIndex?_eq_of_grows {ps qs : ParameterList}
    (h : List.Forall₂ TemplateParameter.Grows ps qs) :
    ParameterList.packIndex? qs = ParameterList.packIndex? ps := by
  unfold ParameterList.packIndex?
  induction h with
  | nil => rfl
  | cons hparameter _ ih => rw [List.findIdx?_cons, List.findIdx?_cons, hparameter.isPack, ih]

/-- Arguments that could be bound for a template can be bound for it later. -/
theorem bindingSite_later {x y : Symbol} (h : x.Grows y) {supplied : List Node} {span : Span}
    {site : BindingSite} (hsite : bindingSite x supplied span = .ok site) (span' : Span) :
    ∃ site', bindingSite y supplied span' = .ok site' ∧ site.Grows site' ∧
      List.Forall₂ TemplateParameter.Grows site.parameters site'.parameters := by
  rw [bindingSite] at hsite
  cases hentity : x.entity with
  | template data =>
    -- Later the template is the same, but for defaults that its parameters may have got.
    obtain ⟨data', hdata', hparameters, _⟩ := h.template_entity hentity
    rw [hentity] at hsite
    cases hexpansion : supplied.find? (·.isExpansion) with
    | some expansion => simp [hexpansion] at hsite
    | none =>
      simp only [hexpansion] at hsite
      split at hsite
      · cases hsite
      · rename_i hcount
        cases hsite
        refine ⟨⟨y.name, data'.parameters, supplied, span'⟩, ?_, ⟨h.name, rfl⟩, hparameters⟩
        simp only [bindingSite, hdata', hexpansion]
        rw [packIndex?_eq_of_grows hparameters, ← hparameters.length_eq, if_neg hcount]
  | _ =>
    rw [hentity] at hsite
    cases hsite

theorem bindingSite_known {known : Handle → Prop} {x : Symbol}
    (hx : AllKnown known x.entity.handles) {supplied : List Node} {span : Span}
    {site : BindingSite} (hsite : bindingSite x supplied span = .ok site) :
    site.supplied = supplied ∧ AllKnown known (site.parameters.flatMap (·.handles)) := by
  rw [bindingSite] at hsite
  cases hentity : x.entity with
  | template data =>
    rw [hentity] at hsite hx
    cases hexpansion : supplied.find? (·.isExpansion) with
    | some expansion => simp [hexpansion] at hsite
    | none =>
      simp only [hexpansion] at hsite
      split at hsite
      · cases hsite
      · cases hsite
        exact ⟨rfl, hx.left⟩
  | _ =>
    rw [hentity] at hsite
    cases hsite

theorem steady_bindSources (hinst : inst.Steady s inst') (hs : s.Closed) {template : SymbolId}
    (htemplate : s.table.HasSymbol template) {supplied : List Node}
    (hsupplied : AllKnown s.Known (handlesOfNodes supplied)) (span span' : Span) :
    Steady s (bindSources inst template supplied span) (bindSources inst' template supplied span')
      fun bound u => AllKnown u.Known (handlesOfArguments bound.arguments) := by
  have hexec : ∀ (inst : Instantiator) (u : Session) (span : Span) (site : BindingSite),
      bindingSite (u.table.symbol template) supplied span = .ok site →
      exec (bindSources inst template supplied span) u =
        exec (bindFrom inst site 0 ⟨[], []⟩ site.parameters) u := by
    intro inst u span site hsite
    rw [bindSources, exec_symbol_bind, exec_ofExcept_bind _ hsite]
  cases hsite : bindingSite (s.table.symbol template) supplied span with
  | error d =>
    refine Steady.error (d := d) ?_ _
    rw [bindSources, exec_symbol_bind, exec_bind, exec_ofExcept, hsite]
  | ok site =>
    obtain ⟨rfl, hdefaults⟩ := bindingSite_known (hs.symbol template htemplate).known hsite
    have hfrom : ∀ site', site.Grows site' →
        List.Forall₂ TemplateParameter.Grows site.parameters site'.parameters →
        Steady s (bindFrom inst site 0 ⟨[], []⟩ site.parameters)
          (bindFrom inst' site' 0 ⟨[], []⟩ site'.parameters)
          fun bound u => AllKnown u.Known (handlesOfArguments bound.arguments) :=
      fun site' hgrows hparameters =>
        steady_bindFrom hgrows hparameters 0 hinst hs hsupplied hdefaults AllKnown.nil
    have hnow := hfrom site ⟨rfl, rfl⟩ (TemplateParameter.Grows.refl_list _)
    refine ⟨.congr (hexec inst s span site hsite) hnow.toLeads, fun bound hbound => ?_,
      fun bound hbound u hu hgrows => ?_⟩
    · rw [hexec inst s span site hsite] at hbound ⊢
      exact hnow.spares bound hbound
    · rw [hexec inst s span site hsite] at hbound hgrows
      have hlater : s.Grows u := (hnow.changes.preserves hs).2.trans hgrows
      obtain ⟨site', hsite', hsites, hparameters⟩ :=
        bindingSite_later (hlater.table.symbol template htemplate) hsite span'
      rw [hexec inst' u span' site' hsite']
      exact (hfrom site' hsites hparameters).again bound hbound u hu hgrows

end TemplateAnalysis
