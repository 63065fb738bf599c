import TemplateAnalysis.Proofs.Session.OwnFailures
import TemplateAnalysis.Proofs.Session.ParameterLists

/-!
# The shape of bound arguments

What is bound for a template has the shape of its parameter list: one argument for each
parameter, and for a pack one that holds everything that was supplied from its position on.
Where arguments cannot be bound because of their number, this number is too large for a list
without a pack, or less than the number of parameters that need an argument. These stand in
front of all others if the list is valid, so that the parameter that is left without an
argument is one that is counted.
-/

namespace TemplateAnalysis

open Session Analysis

/-! ### Parameters that need an argument -/

namespace ParameterList

variable {ps : ParameterList} {p : TemplateParameter} {index : Nat}

theorem isRequired_eq_false_of_missingDefault? (h : ps.missingDefault? true index = none) :
    ∀ p ∈ ps, p.isRequired = false := by
  induction ps generalizing index with
  | nil => exact List.forall_mem_nil _
  | cons q rest ih =>
    rw [missingDefault?] at h
    cases hdefault : q.defaultArgument with
    | some node =>
      rw [hdefault] at h
      exact List.forall_mem_cons.mpr ⟨by simp [TemplateParameter.isRequired, hdefault], ih h⟩
    | none =>
      cases hpack : q.isPack with
      | true =>
        rw [hdefault, hpack] at h
        exact List.forall_mem_cons.mpr ⟨by simp [TemplateParameter.isRequired, hpack], ih h⟩
      | false => simp [hdefault, hpack] at h

/-- The parameters that need an argument stand in front. -/
theorem isRequired_iff (hvalid : ps.validate = .ok ())
    (hdefaults : ps.missingDefault? false index = none) {i : Nat} (hp : ps[i]? = some p) :
    p.isRequired = true ↔ i < ps.requiredCount := by
  induction ps generalizing i index with
  | nil => cases hp
  | cons q rest ih =>
    obtain ⟨hlast, hrest⟩ := validate_cons.mp hvalid
    rw [requiredCount]
    cases hrequired : q.isRequired with
    | true =>
      rw [List.countP_cons_of_pos hrequired]
      cases i with
      | zero =>
        cases hp
        simp [hrequired]
      | succ i =>
        rw [missingDefault?] at hdefaults
        have hq : q.isPack = false ∧ q.defaultArgument = none := by
          simpa [TemplateParameter.isRequired] using hrequired
        have hnext : missingDefault? false (index + 1) rest = none := by
          simpa [hq.2] using hdefaults
        rw [Nat.succ_lt_succ_iff]
        exact ih hrest hnext hp
    | false =>
      have hnone : ∀ r ∈ q :: rest, r.isRequired = false := by
        refine List.forall_mem_cons.mpr ⟨hrequired, ?_⟩
        cases hpack : q.isPack with
        | true =>
          rw [(hlast hpack).1]
          exact List.forall_mem_nil _
        | false =>
          have hdefault : q.defaultArgument.isSome = true := by
            simpa [TemplateParameter.isRequired, hpack, ← Option.isSome_iff_ne_none] using hrequired
          rw [missingDefault?, hdefault] at hdefaults
          exact isRequired_eq_false_of_missingDefault? hdefaults
      have hcount : (q :: rest).countP (·.isRequired) = 0 :=
        List.countP_eq_zero.mpr fun r hr => by simp [hnone r hr]
      rw [hcount, hnone p (List.mem_of_getElem? hp)]
      simp

inductive Miscounts (ps : ParameterList) (template : String) (got : Nat) (span : Span) :
    Diagnostic → Prop
  | tooMany (noPack : ps.packIndex? = none) (more : ps.length < got) :
    Miscounts ps template got span ⟨.tooManyArguments template ps.length got, span⟩
  | tooFew (less : got < ps.requiredCount) :
    Miscounts ps template got span ⟨.tooFewArguments template ps.requiredCount got, span⟩

end ParameterList

/-! ### Failures -/

section Failures

variable {ps : ParameterList} {template : String} {got : Nat} {span : Span}
  {d : Diagnostic}

theorem Diagnostic.IsOfSubstitution.isOfNoCount (h : d.IsOfSubstitution) : d.IsOfNoCount := by
  rcases d with ⟨cause, span⟩
  cases cause <;> first | rfl | exact h.elim

def ParameterList.CountsRight (ps : ParameterList) (template : String) (got : Nat) (span : Span)
    (d : Diagnostic) : Prop := d.cause.isArgumentCount = true → ps.Miscounts template got span d

theorem Diagnostic.IsOfNoCount.countsRight (h : d.IsOfNoCount) :
    ps.CountsRight template got span d := fun hcount => by
  rw [h] at hcount
  cases hcount

/-- What is supplied for a parameter list that may be left without a default. -/
structure BindingSite.IsSound (site : BindingSite) : Prop where
  valid : site.parameters.validate = .ok ()
  trailing : site.parameters.missingDefault? false 0 = none

variable {site : BindingSite} {index : Nat} {p : TemplateParameter} {inst : Instantiator}

theorem BindingSite.IsSound.failsOnly_argument (hsite : site.IsSound)
    (hp : site.parameters[index]? = some p) (hpack : p.isPack = false) (done : Arguments) :
    FailsOnly (site.argument index p done)
      (site.parameters.CountsRight site.template site.supplied.length site.span) := by
  unfold BindingSite.argument
  cases hsupplied : site.supplied[index]? with
  | some argument => exact .ok argument
  | none =>
    cases hdefault : p.defaultArgument with
    | some pattern =>
      have hfails := (pattern.closes_substitute.substitute done).failsOnly
      exact hfails.mono fun d hd => hd.isOfNoCount.countsRight
    | none =>
      refine .error fun _ => .tooFew ?_
      have hrequired : p.isRequired = true := by
        simp [TemplateParameter.isRequired, hpack, hdefault]
      have hindex := (ParameterList.isRequired_iff hsite.valid hsite.trailing hp).mp hrequired
      exact Nat.lt_of_le_of_lt (List.getElem?_eq_none_iff.mp hsupplied) hindex

theorem failsOnly_bindingSite_of {target : Symbol} {data : TemplateData}
    (hentity : target.entity = .template data) (supplied : List Node) (span : Span) :
    FailsOnly (bindingSite target supplied span)
      (data.parameters.CountsRight target.name supplied.length span) := by
  unfold bindingSite
  rw [hentity]
  simp only
  split
  · exact .error (Diagnostic.IsOfNoCount.countsRight rfl)
  · split
    · rename_i hcount
      exact .error fun _ => .tooMany (by simpa using hcount.1) hcount.2
    · exact .ok _

theorem site_of_bindingSite {target : Symbol} {data : TemplateData}
    (hentity : target.entity = .template data) {supplied : List Node} {span : Span}
    (h : bindingSite target supplied span = .ok site) :
    site = ⟨target.name, data.parameters, supplied, span⟩ ∧
      (data.parameters.packIndex? = none → supplied.length ≤ data.parameters.length) := by
  unfold bindingSite at h
  rw [hentity] at h
  simp only at h
  split at h
  · cases h
  · split at h <;> cases h
    rename_i hcount
    refine ⟨rfl, fun hnone => ?_⟩
    by_contra hmore
    exact hcount ⟨by simp [hnone], Nat.lt_of_not_le hmore⟩

variable (hinst : ∀ template arguments span,
  Raises (inst template arguments span) Diagnostic.IsOfNoCount)

include hinst

theorem BindingSite.IsSound.raises_bindNext (hsite : site.IsSound)
    (hp : site.parameters[index]? = some p) (done : Binding) :
    Raises (bindNext inst site index done p)
      (site.parameters.CountsRight site.template site.supplied.length site.span) := by
  unfold bindNext
  split
  · refine Raises.bind (.mono (.bindElements hinst site.template p index _) ?_) fun _ => .pure _
    exact fun d hd => hd.countsRight
  · rename_i hpack
    have hargument := hsite.failsOnly_argument hp (by simpa using hpack) done.arguments
    refine (Raises.ofExcept hargument).bind fun argument => ?_
    refine Raises.bind (.mono (.bindOne hinst site.template p index argument) ?_) fun _ => .pure _
    exact fun d hd => hd.countsRight

theorem BindingSite.IsSound.raises_bindFrom (hsite : site.IsSound) :
    ∀ (ps : ParameterList) (index : Nat) (done : Binding),
      (∀ k p, ps[k]? = some p → site.parameters[index + k]? = some p) →
      Raises (bindFrom inst site index done ps)
        (site.parameters.CountsRight site.template site.supplied.length site.span)
  | [], _, done, _ => .pure done
  | p :: ps, index, done, h =>
    (hsite.raises_bindNext hinst (h 0 p rfl) done).bind fun next =>
      raises_bindFrom hsite ps (index + 1) next fun k q hq => by
        rw [Nat.add_assoc, Nat.add_comm 1 k]
        exact h (k + 1) q hq

/-- However instances are made, if making them never reports a number of arguments, then
binding arguments reports it only if it is wrong. -/
theorem failsOnly_bindSources {s : Session} {id : SymbolId} {data : TemplateData}
    (hentity : (s.table.symbol id).entity = .template data)
    (hvalid : data.parameters.validate = .ok ())
    (hdefaults : data.parameters.missingDefault? false 0 = none) (supplied : List Node) :
    FailsOnly (exec (bindSources inst id supplied span) s).1
      (data.parameters.CountsRight (s.table.symbol id).name supplied.length span) := by
  rw [bindSources, exec_symbol_bind]
  cases hsite : bindingSite (s.table.symbol id) supplied span with
  | error d =>
    rw [exec_bind, exec_ofExcept]
    exact .error (failsOnly_bindingSite_of hentity supplied span d hsite)
  | ok site =>
    obtain ⟨rfl, -⟩ := site_of_bindingSite hentity hsite
    rw [exec_ofExcept_bind _ rfl]
    have hsound : BindingSite.IsSound ⟨(s.table.symbol id).name, data.parameters, supplied, span⟩ :=
      ⟨hvalid, hdefaults⟩
    refine hsound.raises_bindFrom hinst data.parameters 0 _ (fun k q hq => ?_) s
    rw [Nat.zero_add]
    exact hq

end Failures

/-! ### Results -/

section Results

variable {s u v : Session} {p : TemplateParameter} {x : TemplateArgument} {argument : Node}
  {template : String} {index : Nat}

/-- In a session, an argument is bound to `x` for a parameter, and the session stays as it is.
Neither the name of the template nor the position matter: only failures report them. -/
structure Session.Takes (s : Session) (p : TemplateParameter) (argument : Node)
    (x : TemplateArgument) : Prop where
  isOne : x.IsOne p.kind
  bound : ∀ template index,
    exec (bindOne instantiate template p index argument) s = (.ok x, s)

/-- What a parameter is bound to in a session: a pack to all that is supplied from its position
on, another one to the argument that is supplied for it, or else to its default for what the
parameters before it are bound to. -/
inductive Session.Binds (s : Session) (supplied : List Node) (index : Nat) (before : Arguments)
    (p : TemplateParameter) : TemplateArgument → Prop
  | pack {elements : List TemplateArgument} (isPack : p.isPack = true)
    (each : List.Forall₂ (s.Takes p) (supplied.drop index) elements) :
    Binds s supplied index before p (.pack p.kind elements)
  | supplied {argument : Node} {x : TemplateArgument} (isPack : p.isPack = false)
    (eq : supplied[index]? = some argument) (takes : s.Takes p argument x) :
    Binds s supplied index before p x
  | default {pattern argument : Node} {x : TemplateArgument} (isPack : p.isPack = false)
    (missing : supplied.length ≤ index) (eq : p.defaultArgument = some pattern)
    (substitute : pattern.substitute before = .ok argument) (takes : s.Takes p argument x) :
    Binds s supplied index before p x

/-- What is supplied for a parameter list, and what the parameters are bound to. -/
structure Session.BindsAll (s : Session) (ps : ParameterList) (supplied : List Node)
    (args : Arguments) : Prop where
  /-- One for each parameter: a pack for a pack, of its kind, and otherwise a type or a value. -/
  fits : args.FitAll ps
  binds : ∀ (index : Nat) (p : TemplateParameter) (x : TemplateArgument), ps[index]? = some p →
    args[index]? = some x → s.Binds supplied index (args.take index) p x
  enough : ps.requiredCount ≤ supplied.length
  notMore : ps.packIndex? = none → supplied.length ≤ ps.length

theorem exec_bindOne_of_eq_ok {inst : Instantiator}
    (h : exec (bindOne inst template p index argument) s = (.ok x, u)) (template' : String)
    (index' : Nat) : exec (bindOne inst template' p index' argument) s = (.ok x, u) := by
  rw [bindOne, exec_get_bind] at h ⊢
  cases hkind : p.kind <;> cases htype : isTypeArgument s.table argument <;>
    simp only [hkind, htype] at h ⊢
  case type.true => exact h
  case nonType.false => exact h
  all_goals cases h

theorem takes_of_bindOne (hs : s.Closed) (hknown : AllKnown s.Known argument.handles)
    (h : exec (bindOne instantiate template p index argument) s = (.ok x, u)) (hv : v.Closed)
    (hgrows : u.Grows v) : v.Takes p argument x := by
  have hsteady := steady_bindOne (steady_instantiate s) hs template
    (TemplateParameter.Grows.refl p) index hknown
  have hx : (exec (bindOne instantiate template p index argument) s).1 = .ok x := by rw [h]
  refine ⟨(returns_bindOne template p index argument s x hx).1, fun template' index' => ?_⟩
  apply exec_bindOne_of_eq_ok
  apply hsteady.again x hx v hv
  rw [h]
  exact hgrows

theorem takes_of_bindElements : ∀ {arguments : List Node} {index : Nat} {s : Session}
    {xs : List TemplateArgument}, s.Closed → AllKnown s.Known (handlesOfNodes arguments) →
    exec (bindElements instantiate template p index arguments) s = (.ok xs, u) → v.Closed →
    u.Grows v → List.Forall₂ (v.Takes p) arguments xs
  | [], _, _, _, _, _, h, _, _ => by
    cases h
    exact .nil
  | argument :: rest, index, s, xs, hs, hknown, h, hv, hgrows => by
    rw [bindElements] at h
    obtain ⟨x, w, hx, h⟩ := exec_bind_eq_ok.mp h
    obtain ⟨ys, w', hys, h⟩ := exec_bind_eq_ok.mp h
    cases h
    have hone := (steady_bindOne (steady_instantiate s) hs template
      (TemplateParameter.Grows.refl p) index hknown.left).changes
    rw [hx] at hone
    obtain ⟨hw, hsw⟩ := hone.preserves hs
    have hrest := (steady_bindElements template (TemplateParameter.Grows.refl p) (index + 1) rest
      (steady_instantiate w) hw (hsw.allKnown hknown.right)).changes
    rw [hys] at hrest
    exact .cons (takes_of_bindOne hs hknown.left hx hv ((hrest.preserves hw).2.trans hgrows))
      (takes_of_bindElements hw (hsw.allKnown hknown.right) hys hv hgrows)

variable {site : BindingSite} {done next bound : Binding}

theorem binds_of_bindNext (hs : s.Closed)
    (hsupplied : AllKnown s.Known (handlesOfNodes site.supplied))
    (hdefault : AllKnown s.Known p.handles)
    (hdone : AllKnown s.Known (handlesOfArguments done.arguments))
    (h : exec (bindNext instantiate site index done p) s = (.ok next, u)) :
    ∃ x, next.arguments = done.arguments ++ [x] ∧ ∀ v : Session, v.Closed → u.Grows v →
      v.Binds site.supplied index done.arguments p x := by
  rw [bindNext] at h
  cases hpack : p.isPack with
  | true =>
    rw [if_pos hpack] at h
    obtain ⟨elements, w, helements, h⟩ := exec_bind_eq_ok.mp h
    cases h
    exact ⟨_, rfl, fun v hv hgrows =>
      .pack hpack (takes_of_bindElements hs (hsupplied.drop index) helements hv hgrows)⟩
  | false =>
    rw [if_neg (by simp [hpack])] at h
    obtain ⟨argument, w, hargument, h⟩ := exec_bind_eq_ok.mp h
    obtain ⟨x, w', hx, h⟩ := exec_bind_eq_ok.mp h
    cases h
    rw [exec_ofExcept] at hargument
    obtain ⟨hgiven, rfl⟩ := Prod.mk.inj hargument
    have hknown := site.argument_known hsupplied hdefault index hdone argument hgiven
    refine ⟨x, rfl, fun v hv hgrows => ?_⟩
    have htakes := takes_of_bindOne hs hknown hx hv hgrows
    unfold BindingSite.argument at hgiven
    cases hat : site.supplied[index]? with
    | some given =>
      rw [hat] at hgiven
      cases hgiven
      exact .supplied hpack hat htakes
    | none =>
      rw [hat] at hgiven
      cases hpattern : p.defaultArgument with
      | none =>
        rw [hpattern] at hgiven
        cases hgiven
      | some pattern =>
        rw [hpattern] at hgiven
        exact .default hpack (List.getElem?_eq_none_iff.mp hat) hpattern hgiven htakes

/-- The loop over the parameters: what has been bound before stays in front. -/
theorem binds_of_bindFrom : ∀ {ps : ParameterList} {index : Nat} {s : Session} {done : Binding},
    s.Closed → AllKnown s.Known (handlesOfNodes site.supplied) →
    AllKnown s.Known (ps.flatMap (·.handles)) →
    AllKnown s.Known (handlesOfArguments done.arguments) → index = done.arguments.length →
    exec (bindFrom instantiate site index done ps) s = (.ok bound, u) → v.Closed → u.Grows v →
    done.arguments <+: bound.arguments ∧
      ∀ (k : Nat) (p : TemplateParameter) (x : TemplateArgument), ps[k]? = some p →
        bound.arguments[index + k]? = some x →
        v.Binds site.supplied (index + k) (bound.arguments.take (index + k)) p x
  | [], _, _, _, _, _, _, _, _, h, _, _ => by
    cases h
    exact ⟨List.prefix_refl _, fun _ _ _ hq => by cases hq⟩
  | p :: ps, index, s, done, hs, hsupplied, hdefaults, hdone, hindex, h, hv, hgrows => by
    rw [bindFrom] at h
    obtain ⟨next, w, hnext, h⟩ := exec_bind_eq_ok.mp h
    have hstep := steady_bindNext (steady_instantiate s) hs ⟨rfl, rfl⟩
      (TemplateParameter.Grows.refl p) index hsupplied hdefaults.left hdone
    have hchanges := hstep.changes
    have hknown := hstep.result next (by rw [hnext])
    rw [hnext] at hchanges hknown
    obtain ⟨hw, hsw⟩ := hchanges.preserves hs
    have hsupplied' := hsw.allKnown hsupplied
    have hdefaults' := hsw.allKnown hdefaults.right
    have hrest := (steady_bindFrom ⟨rfl, rfl⟩ (TemplateParameter.Grows.refl_list ps) (index + 1)
      (steady_instantiate w) hw hsupplied' hdefaults' hknown).changes
    rw [h] at hrest
    obtain ⟨x, hx, hbinds⟩ := binds_of_bindNext hs hsupplied hdefaults.left hdone hnext
    have hlength : index + 1 = next.arguments.length := by
      rw [hx, List.length_append, hindex, List.length_singleton]
    obtain ⟨hbefore, htail⟩ := binds_of_bindFrom hw hsupplied' hdefaults' hknown hlength h hv hgrows
    obtain ⟨others, hothers⟩ := hbefore
    rw [hx, List.append_assoc, List.singleton_append] at hothers
    -- What this parameter is bound to stands between `done` and the rest.
    refine ⟨⟨x :: others, hothers⟩, fun k q y hq hy => ?_⟩
    cases k with
    | zero =>
      cases hq
      rw [Nat.add_zero, hindex] at hy ⊢
      rw [← hothers, List.getElem?_append_right (Nat.le_refl _), Nat.sub_self] at hy
      cases hy
      rw [← hothers, List.take_left, ← hindex]
      exact hbinds v hv ((hrest.preserves hw).2.trans hgrows)
    | succ k =>
      rw [Nat.add_comm k 1, ← Nat.add_assoc] at hy ⊢
      exact htail k q y hq hy

variable {ps : ParameterList} {supplied : List Node} {args : Arguments}

/-- A parameter that needs an argument is bound to one that is supplied. -/
theorem requiredCount_le (hvalid : ps.validate = .ok ())
    (hdefaults : ps.missingDefault? false 0 = none) (hfits : args.FitAll ps)
    (hbinds : ∀ (index : Nat) (p : TemplateParameter) (x : TemplateArgument), ps[index]? = some p →
      args[index]? = some x → s.Binds supplied index (args.take index) p x) :
    ps.requiredCount ≤ supplied.length := by
  by_contra hless
  rw [Nat.not_le] at hless
  have hlength : supplied.length < ps.length :=
    Nat.lt_of_lt_of_le hless List.countP_le_length
  have hp := List.getElem?_eq_getElem hlength
  obtain ⟨x, hx⟩ : ∃ x, args[supplied.length]? = some x :=
    ⟨_, List.getElem?_eq_getElem (hfits.length_eq ▸ hlength)⟩
  have hrequired := (ParameterList.isRequired_iff hvalid hdefaults hp).mpr hless
  have hplain : ps[supplied.length].isPack = false ∧
      ps[supplied.length].defaultArgument = none := by
    simpa [TemplateParameter.isRequired] using hrequired
  cases hbinds supplied.length _ x hp hx with
  | pack isPack _ => simp [hplain.1] at isPack
  | supplied _ eq _ => simp at eq
  | default _ _ eq _ _ => simp [hplain.2] at eq

end Results

namespace Session

variable {s u : Session}

/-- What the parameters of a template are bound to. -/
theorem binds_of_bindArguments (hs : s.Closed) {template : SymbolId} {data : TemplateData}
    (hentity : (s.table.symbol template).entity = .template data) {supplied : List Node}
    {span : Span} (hcall : (Operation.bindArguments template supplied span).IsOn s)
    {args : Arguments} (h : exec (bindArguments template supplied span) s = (.ok args, u)) :
    args.FitAll data.parameters ∧
      (∀ (index : Nat) (p : TemplateParameter) (x : TemplateArgument),
        data.parameters[index]? = some p → args[index]? = some x →
          u.Binds supplied index (args.take index) p x) ∧
      (data.parameters.packIndex? = none → supplied.length ≤ data.parameters.length) := by
  have hchanges := (steady_bindArguments hs hcall.known.head hcall.known.tail span span).changes
  rw [h] at hchanges
  have hu := (hchanges.preserves hs).1
  obtain ⟨bound, v, hbound, h⟩ := exec_bind_eq_ok.mp h
  cases h
  have hfits : bound.arguments.FitAll data.parameters :=
    fits_of_bindSources hentity (by rw [hbound])
  rw [bindSources, exec_symbol_bind] at hbound
  obtain ⟨site, w, hsite, hbound⟩ := exec_bind_eq_ok.mp hbound
  rw [exec_ofExcept] at hsite
  obtain ⟨hok, rfl⟩ := Prod.mk.inj hsite
  have hknown := (bindingSite_known (hs.symbol template hcall.known.head).known hok).2
  obtain ⟨rfl, hmore⟩ := site_of_bindingSite hentity hok
  have hnone : AllKnown s.Known (handlesOfArguments (⟨[], []⟩ : Binding).arguments) := .nil
  obtain ⟨-, hbinds⟩ :=
    binds_of_bindFrom hs hcall.known.tail hknown hnone rfl hbound hu (.refl u)
  simp only [List.length_nil, Nat.zero_add] at hbinds
  exact ⟨hfits, hbinds, hmore⟩

theorem bindsAll_of_bindArguments (hs : s.Closed) {template : SymbolId} {data : TemplateData}
    (hentity : (s.table.symbol template).entity = .template data)
    (hvalid : data.parameters.validate = .ok ())
    (hdefaults : data.parameters.missingDefault? false 0 = none) {supplied : List Node}
    {span : Span} (hcall : (Operation.bindArguments template supplied span).IsOn s)
    {args : Arguments} (h : exec (bindArguments template supplied span) s = (.ok args, u)) :
    u.BindsAll data.parameters supplied args := by
  obtain ⟨hfits, hbinds, hmore⟩ := binds_of_bindArguments hs hentity hcall h
  exact ⟨hfits, hbinds, requiredCount_le hvalid hdefaults hfits hbinds, hmore⟩

def bindArgumentsBy (template : SymbolId) (supplied : List Node) (span : Span)
    (inst : Instantiator) : Analysis Arguments := do
  return (← bindSources inst template supplied span).arguments

theorem bindArguments_eq (template : SymbolId) (supplied : List Node) (span : Span) :
    bindArguments template supplied span = bindArgumentsBy template supplied span instantiate :=
  rfl

theorem converses_bindArgumentsBy (template : SymbolId) (supplied : List Node) (span : Span) :
    Converses (bindArgumentsBy template supplied span) :=
  (Converses.bindSources template supplied span).bind fun bound => .pure bound.arguments

/-- By itself a call fails as it does where the instances that are not made are no reason to
report a number of arguments. -/
theorem countsRight_of_failsItself {template : SymbolId} {data : TemplateData}
    (hentity : (s.table.symbol template).entity = .template data)
    (hvalid : data.parameters.validate = .ok ())
    (hdefaults : data.parameters.missingDefault? false 0 = none) {supplied : List Node}
    {span : Span} {D : Dialogue Arguments}
    (hD : D.Represents (bindArgumentsBy template supplied span) s)
    {d : Diagnostic} (h : D.FailsItself d) :
    data.parameters.CountsRight (s.table.symbol template).name supplied.length span d := by
  have hplay := h.play_eq fun _ _ _ _ _ _ => exec_instantiateOrDecline
  rw [hD.play_eq, bindArgumentsBy] at hplay
  have hfails : FailsOnly (exec (bindSources _ template supplied span) s).1 _ :=
    failsOnly_bindSources raises_instantiateOrDecline hentity hvalid hdefaults supplied
  cases hr : (exec (bindSources instantiateOrDecline template supplied span) s).1 with
  | ok bound =>
    rw [exec_bind_ok hr] at hplay
    cases hplay
  | error e =>
    rw [exec_bind_error hr] at hplay
    cases hplay
    exact hfails d hr

/-- Binding arguments for a template whose parameter list passes both of its checks, in any
session that operations reach. What is bound has the shape of the list. The call is a dialogue,
and a failure is that of an instance that an argument or a default asks for, or one of the call
itself. Then it reports the number of arguments only if it is wrong: more than there are
parameters, none of which is a pack, or less than need one. -/
theorem shape_of_bindArguments {config : Config} (hs : (start config).Run s)
    {template : SymbolId} {data : TemplateData}
    (hentity : (s.table.symbol template).entity = .template data)
    (hvalid : data.parameters.validate = .ok ()) {name : String} {place : Span}
    (hdefaults : data.parameters.checkTrailingDefaults name place = .ok ())
    {supplied : List Node} {span : Span}
    (hcall : (Operation.bindArguments template supplied span).IsOn s) :
    (∀ args u, exec (bindArguments template supplied span) s = (.ok args, u) →
      u.BindsAll data.parameters supplied args) ∧
    (∃ D : Dialogue Arguments, D.Represents (bindArgumentsBy template supplied span) s) ∧
    ∀ D : Dialogue Arguments, D.Represents (bindArgumentsBy template supplied span) s →
      ∀ d, ((exec (bindArguments template supplied span) s).1 = .error d ↔
          D.FailsItself d ∨ D.FailsInside d) ∧
        (D.FailsItself d → d.cause.isArgumentCount = true →
          data.parameters.Miscounts (s.table.symbol template).name supplied.length span d) := by
  have hclosed := hs.closed
  have htrailing := ParameterList.checkTrailingDefaults_eq_ok.mp hdefaults
  refine ⟨?_, converses_bindArgumentsBy template supplied span s, ?_⟩
  · intro args u h
    exact bindsAll_of_bindArguments hclosed hentity hvalid htrailing hcall h
  · intro D hD d
    constructor
    · rw [← Dialogue.fails_iff, hD.play_eq, bindArguments_eq]
    · exact fun h => countsRight_of_failsItself hentity hvalid htrailing hD h

/-- A template `Box` with a type parameter and a pack of values. For `int, 1, 2` the pack holds
both values. Without an argument, the one that is needed is reported to be missing. -/
theorem shape_of_bindArguments_box :
    let s := (Operation.declareClass "Box" .structKey .synthesized).after
      ((Operation.beginTemplate [⟨"T", .type, none, false, none, .synthesized⟩,
        ⟨"Ns", .nonType, none, true, none, .synthesized⟩] .synthesized).after (start .standard))
    let int : Node := .typeId ⟨.singleton .int, none⟩ [] .synthesized
    let supplied := [int, .literal (.int 1) .synthesized, .literal (.int 2) .synthesized]
    let parameters : ParameterList := [⟨"T", .type, none, false, none, .synthesized⟩,
      ⟨"Ns", .nonType, none, true, none, .synthesized⟩]
    (∃ args u, exec (bindArguments ⟨2⟩ supplied .synthesized) s = (.ok args, u) ∧
      u.BindsAll parameters supplied args) ∧
    ∃ (D : Dialogue Arguments) (d : Diagnostic),
      D.Represents (bindArgumentsBy ⟨2⟩ [] .synthesized) s ∧
      D.FailsItself d ∧ parameters.Miscounts "Box" 0 .synthesized d := by
  intro s int supplied parameters
  have hrun : (start .standard).Run s :=
    (Run.refl.step _ .of_handles_nil).step _ .of_handles_nil
  have hbox : s.table.HasSymbol ⟨2⟩ := by decide +kernel
  have hcall : ∀ given : List Node, handlesOfNodes given = [] →
      (Operation.bindArguments ⟨2⟩ given .synthesized).IsOn s := by
    intro given hgiven
    refine .of_symbol hbox ?_
    rw [Operation.handles, hgiven]
  have hdefaults : parameters.checkTrailingDefaults "Box" .synthesized = .ok () := rfl
  have hshape := fun given hgiven =>
    shape_of_bindArguments hrun rfl rfl hdefaults (hcall given hgiven)
  constructor
  · have hok : (exec (bindArguments ⟨2⟩ supplied .synthesized) s).1.isOk = true := by
      decide +kernel
    rcases hbound : exec (bindArguments ⟨2⟩ supplied .synthesized) s with ⟨d | args, u⟩
    · rw [hbound] at hok
      cases hok
    · exact ⟨args, u, rfl, (hshape supplied rfl).1 args u hbound⟩
  · let d : Diagnostic := ⟨.tooFewArguments "Box" 1 0, .synthesized⟩
    let D : Dialogue Arguments := .ends (.error d) (.error rfl) s
    have hD : D.Represents (bindArgumentsBy ⟨2⟩ [] .synthesized) s := ⟨.ends rfl, fun inst => rfl⟩
    exact ⟨D, d, hD, .ends, ((hshape [] rfl).2.2 D hD d).2 .ends rfl⟩

end Session

end TemplateAnalysis
