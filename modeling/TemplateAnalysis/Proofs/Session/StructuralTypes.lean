import TemplateAnalysis.Proofs.Session.Denotation
import TemplateAnalysis.Proofs.Session.Runs

/-!
# Resolution computes what is denoted

A type that has been resolved unfolds to the tree that its specifiers and its declarator
denote, in the session that resolution leaves and in every later one. Without
template-ids resolution succeeds exactly if they denote a type. Since a graph shares equal
trees, two resolutions return one type exactly if they resolve the same denotation,
however it is spelled, and whatever happens between them.
-/

namespace TemplateAnalysis

open Session Analysis

variable {α β γ δ : Type} {s : Session}

/-- What a step returns has the value that is denoted, in every later session. If the
step fails, nothing is denoted; only in what is `free` of template-ids this is claimed. -/
structure Denotes (s : Session) (step : Analysis α) (free : Prop) (denoted : Session → Option γ)
    (value : Session → α → γ) : Prop where
  grows : s.Grows (exec step s).2
  ok : ∀ a, (exec step s).1 = .ok a → ∀ u, u.Closed → (exec step s).2.Grows u →
    denoted u = some (value u a)
  error : ∀ d, (exec step s).1 = .error d → free → denoted s = none

namespace Denotes

variable {free : Prop} {denoted : Session → Option γ} {value : Session → α → γ}

theorem of_ok {step : Analysis α} {a : α} {u : Session} (h : exec step s = (.ok a, u))
    (hgrows : s.Grows u) (hdenoted : ∀ v, v.Closed → u.Grows v → denoted v = some (value v a)) :
    Denotes s step free denoted value := by
  refine ⟨?_, fun b hb => ?_, fun d hd => ?_⟩
  · rwa [h]
  · rw [h] at hb ⊢
    cases hb
    exact hdenoted
  · rw [h] at hd
    cases hd

theorem of_error {step : Analysis α} {d : Diagnostic} (h : exec step s = (.error d, s))
    (hdenoted : free → denoted s = none) : Denotes s step free denoted value := by
  refine ⟨?_, fun a ha => ?_, fun _ _ => hdenoted⟩
  · rw [h]
    exact .refl s
  · rw [h] at ha
    cases ha

theorem pure {a : α} (h : ∀ u, u.Closed → s.Grows u → denoted u = some (value u a)) :
    Denotes s (Pure.pure a) free denoted value := of_ok (exec_pure s a) (.refl s) h

theorem throw (d : Diagnostic) (h : free → denoted s = none) :
    Denotes s (MonadExcept.throw d) free denoted value := of_error (exec_throw s d) h

theorem congr {step step' : Analysis α} (h : exec step s = exec step' s)
    (h' : Denotes s step' free denoted value) : Denotes s step free denoted value :=
  ⟨h ▸ h'.grows, h ▸ h'.ok, h ▸ h'.error⟩

theorem congr_denoted {step : Analysis α} (denoted' : Session → Option γ) (hs : s.Closed)
    (h : Denotes s step free denoted' value)
    (hdenoted : ∀ u, u.Closed → s.Grows u → denoted u = denoted' u) :
    Denotes s step free denoted value where
  grows := h.grows
  ok a ha u hu hgrows := (hdenoted u hu (h.grows.trans hgrows)).trans (h.ok a ha u hu hgrows)
  error d hd hfree := (hdenoted s hs (.refl s)).trans (h.error d hd hfree)

theorem mono {more : Prop} {step : Analysis α} (h : Denotes s step free denoted value)
    (hfree : more → free) : Denotes s step more denoted value :=
  { h with error := fun d hd hmore => h.error d hd (hfree hmore) }

/-- If the second step fails, what the first one did leaves what is known its meaning, so
that nothing was denoted before it either. -/
theorem bind {x x' : Analysis α} {f : α → Analysis β} {post : α → Session → Prop}
    {more : Session → γ → Option δ} {value' : Session → β → δ} (hs : s.Closed)
    (hx : Steady s x x' post) (hdenotes : Denotes s x free denoted value)
    (hagrees : free → ∀ u, s.Agrees u → (denoted u >>= more u) = (denoted s >>= more s))
    (hf : ∀ a u, post a u → u.Closed → s.Grows u →
      Denotes u (f a) free (fun v => more v (value v a)) value') :
    Denotes s (x >>= f) free (fun v => denoted v >>= more v) value' := by
  obtain ⟨hclosed, hgrows⟩ := hx.changes.preserves hs
  cases hr : (exec x s).1 with
  | error d =>
    have hbind := exec_bind_error hr f
    refine ⟨?_, fun b hb => ?_, fun d' _ hfree => ?_⟩
    · rw [hbind]
      exact hgrows
    · rw [hbind] at hb
      cases hb
    · rw [hdenotes.error d hr hfree]
      rfl
  | ok a =>
    have hbind := exec_bind_ok hr f
    have hstep := hf a _ (hx.result a hr) hclosed hgrows
    refine ⟨?_, fun b hb u hu hlater => ?_, fun d hd hfree => ?_⟩
    · rw [hbind]
      exact hgrows.trans hstep.grows
    · rw [hbind] at hb hlater
      rw [hdenotes.ok a hr u hu (hstep.grows.trans hlater)]
      exact hstep.ok b hb u hu hlater
    · rw [hbind] at hd
      rw [← hagrees hfree _ ((hx.spares a hr).agrees hs hclosed hgrows),
        hdenotes.ok a hr _ hclosed (.refl _)]
      exact hstep.error d hd hfree

end Denotes

/-! ### Forming types -/

section Forming

variable {free : Prop}

/-- A type that a settled operation forms has its tree. -/
theorem denotes_onTypes {adds : TypeLabel → Prop} {f : TypeGraph → TypeId × TypeGraph}
    (hf : TypeGraph.Settled adds s.types f) {denoted : Session → Option TypeTree}
    (hdenoted : ∀ u, u.Closed → s.Grows u →
      denoted u = some ((f s.types).2.tree (f s.types).1)) :
    Denotes s (onTypes f) free denoted (·.types.tree) := by
  have hgrows : s.Grows { s with types := (f s.types).2 } := .of_types hf.isPrefix
  refine .of_ok (exec_onTypes s f) hgrows fun u hu hlater => ?_
  rw [hdenoted u hu (hgrows.trans hlater),
    hlater.types.tree_eq hf.canonical hu.types hf.has]

theorem denotes_rejectType (hs : s.Closed) {current : TypeId} (hcurrent : s.types.Has current)
    {fault? : TypeGraph → Option TypeFault} {accepts : TypeTree → Bool}
    (hfault : (fault? s.types).isNone = accepts (s.types.tree current)) (span : Span) :
    Denotes s (rejectType fault? span) free (fun u => guard (accepts (u.types.tree current)))
      (fun _ a => a) := by
  have hexec := exec_rejectType fault? span s
  cases hf : fault? s.types with
  | none =>
    rw [hf] at hexec hfault
    refine .of_ok hexec (.refl s) fun u hu hgrows => ?_
    rw [hgrows.types.tree_eq hs.types hu.types hcurrent, ← hfault]
    rfl
  | some fault =>
    rw [hf] at hexec hfault
    refine .of_error hexec fun _ => ?_
    rw [← hfault]
    rfl

theorem isNone_pointerFault? {g : TypeGraph} (hg : g.Canonical) {id : TypeId} (hid : g.Has id) :
    (pointerFault? g id).isNone = (g.tree id).isPointee := by
  rw [pointerFault?, TypeTree.isPointee, TypeGraph.isReference_tree hg hid]
  cases g.isReference id <;> rfl

theorem isNone_referenceFault? {g : TypeGraph} (hg : g.Canonical) {id : TypeId} (hid : g.Has id) :
    (referenceFault? g id).isNone = (g.tree id).isReferee := by
  rw [referenceFault?, TypeTree.isReferee, TypeGraph.isVoid_tree hg hid]
  cases g.isVoid id <;> rfl

theorem isNone_arrayFault? {g : TypeGraph} (hg : g.Canonical) {id : TypeId} (hid : g.Has id) :
    (arrayFault? g id).isNone = (g.tree id).isElement := by
  rw [arrayFault?, TypeTree.isElement, TypeGraph.isReference_tree hg hid,
    TypeGraph.isFunction_tree hg hid, TypeGraph.isVoid_tree hg hid]
  cases g.isReference id <;> cases g.isFunction id <;> cases g.isVoid id <;> rfl

theorem isNone_functionFault? {g : TypeGraph} (hg : g.Canonical) {id : TypeId} (hid : g.Has id) :
    (functionFault? g id).isNone = (g.tree id).isResult := by
  rw [functionFault?, TypeTree.isResult, TypeGraph.isArray_tree hg hid,
    TypeGraph.isFunction_tree hg hid]
  cases g.isArray id <;> cases g.isFunction id <;> rfl

theorem denotes_formed (hs : s.Closed) {current : TypeId} (hcurrent : s.types.Has current)
    {fault? : TypeGraph → Option TypeFault} (span : Span)
    (hstable : ∀ g, s.types.Prefix g → fault? g = fault? s.types) {accepts : TypeTree → Bool}
    (hfault : (fault? s.types).isNone = accepts (s.types.tree current)) {adds : TypeLabel → Prop}
    {f : TypeGraph → TypeId × TypeGraph} (hf : TypeGraph.Settled adds s.types f)
    (form : TypeTree → TypeTree)
    (htree : (f s.types).2.tree (f s.types).1 = form (s.types.tree current)) :
    Denotes s (do rejectType fault? span; onTypes f) free
      (fun u => do guard (accepts (u.types.tree current)); return form (u.types.tree current))
      (·.types.tree) := by
  refine (denotes_rejectType hs hcurrent hfault span).bind hs (steady_rejectType span hstable)
    (fun _ u h => ?_) fun _ u hu _ _ => ?_
  · rw [h.tree current hcurrent]
  · obtain ⟨rfl, _⟩ := hu
    refine denotes_onTypes hf fun v hv hgrows => ?_
    rw [htree, hgrows.types.tree_eq hs.types hv.types hcurrent]
    rfl

theorem denotes_arrayBound (expression : Node) :
    Denotes s (arrayBound expression) free (·.bound? expression) (fun _ n => n) := by
  have hexec := exec_arrayBound expression s
  cases hvalue : s.table.evaluate expression with
  | error d =>
    rw [hvalue] at hexec
    refine .of_error hexec fun _ => ?_
    rw [bound?, hvalue]
    rfl
  | ok value =>
    rw [hvalue] at hexec
    cases hn : value.uint64? with
    | none =>
      simp only [bind, Except.bind, hn] at hexec
      refine .of_error hexec fun _ => ?_
      rw [bound?, hvalue]
      exact hn
    | some n =>
      simp only [bind, Except.bind, hn] at hexec
      refine .of_ok hexec (.refl s) fun u _ hgrows => ?_
      rw [bound?, hgrows.table.evaluate_persists expression value hvalue]
      exact hn

theorem denotes_keywordType (hs : s.Closed) (keywords : KeywordSet) (span : Span) :
    Denotes s (keywordType keywords span) free (·.denoteSpecifiers ⟨keywords, none⟩)
      (·.types.tree) := by
  have hexec := exec_keywordType keywords span s
  have hspelled := keywords.toOption_ofKeywords
  cases hk : Primitive.ofKeywords keywords with
  | error fault =>
    rw [hk] at hexec hspelled
    refine .of_error hexec fun _ => ?_
    rw [denoteSpecifiers, ← hspelled]
    rfl
  | ok p =>
    rw [hk] at hexec hspelled
    refine .congr hexec (denotes_onTypes (TypeGraph.settled_base hs.types _) fun u _ _ => ?_)
    rw [denoteSpecifiers, ← hspelled, TypeGraph.tree_base hs.types]
    rfl

theorem denotes_typeOfSymbol (hs : s.Closed) {id : SymbolId} (hid : s.table.HasSymbol id) :
    Denotes s (typeOfSymbol id) free (fun _ => some (.base (.symbol id .none)))
      (·.types.tree) := by
  have hsteady := steady_typeOfSymbol hs hid
  refine ⟨(hsteady.changes.preserves hs).2, fun type htype u hu hgrows => ?_, fun d hd => ?_⟩
  · rw [TypeGraph.tree_of_base (hgrows.types type _ (hsteady.result type htype))]
  · cases htype : (s.table.symbol id).type with
    | some type =>
      rw [exec_typeOfSymbol_of_some htype] at hd
      cases hd
    | none =>
      rw [exec_typeOfSymbol_of_none htype] at hd
      cases hd

theorem denotes_namedType (hs : s.Closed) (text : String) {id : SymbolId}
    (hid : s.table.HasSymbol id) (span : Span) :
    Denotes s (namedType text id span) free (·.namedTree? id) (·.types.tree) := by
  have hexec := exec_namedType text id span s
  cases hentity : (s.table.symbol id).entity with
  | classType data | enumeration data =>
    rw [hentity] at hexec
    have hnamed : s.namedTree? id = some (.base (.symbol id .none)) := by rw [namedTree?, hentity]
    exact .congr hexec (.congr_denoted _ hs (denotes_typeOfSymbol hs hid) fun u hu hgrows =>
      hgrows.namedTree?_eq hs hu hid hnamed)
  | typedef target =>
    rw [hentity] at hexec
    have hnamed : s.namedTree? id = some (s.types.tree target) := by rw [namedTree?, hentity]
    have hhas : s.types.Has target := by
      have hknown := (hs.symbol id hid).known
      rw [hentity] at hknown
      exact hknown (.type target) (by simp [Entity.handles])
    refine .of_ok hexec (.refl s) fun u hu hgrows => ?_
    rw [hgrows.namedTree?_eq hs hu hid hnamed, hgrows.types.tree_eq hs.types hu.types hhas]
  | templateParameter _ | nameSpace | enumerator _ | function _ | object _ | template _ =>
    rw [hentity] at hexec
    refine .of_error hexec fun _ => ?_
    rw [namedTree?, hentity]

end Forming

/-! ### Nodes, specifiers and declarators -/

/-- The parameter that a resolved type gives, if it gives one. -/
theorem denotes_parameterOf {free : Prop} (hs : s.Closed) {type : TypeId}
    (htype : s.types.Has type) (named : Bool) (span : Span) :
    Denotes s (do
      if (← get).types.isVoid type then
        if named then return none else throw (.invalidType span .voidParameter)
      else return some (← onTypes (·.adjusted type))) free
      (fun u =>
        if (u.types.tree type).isVoid then do
          guard named
          return []
        else return [(u.types.tree type).adjusted])
      (fun u (type : Option TypeId) => type.toList.map u.types.tree) := by
  have hvoid := TypeGraph.isVoid_tree hs.types htype
  have htree : ∀ u, u.Closed → s.Grows u → u.types.tree type = s.types.tree type :=
    fun u hu hgrows => hgrows.types.tree_eq hs.types hu.types htype
  refine .congr (exec_get_bind s _) ?_
  cases hcase : s.types.isVoid type with
  | true =>
    rw [hcase] at hvoid
    refine .congr_denoted (fun _ => do guard named; return []) hs ?_ fun u hu hgrows => by
      rw [htree u hu hgrows, if_pos hvoid]
    cases named with
    | true => exact .pure fun _ _ _ => rfl
    | false => exact .throw _ fun _ => rfl
  | false =>
    rw [hcase] at hvoid
    have hadjusted := TypeGraph.settled_adjusted hs.types htype
    have hexec : exec (do return some (← onTypes (·.adjusted type))) s =
        (.ok (some (s.types.adjusted type).1), { s with types := (s.types.adjusted type).2 }) := by
      rw [exec_bind, exec_onTypes]
      rfl
    have hgrows : s.Grows { s with types := (s.types.adjusted type).2 } :=
      .of_types hadjusted.isPrefix
    refine .of_ok hexec hgrows fun u hu hlater => ?_
    rw [htree u hu (hgrows.trans hlater), hvoid, ← TypeGraph.tree_adjusted hs.types htype,
      ← hlater.types.tree_eq hadjusted.canonical hu.types hadjusted.has]
    rfl

section Trees

variable {inst : Instantiator}

theorem denotes_instance (hinst : inst.Steady s instantiate) (hs : s.Closed)
    {template : SymbolId} (htemplate : s.table.HasSymbol template) {args : List Node}
    (hargs : AllKnown s.Known (handlesOfNodes args)) (span : Span) :
    Denotes s (inst template args span) False (·.instantiated? template args span)
      (fun _ i => i) := by
  have hsteady := hinst s (.refl s) hs template args span span htemplate hargs
  refine ⟨(hsteady.changes.preserves hs).2, fun i hi u hu hgrows => ?_, fun _ _ h => h.elim⟩
  rw [instantiated?, hsteady.again i hi u hu hgrows]
  rfl

mutual

theorem denotes_resolveNode :
    ∀ (node : Node) {s : Session}, inst.Steady s instantiate → s.Closed →
      AllKnown s.Known node.handles →
      Denotes s (resolveNode inst node) node.IsTemplateFree (·.denoteNode node) (·.types.tree)
  | .typeId specifiers declarator span, s, hinst, hs, h => by
    rw [resolveNode]
    simp only [denoteNode]
    refine ((denotes_resolveSpecifiers span specifiers hinst hs h.left).mono And.left).bind hs
      (steady_resolveSpecifiers span specifiers hinst hs h.left) (fun hfree u hu => ?_)
      fun type u htype hu hgrows => ?_
    · exact hu.denoteNode (.typeId specifiers declarator span) h hfree
    · exact (denotes_applyParts declarator (hinst.later hgrows) hu htype
        (hgrows.allKnown h.right)).mono And.right
  | .resolvedType type _ _, s, _, hs, h => by
    rw [resolveNode]
    exact .pure fun u _ _ => rfl
  | .paren inner _, s, hinst, hs, h => by
    rw [resolveNode]
    exact denotes_resolveNode inner hinst hs h
  | .name text id span, s, _, hs, h => by
    rw [resolveNode]
    exact denotes_namedType hs text h.head span
  | .templateId template _ arguments span, s, hinst, hs, h => by
    rw [resolveNode]
    simp only [denoteNode]
    exact (denotes_instance hinst hs h.head h.tail span).bind hs
      (hinst s (.refl s) hs template arguments span span h.head h.tail) (fun hfree => hfree.elim)
      fun i u hi hu _ => denotes_typeOfSymbol hu hi.1
  | .typeParameter _ _ _, _, _, _, _ | .valueParameter _ _ _, _, _, _, _
  | .literal _ _, _, _, _, _ | .unary _ _ _, _, _, _, _ | .binary _ _ _ _, _, _, _, _
  | .conditional _ _ _ _, _, _, _, _ | .packExpansion _ _, _, _, _, _ | .base _, _, _, _, _
  | .member _, _, _, _, _ | .staticAssert _, _, _, _, _ | .classBody _, _, _, _, _ =>
    .throw _ fun _ => rfl
termination_by structural node => node

theorem denotes_resolveSpecifiers (span : Span) :
    ∀ (specifiers : Specifiers) {s : Session}, inst.Steady s instantiate → s.Closed →
      AllKnown s.Known specifiers.handles →
      Denotes s (resolveSpecifiers inst span specifiers) specifiers.IsTemplateFree
        (·.denoteSpecifiers specifiers) (·.types.tree)
  | ⟨keywords, none⟩, s, _, hs, _ => by
    rw [resolveSpecifiers]
    exact denotes_keywordType hs keywords span
  | ⟨keywords, some named⟩, s, hinst, hs, h => by
    rw [resolveSpecifiers]
    simp only [denoteSpecifiers]
    by_cases hkeywords : keywords.specifiesType = true
    · rw [if_pos hkeywords]
      exact .of_error (exec_throw_bind s _ _) fun _ => if_pos hkeywords
    · simp only [if_neg hkeywords]
      refine (denotes_resolveNode named hinst hs h).bind hs (steady_resolveNode named hinst hs h)
        (fun hfree u hu => ?_) fun type u htype hu _ => ?_
      · rw [hu.denoteNode named h hfree]
      · refine denotes_onTypes (TypeGraph.settled_qualify hu.types htype keywords.qualifiers)
          fun v hv hgrows => ?_
        rw [TypeGraph.tree_qualify hu.types htype, hgrows.types.tree_eq hu.types hv.types htype]
        rfl
termination_by structural specifiers => specifiers

theorem denotes_applyPart :
    ∀ (part : DeclaratorPart) {s : Session} {current : TypeId}, inst.Steady s instantiate →
      s.Closed → s.types.Has current → AllKnown s.Known part.handles →
      Denotes s (applyPart inst current part) part.IsTemplateFree
        (fun u => u.denotePart (u.types.tree current) part) (·.types.tree)
  | .name _ _, s, current, _, hs, hcurrent, _ => by
    rw [applyPart]
    exact .pure fun _ _ _ => rfl
  | .pointer qualifiers span, s, current, _, hs, hcurrent, _ => by
    rw [applyPart]
    exact denotes_formed hs hcurrent span (fun g hg => pointerFault?_eq hg hcurrent)
      (isNone_pointerFault? hs.types hcurrent)
      (TypeGraph.settled_pointer hs.types hcurrent qualifiers) (.pointer · qualifiers)
      (TypeGraph.tree_pointer hs.types hcurrent qualifiers)
  | .lvalueReference span, s, current, _, hs, hcurrent, _ => by
    rw [applyPart]
    exact denotes_formed hs hcurrent span (fun g hg => referenceFault?_eq hg hcurrent)
      (isNone_referenceFault? hs.types hcurrent)
      (TypeGraph.settled_lvalueReference hs.types hcurrent) (·.toLvalueReference)
      (TypeGraph.tree_lvalueReference hs.types hcurrent)
  | .rvalueReference span, s, current, _, hs, hcurrent, _ => by
    rw [applyPart]
    exact denotes_formed hs hcurrent span (fun g hg => referenceFault?_eq hg hcurrent)
      (isNone_referenceFault? hs.types hcurrent)
      (TypeGraph.settled_rvalueReference hs.types hcurrent) (·.toRvalueReference)
      (TypeGraph.tree_rvalueReference hs.types hcurrent)
  | .array none span, s, current, _, hs, hcurrent, _ => by
    rw [applyPart]
    exact denotes_formed hs hcurrent span (fun g hg => arrayFault?_eq hg hcurrent)
      (isNone_arrayFault? hs.types hcurrent) (TypeGraph.settled_array hs.types hcurrent none)
      (.array · none) (TypeGraph.tree_array hs.types hcurrent none)
  | .array (some expression) span, s, current, _, hs, hcurrent, h => by
    rw [applyPart]
    simp only [denotePart]
    refine (denotes_rejectType hs hcurrent (isNone_arrayFault? hs.types hcurrent) span).bind hs
      (steady_rejectType span fun g hg => arrayFault?_eq hg hcurrent) (fun _ u hu => ?_)
      fun _ u hu _ _ => ?_
    -- If the bound fails, the array was not denoted before the check either.
    · rw [hu.tree current hcurrent, hu.bound expression h]
    obtain ⟨rfl, _⟩ := hu
    refine (denotes_arrayBound expression).bind hs (steady_arrayBound expression)
      (fun _ u hu => ?_) fun n u hu _ _ => ?_
    · rw [hu.tree current hcurrent, hu.bound expression h]
    subst hu
    refine denotes_onTypes (TypeGraph.settled_array hs.types hcurrent (some n))
      fun v hv hgrows => ?_
    rw [TypeGraph.tree_array hs.types hcurrent, hgrows.types.tree_eq hs.types hv.types hcurrent]
    rfl
  | .function parameters variadic qualifiers span, s, current, hinst, hs, hcurrent, h => by
    rw [applyPart]
    simp only [denotePart]
    refine (denotes_rejectType hs hcurrent (isNone_functionFault? hs.types hcurrent) span).bind hs
      (steady_rejectType span fun g hg => functionFault?_eq hg hcurrent) (fun hfree u hu => ?_)
      fun _ u hu _ _ => ?_
    · rw [hu.tree current hcurrent, hu.denoteParameters _ parameters h hfree]
    obtain ⟨rfl, _⟩ := hu
    refine (denotes_resolveParameters _ parameters hinst hs h).bind hs
      (steady_resolveParameters _ parameters hinst hs h) (fun hfree u hu => ?_)
      fun types u htypes hu hgrows => ?_
    · rw [hu.tree current hcurrent, hu.denoteParameters _ parameters h hfree]
    have hresult := hgrows.types.has hcurrent
    have hparameters : ∀ p ∈ types, u.types.Has p := fun p hp => by
      obtain ⟨l, hl, _⟩ := htypes p hp
      exact TypeGraph.has_of_label? hl
    refine denotes_onTypes (TypeGraph.settled_function hu.types hresult hparameters variadic
      qualifiers) fun v hv hlater => ?_
    have htree : ∀ p ∈ types, v.types.tree p = u.types.tree p := fun p hp =>
      hlater.types.tree_eq hu.types hv.types (hparameters p hp)
    rw [TypeGraph.tree_function hu.types hresult hparameters, List.map_congr_left htree,
      hlater.types.tree_eq hu.types hv.types hresult]
    rfl
termination_by structural part => part

theorem denotes_applyParts :
    ∀ (parts : List DeclaratorPart) {s : Session} {current : TypeId}, inst.Steady s instantiate →
      s.Closed → s.types.Has current → AllKnown s.Known (handlesOfParts parts) →
      Denotes s (applyParts inst current parts) (arePartsTemplateFree parts)
        (fun u => u.denoteParts (u.types.tree current) parts) (·.types.tree)
  | [], s, current, _, hs, hcurrent, _ => by
    rw [applyParts]
    exact .pure fun _ _ _ => rfl
  | part :: rest, s, current, hinst, hs, hcurrent, h => by
    rw [applyParts]
    simp only [denoteParts]
    refine ((denotes_applyPart part hinst hs hcurrent h.left).mono And.left).bind hs
      (steady_applyPart part hinst hs hcurrent h.left) (fun hfree u hu => ?_)
      fun type u htype hu hgrows => ?_
    · rw [hu.tree current hcurrent]
      exact hu.denoteParts _ (part :: rest) h hfree
    · exact (denotes_applyParts rest (hinst.later hgrows) hu htype
        (hgrows.allKnown h.right)).mono And.right
termination_by structural parts => parts

theorem denotes_resolveParameter (alone : Bool) :
    ∀ (parameter : FunctionParameter) {s : Session}, inst.Steady s instantiate → s.Closed →
      AllKnown s.Known parameter.handles →
      Denotes s (resolveParameter inst alone parameter) parameter.IsTemplateFree
        (·.denoteParameter alone parameter) (fun u type => type.toList.map u.types.tree)
  | ⟨specifiers, declarator, initializer, span⟩, s, hinst, hs, h => by
    rw [resolveParameter]
    simp only [denoteParameter]
    refine ((denotes_resolveSpecifiers span specifiers hinst hs h.left.left).mono And.left).bind hs
      (steady_resolveSpecifiers span specifiers hinst hs h.left.left) (fun hfree u hu => ?_)
      fun base u hbase hu hgrows => ?_
    · exact hu.denoteParameter alone ⟨specifiers, declarator, initializer, span⟩ h hfree
    have hknown := hgrows.allKnown h.left.right
    refine ((denotes_applyParts declarator (hinst.later hgrows) hu hbase hknown).mono
      And.right).bind hu (steady_applyParts declarator (hinst.later hgrows) hu hbase hknown)
      (fun hfree v hv => ?_) fun type v htype hv _ => ?_
    · rw [hv.tree base hbase, hv.denoteParts _ declarator hknown hfree.2]
    · exact denotes_parameterOf hv htype (alone && declarator.isEmpty) span
termination_by structural parameter => parameter

theorem denotes_resolveParameters (alone : Bool) :
    ∀ (parameters : List FunctionParameter) {s : Session}, inst.Steady s instantiate → s.Closed →
      AllKnown s.Known (handlesOfParameters parameters) →
      Denotes s (resolveParameters inst alone parameters) (areParametersTemplateFree parameters)
        (·.denoteParameters alone parameters) (fun u types => types.map u.types.tree)
  | [], s, _, hs, _ => by
    rw [resolveParameters]
    exact .pure fun _ _ _ => rfl
  | parameter :: rest, s, hinst, hs, h => by
    rw [resolveParameters]
    simp only [denoteParameters]
    refine ((denotes_resolveParameter alone parameter hinst hs h.left).mono And.left).bind hs
      (steady_resolveParameter alone parameter hinst hs h.left) (fun hfree u hu => ?_)
      fun type u htype hu hgrows => ?_
    · exact hu.denoteParameters alone (parameter :: rest) h hfree
    have hknown := hgrows.allKnown h.right
    refine ((denotes_resolveParameters alone rest (hinst.later hgrows) hu hknown).mono
      And.right).bind hu (steady_resolveParameters alone rest (hinst.later hgrows) hu hknown)
      (fun hfree v hv => ?_) fun types v _ _ _ => ?_
    · have htree : ∀ p ∈ type.toList, v.types.tree p = u.types.tree p := fun p hp => by
        obtain ⟨l, hl, _⟩ := htype p (Option.mem_toList.mp hp)
        exact hv.tree p (TypeGraph.has_of_label? hl)
      rw [hv.denoteParameters alone rest hknown hfree.2, List.map_congr_left htree]
    · refine .pure fun w _ _ => ?_
      rw [List.map_append]
      rfl
termination_by structural parameters => parameters

end

theorem denotes_resolveType (hinst : inst.Steady s instantiate) (hs : s.Closed)
    {specifiers : Specifiers} {declarator : Declarator}
    (hspecifiers : AllKnown s.Known specifiers.handles)
    (hdeclarator : AllKnown s.Known (handlesOfParts declarator)) (span : Span) :
    Denotes s (resolveType inst specifiers declarator span)
      (specifiers.IsTemplateFree ∧ arePartsTemplateFree declarator)
      (·.denotedType specifiers declarator) (·.types.tree) := by
  have hnode := denotes_resolveNode (.typeId specifiers declarator span) hinst hs
    (hspecifiers.append hdeclarator)
  rw [resolveNode] at hnode
  exact hnode

end Trees

/-! ### Runs -/

namespace Session

/-- A resolution that returns a type leaves a closed session that has grown and has the
type, and the type unfolds to what is denoted there and later. -/
theorem denotedType_of_resolveType (hs : s.Closed) {specifiers : Specifiers}
    {declarator : Declarator} {span : Span}
    (hcall : (Operation.resolveType specifiers declarator span).IsOn s) {type : TypeId}
    {u : Session}
    (hexec : exec (resolveType instantiate specifiers declarator span) s = (.ok type, u)) :
    u.Closed ∧ s.Grows u ∧ u.types.Has type ∧ ∀ v, v.Closed → u.Grows v →
      v.denotedType specifiers declarator = some (v.types.tree type) := by
  have hknown := hcall.known
  have hsteady := steady_resolveType (steady_instantiate s) hs hknown.left hknown.right span
  have hdenotes := denotes_resolveType (steady_instantiate s) hs hknown.left hknown.right span
  obtain ⟨hclosed, hgrows⟩ := hsteady.changes.preserves hs
  have hhas := hsteady.result type
  have hok := hdenotes.ok type
  rw [hexec] at hclosed hgrows hhas hok
  exact ⟨hclosed, hgrows, hhas rfl, hok rfl⟩

/-- Without template-ids a resolution returns a type exactly if one is denoted, and the
type unfolds to that. -/
theorem toOption_resolveType (hs : s.Closed) {specifiers : Specifiers} {declarator : Declarator}
    {span : Span} (hcall : (Operation.resolveType specifiers declarator span).IsOn s)
    (hspecifiers : specifiers.IsTemplateFree) (hdeclarator : arePartsTemplateFree declarator)
    {result : Except Diagnostic TypeId} {u : Session}
    (hexec : exec (resolveType instantiate specifiers declarator span) s = (result, u)) :
    result.toOption.map u.types.tree = s.denotedType specifiers declarator := by
  have hknown := hcall.known
  cases result with
  | error d =>
    have hdenotes := denotes_resolveType (steady_instantiate s) hs hknown.left hknown.right span
    have herror := hdenotes.error
    rw [hexec] at herror
    rw [herror d rfl ⟨hspecifiers, hdeclarator⟩]
    rfl
  | ok type =>
    obtain ⟨hclosed, hgrows, _, hlater⟩ := denotedType_of_resolveType hs hcall hexec
    have hspares := (steady_resolveType (steady_instantiate s) hs hknown.left hknown.right
      span).spares type
    rw [hexec] at hspares
    rw [← ((hspares rfl).agrees hs hclosed hgrows).denotedType hknown.left hknown.right hspecifiers
      hdeclarator, hlater u hclosed (.refl u)]
    rfl

/-- Resolution at any point of a run. A type that it returns unfolds to what is denoted,
from then on, where a template-id denotes the instance that instantiation returns for it.
Without template-ids it returns a type exactly if one is denoted where it starts. And a
type that is resolved later is the same one exactly if the same was denoted. -/
theorem resolveType_eq_denotedType {config : Config} (hs : (start config).Run s)
    {specifiers : Specifiers} {declarator : Declarator} {span : Span}
    (hcall : (Operation.resolveType specifiers declarator span).IsOn s)
    {result : Except Diagnostic TypeId} {u : Session}
    (hexec : exec (resolveType instantiate specifiers declarator span) s = (result, u)) :
    (∀ type v, result = .ok type → u.Run v →
      v.denotedType specifiers declarator = some (v.types.tree type)) ∧
    (specifiers.IsTemplateFree → arePartsTemplateFree declarator →
      result.toOption.map u.types.tree = s.denotedType specifiers declarator) ∧
    ∀ type v, result = .ok type → u.Run v →
      ∀ specifiers' declarator' span',
        (Operation.resolveType specifiers' declarator' span').IsOn v →
        ∀ type' w, exec (resolveType instantiate specifiers' declarator' span') v = (.ok type', w) →
          (type' = type ↔
            w.denotedType specifiers' declarator' = u.denotedType specifiers declarator) := by
  have hclosed := hs.closed
  refine ⟨?_, fun h h' => toOption_resolveType hclosed hcall h h' hexec, ?_⟩
  · rintro type v rfl hrun
    obtain ⟨hu, _, _, hlater⟩ := denotedType_of_resolveType hclosed hcall hexec
    obtain ⟨hv, hgrows⟩ := hrun.preserves hu
    exact hlater v hv hgrows
  · rintro type v rfl hrun specifiers' declarator' span' hcall' type' w hexec'
    obtain ⟨hu, _, hhas, hlater⟩ := denotedType_of_resolveType hclosed hcall hexec
    obtain ⟨hv, hgrows⟩ := hrun.preserves hu
    obtain ⟨hw, hgrows', hhas', hlater'⟩ := denotedType_of_resolveType hv hcall' hexec'
    have htypes := hgrows.types.trans hgrows'.types
    -- Both denotations are trees of the last graph, which shares equal trees.
    rw [hlater' w hw (.refl w), hlater u hu (.refl u), ← htypes.tree_eq hu.types hw.types hhas,
      Option.some_inj]
    constructor
    · rintro rfl
      rfl
    · exact TypeGraph.tree_injective hw.types hhas' (htypes.has hhas)

/-- A pointer to `int` and one to `signed` denote the same, so both resolve to one type. -/
theorem resolveType_eq_denotedType_signed :
    let call (keyword : Keyword) := resolveType instantiate ⟨.singleton keyword, none⟩
      [.pointer .none .synthesized] .synthesized
    ∃ type u w, exec (call .int) (start .standard) = (.ok type, u) ∧
      exec (call .signed) u = (.ok type, w) ∧
      w.types.tree type = .pointer (.base (.primitive .int .none)) .none := by
  intro call
  have hcall : ∀ (keyword : Keyword) (s : Session), (Operation.resolveType
      ⟨.singleton keyword, none⟩ [.pointer .none .synthesized] .synthesized).IsOn s :=
    fun _ _ => .of_handles_nil
  rcases hint : exec (call .int) (start .standard) with ⟨first, u⟩
  rcases hsigned : exec (call .signed) u with ⟨second, w⟩
  have hrun : (start .standard).Run u := by
    have hstep := Run.refl.step _ (hcall .int (start .standard))
    rw [Operation.after, Operation.perform, exec_discard] at hstep
    have hu : (exec (call .int) (start .standard)).2 = u := congrArg Prod.snd hint
    exact hu ▸ hstep
  obtain ⟨_, hfirst, hsame⟩ := resolveType_eq_denotedType Run.refl (hcall .int _) hint
  obtain ⟨_, hsecond, _⟩ := resolveType_eq_denotedType hrun (hcall .signed u) hsigned
  obtain ⟨type, htype, htree⟩ := Option.map_eq_some_iff.mp (hfirst trivial ⟨trivial, trivial⟩)
  obtain ⟨type', htype', htree'⟩ := Option.map_eq_some_iff.mp (hsecond trivial ⟨trivial, trivial⟩)
  obtain rfl := toOption_eq_some.mp htype
  obtain rfl := toOption_eq_some.mp htype'
  obtain rfl : type' = type :=
    (hsame type u rfl .refl _ _ _ (hcall .signed u) type' w hsigned).mpr rfl
  exact ⟨type', u, w, rfl, hsigned, htree'⟩

end Session

end TemplateAnalysis
