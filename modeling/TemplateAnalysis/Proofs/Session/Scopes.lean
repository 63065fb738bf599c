import TemplateAnalysis.Proofs.Session.Instantiation

/-!
# Opening and closing scopes is a sequence of changes

What opens and closes a scope leads somewhere: what it does to the session is a sequence
of changes, whether or not it succeeds. A scope is entered or left only after it has
been checked that it is there and of the right sort.
-/

namespace TemplateAnalysis

open Session Analysis

variable {s : Session} {α β : Type}

namespace Leads

variable {post : α → Session → Prop}

theorem inScope {x : Analysis α} {scope : ScopeId} (hs : s.Closed)
    (hscope : s.table.HasScope scope) (hx : Leads { s with current := scope } x fun _ _ => True) :
    Leads s (Analysis.inScope scope x) fun _ _ => True := by
  have henter : s.Changes { s with current := scope } := .single ⟨_, .enter scope hscope⟩
  have hgrows := (Session.Changes.preserves (henter.trans hx.changes) hs).2
  have hinner := (hx.changes.preserves (hs.enter hscope)).2
  have hexec := exec_inScope s scope x
  refine ⟨?_, ?_, fun a ha => ?_, fun _ _ => trivial⟩
  · rw [hexec]
    exact (henter.trans hx.changes).tail
      ⟨_, .enter s.current (hgrows.table.hasScope _ hs.current_has)⟩
  · rw [hexec]
    exact hx.keeps
  · -- Entering and leaving the scope leaves all symbols alone.
    rw [hexec] at ha ⊢
    have hmove : ∀ (u : Session) (scope : ScopeId), u.Completes { u with current := scope } ∧
        u.Grows { u with current := scope } :=
      fun u scope => ⟨.of_keepsClasses (.refl _), rfl, rfl, .refl _, .refl _⟩
    obtain ⟨henter, hgrows'⟩ := hmove s scope
    obtain ⟨hleave, hgrows''⟩ := hmove (exec x { s with current := scope }).2 s.current
    exact (henter.trans (hx.completes a ha) hgrows' hinner hx.keeps).trans hleave hgrows hgrows''
      fun _ _ h => h

end Leads

theorem exec_inHeader_bind (f : Bool → Analysis β) :
    exec (inHeader >>= f) s = exec (f (s.table.scope s.current).isOpenHeader) s := by
  rw [inHeader, exec_bind, exec_get_bind, exec_pure]

theorem Leads.inHeader_bind {post : β → Session → Prop} {f : Bool → Analysis β}
    (h : Leads s (f (s.table.scope s.current).isOpenHeader) post) :
    Leads s (inHeader >>= f) post := .congr (exec_inHeader_bind f) h

theorem Leads.modifyTable_comp {f g : SymbolTable → SymbolTable}
    (h : Leads s (modifyTable f >>= fun _ => modifyTable g) fun _ _ => True) :
    Leads s (modifyTable fun t => g (f t)) fun _ _ => True := .congr rfl h

/-! ### Templates -/

def Session.defineEntity (id : SymbolId) (span : Span) : Analysis Unit := do
  let target ← symbol id
  if (target.entity.template?.map (·.isEntityDefined)).getD false then
    throw ⟨.redefinition target.name, span⟩
  modifyTable (·.modifyTemplate id fun data => { data with isEntityDefined := true })

/-- A template is entered step by step: it is specified if it is new, defined if the declaration
does so, and then the cursor moves. -/
theorem enterTemplate_eq (declared : Declared) (entity : TemplatedEntity) (defines : Bool)
    (span : Span) : enterTemplate declared entity defines span =
      ownScope declared.symbol span >>= fun own =>
        (if declared.isNew then
          modifyTable (·.modifyTemplate declared.symbol fun data => { data with entity })
        else pure ()) >>= fun _ =>
          (if defines then defineEntity declared.symbol span else pure ()) >>= fun _ =>
            enterScope own := by
  rw [enterTemplate]
  refine bind_congr fun own => ?_
  have hdefine : (do
      if defines then
        let target ← symbol declared.symbol
        if (target.entity.template?.map (·.isEntityDefined)).getD false then
          throw ⟨.redefinition target.name, span⟩
        modifyTable (·.modifyTemplate declared.symbol fun data =>
          { data with isEntityDefined := true })
      enterScope own) =
      (if defines then defineEntity declared.symbol span else pure ()) >>= fun _ =>
        enterScope own := by
    cases defines with
    | false => rw [if_neg Bool.false_ne_true, if_neg Bool.false_ne_true, pure_bind]
    | true =>
      rw [if_pos rfl, if_pos rfl, defineEntity, bind_assoc]
      refine bind_congr fun target => ?_
      split
      · rw [bind_assoc]
      · rfl
  rw [hdefine]
  cases declared.isNew with
  | false => rw [if_neg Bool.false_ne_true, if_neg Bool.false_ne_true, pure_bind]
  | true => rw [if_pos rfl, if_pos rfl]

/-! ### Scopes -/

theorem leads_enterScope {scope : ScopeId} (h : s.table.HasScope scope) :
    Leads s (enterScope scope) fun _ u => u.table = s.table :=
  .change (exec_modify s _) (.enter scope h) rfl

theorem leads_leaveScope (hs : s.Closed) (span : Span) :
    Leads s (leaveScope span) fun _ _ => True := by
  rw [leaveScope]
  refine Leads.get_bind (Leads.scope_bind ?_)
  cases henclosing : (s.table.scope s.current).enclosing with
  | none => exact Leads.throw _
  | some enclosing =>
    refine Leads.bind hs (leads_enterScope (hs.linked.enclosing_has henclosing))
      fun _ u _ _ _ => Leads.pure trivial

theorem leads_ownScope (hs : s.Closed) {id : SymbolId} (hid : s.table.HasSymbol id) (span : Span) :
    Leads s (ownScope id span) fun own u =>
      u = s ∧ (s.table.symbol id).scope = some own ∧ s.table.HasScope own := by
  rw [ownScope]
  refine Leads.symbol_bind ?_
  cases hown : (s.table.symbol id).scope with
  | none => exact Leads.throw _
  | some own => exact Leads.pure ⟨rfl, rfl, (hs.symbol id hid).scope_has own hown⟩

theorem leads_closeNamespace (hs : s.Closed) (span : Span) :
    Leads s (closeNamespace span) fun _ _ => True := by
  rw [closeNamespace]
  refine Leads.get_bind (Leads.scope_bind ?_)
  split
  · exact Leads.throw_bind _ _
  · exact Leads.bind hs (leads_leaveScope hs span) fun _ _ _ _ _ => Leads.pure trivial

theorem leads_endTemplate (hs : s.Closed) (span : Span) :
    Leads s (endTemplate span) fun _ _ => True := by
  rw [endTemplate]
  refine Leads.get_bind (Leads.scope_bind ?_)
  by_cases hkind : (s.table.scope s.current).kind ≠ .templateHeader
  · rw [if_pos hkind]
    exact Leads.throw_bind _ _
  · rw [if_neg hkind]
    split
    · exact Leads.throw _
    · exact Leads.bind hs (leads_leaveScope hs span) fun _ _ _ _ _ => Leads.pure trivial

theorem leads_beginTemplate {parameters : ParameterList}
    (h : AllKnown s.Known (parameters.flatMap (·.handles))) (span : Span) :
    Leads s (beginTemplate parameters span) fun _ _ => True := by
  rw [beginTemplate]
  split
  · exact Leads.throw_bind _ _
  · rename_i hempty
    refine Leads.get_bind ?_
    simp only
    split
    · exact Leads.throw_bind _ _
    · refine Leads.ofExcept_bind fun _ hvalid => ?_
      have hopen : s.Change .plain _ := .openHeader parameters hvalid h (by simpa using hempty)
      refine Leads.changes_of_eq (r := .ok s.table.nextScope) rfl
        (.tail (.single hopen) (.enter s.table.nextScope ?_)) fun _ _ => trivial
      refine (SymbolTable.grows_insertParameters _ _ _ _).hasScope _ ?_
      exact (s.table.hasScope_pushScope _ _).mpr (.inr rfl)

end TemplateAnalysis
