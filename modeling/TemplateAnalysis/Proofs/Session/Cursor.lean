import TemplateAnalysis.Proofs.Session.Arena
import TemplateAnalysis.Proofs.Session.ParameterLists

/-!
# The cursor of a session

`Moves s x lands` says where a step leaves the cursor: where it was if the step fails, and
in a scope that is known if it succeeds. Operations that move the cursor do so last, behind
everything that can fail; a class body and an instance give the cursor and the depth back.
So a template is declared and left without the cursor getting lost, also when the
declaration goes on inside of a template that has been there before.
-/

namespace TemplateAnalysis

open Session Analysis

variable {α β : Type} {s : Session}

/-- A step that succeeds leaves the session somewhere, and one that fails leaves the cursor
where it was. -/
structure Moves (s : Session) (x : Analysis α) (lands : α → Session → Prop) : Prop where
  error : ∀ d, (exec x s).1 = .error d → (exec x s).2.current = s.current
  ok : ∀ a, (exec x s).1 = .ok a → lands a (exec x s).2

namespace Moves

variable {lands : α → Session → Prop} {arrives : β → Session → Prop}

theorem of_eq {x : Analysis α} {a : α} {u : Session} (h : exec x s = (.ok a, u))
    (hlands : lands a u) : Moves s x lands := by
  refine ⟨fun d hd => ?_, fun b hb => ?_⟩
  · rw [h] at hd
    cases hd
  · rw [h] at hb ⊢
    cases hb
    exact hlands

theorem congr {x : Analysis α} {y : Analysis α} (h : exec x s = exec y s)
    (hy : Moves s y lands) : Moves s x lands := ⟨h ▸ hy.error, h ▸ hy.ok⟩

theorem refuse {x : Analysis α} {d : Diagnostic} (h : exec x s = (.error d, s)) :
    Moves s x lands := by
  refine ⟨fun _ _ => by rw [h], fun a ha => ?_⟩
  rw [h] at ha
  cases ha

theorem throw (d : Diagnostic) : Moves s (MonadExcept.throw d : Analysis α) lands :=
  .refuse (exec_throw s d)

theorem throw_bind (d : Diagnostic) (f : α → Analysis β) :
    Moves s ((MonadExcept.throw d : Analysis α) >>= f) arrives := .refuse (exec_throw_bind s d f)

/-- What comes before does not move the cursor. -/
theorem bind {x : Analysis α} {f : α → Analysis β} (hx : (exec x s).2.current = s.current)
    (hf : ∀ a, (exec x s).1 = .ok a → Moves (exec x s).2 (f a) arrives) :
    Moves s (x >>= f) arrives := by
  cases h : (exec x s).1 with
  | error d =>
    have hbind := exec_bind_error h f
    refine ⟨fun _ _ => by rw [hbind, hx], fun b hb => ?_⟩
    rw [hbind] at hb
    cases hb
  | ok a =>
    have hbind := exec_bind_ok h f
    have hstep := hf a h
    refine ⟨fun d hd => ?_, fun b hb => ?_⟩
    · rw [hbind] at hd ⊢
      exact (hstep.error d hd).trans hx
    · rw [hbind] at hb ⊢
      exact hstep.ok b hb

theorem map {x : Analysis α} (hx : Moves s x lands) (g : α → β)
    (h : ∀ a u, lands a u → arrives (g a) u) :
    Moves s (x >>= fun a => pure (g a)) arrives := by
  cases hr : (exec x s).1 with
  | error d =>
    have hbind := exec_bind_error hr fun a => (pure (g a) : Analysis β)
    refine ⟨fun _ _ => by rw [hbind, hx.error d hr], fun b hb => ?_⟩
    rw [hbind] at hb
    cases hb
  | ok a =>
    exact of_eq ((exec_bind_ok hr _).trans (exec_pure _ _)) (h a _ (hx.ok a hr))

theorem later {x : Analysis α} (hx : Moves s x lands) (h : s.Grows (exec x s).2) :
    Moves s x fun a u => lands a u ∧ s.Grows u := ⟨hx.error, fun a ha => ⟨hx.ok a ha, h⟩⟩

theorem discard {x : Analysis α} (hx : Moves s x lands) :
    Moves s (do let _ ← x) fun _ _ => True := hx.map (fun _ => ()) fun _ _ _ => trivial

theorem get_bind {f : Session → Analysis β} (h : Moves s (f s) arrives) :
    Moves s (get >>= f) arrives := .congr (exec_get_bind s f) h

theorem symbol_bind {id : SymbolId} {f : Symbol → Analysis β}
    (h : Moves s (f (s.table.symbol id)) arrives) : Moves s (symbol id >>= f) arrives :=
  .congr (exec_symbol_bind s id f) h

theorem scope_bind {id : ScopeId} {f : Scope → Analysis β}
    (h : Moves s (f (s.table.scope id)) arrives) : Moves s (scope id >>= f) arrives :=
  .congr (exec_scope_bind s id f) h

theorem ownScope_bind {id : SymbolId} {span : Span} {f : ScopeId → Analysis β}
    (h : ∀ own, (s.table.symbol id).scope = some own → Moves s (f own) arrives) :
    Moves s (ownScope id span >>= f) arrives := by
  rw [ownScope, bind_assoc]
  refine .symbol_bind ?_
  cases hown : (s.table.symbol id).scope with
  | none => exact .throw_bind _ _
  | some own => exact h own hown

theorem enterScope (scope : ScopeId) :
    Moves s (Session.enterScope scope) fun _ u => u.current = scope := .of_eq (exec_modify s _) rfl

end Moves

/-! ### Scopes that are opened and closed -/

theorem moves_leaveScope (span : Span) : Moves s (leaveScope span) fun _ _ => True := by
  rw [leaveScope]
  refine .get_bind (.scope_bind ?_)
  split
  · exact .throw _
  · exact (Moves.enterScope _).map _ fun _ _ _ => trivial

theorem moves_openNamespace (name : String) (span : Span) :
    Moves s (openNamespace name span) fun _ _ => True := by
  rw [openNamespace]
  exact .get_bind (.bind rfl fun declared _ => .ownScope_bind fun own _ =>
    (Moves.enterScope own).map _ fun _ _ _ => trivial)

theorem moves_closeNamespace (span : Span) : Moves s (closeNamespace span) fun _ _ => True := by
  rw [closeNamespace]
  refine .get_bind (.scope_bind ?_)
  split
  · exact .throw_bind _ _
  · exact (moves_leaveScope span).map _ fun _ _ _ => trivial

theorem isOpenHeader_insertParameters (header scope : ScopeId) : ∀ (parameters : ParameterList)
    (index : Nat) (t : SymbolTable),
    ((insertParameters header index parameters t).scope scope).isOpenHeader =
      (t.scope scope).isOpenHeader
  | [], _, _ => rfl
  | p :: rest, index, t => by
    rw [insertParameters, isOpenHeader_insertParameters header scope rest]
    split
    · rfl
    · rw [SymbolTable.insertEntity, SymbolTable.scope_pushSymbol]
      split <;> rfl

structure Session.EntersHeader (s : Session) (header : ScopeId) (u : Session) : Prop where
  current : u.current = header
  isOpen : ¬ u.IsOutside
  enclosing : (u.table.scope header).enclosing = some s.current

theorem moves_beginTemplate (parameters : ParameterList) (span : Span) :
    Moves s (beginTemplate parameters span) s.EntersHeader := by
  rw [beginTemplate]
  split
  · exact .throw_bind _ _
  · refine .get_bind ?_
    dsimp only
    split
    · exact .throw_bind _ _
    · refine .bind (by rw [exec_ofExcept]) fun _ _ => ?_
      let x : Scope :=
        { Scope.fresh .templateHeader none (some s.current) with pending := some parameters }
      have hscope : (s.table.pushScope x).2.scope s.table.nextScope = x :=
        (s.table.scope_pushScope x _).trans (if_pos rfl)
      have hgrows := (SymbolTable.grows_insertParameters s.table.nextScope parameters 0
        (s.table.pushScope x).2).scope _ ((s.table.hasScope_pushScope x _).mpr (.inr rfl))
      have hopen := (isOpenHeader_insertParameters s.table.nextScope _ parameters 0 _).trans
        (congrArg Scope.isOpenHeader hscope)
      rw [exec_ofExcept]
      exact .of_eq rfl ⟨rfl, fun houtside => Bool.false_ne_true (houtside.symm.trans hopen),
        hgrows.enclosing.trans (congrArg Scope.enclosing hscope)⟩

theorem moves_endTemplate (span : Span) : Moves s (endTemplate span) fun _ _ => True := by
  rw [endTemplate]
  refine .get_bind (.scope_bind ?_)
  by_cases hkind : (s.table.scope s.current).kind ≠ .templateHeader
  · rw [if_pos hkind]
    exact .throw_bind _ _
  · rw [if_neg hkind]
    split
    · exact .throw _
    · exact (moves_leaveScope span).map _ fun _ _ _ => trivial

/-! ### Templates -/

theorem current_defineEntity (id : SymbolId) (span : Span) :
    (exec (defineEntity id span) s).2.current = s.current := by
  rw [defineEntity, exec_symbol_bind]
  split
  · rw [exec_throw_bind]
  · rfl

theorem moves_enterTemplate (declared : Declared) (entity : TemplatedEntity) (defines : Bool)
    (span : Span) : Moves s (enterTemplate declared entity defines span) fun _ u =>
      (s.table.symbol declared.symbol).scope = some u.current := by
  rw [enterTemplate_eq]
  refine .ownScope_bind fun own hown => .bind ?_ fun _ _ => .bind ?_ fun _ _ => ?_
  · split <;> rfl
  · split
    · exact current_defineEntity declared.symbol span
    · rfl
  · exact .of_eq (exec_modify _ _) hown

theorem SymbolTable.pending_settleHeader (t : SymbolTable) (header : ScopeId) :
    ((t.settleHeader header).scope header).pending = none := by
  rw [settleHeader, scope_modifyScope]
  split
  · rfl
  · rename_i hhas
    rw [scope_eq_default fun h => hhas ⟨rfl, h⟩]
    rfl

/-- What is declared behind a header stands around it, and the header is done with. -/
theorem SymbolTable.Arena.declareTemplate {t u : SymbolTable} (h : t.Arena) (hgrows : t.Grows u)
    {header : ScopeId} {name : String} {kind : SymbolKind} {span : Span} {declared : Declared}
    (hdeclare : (SymbolTable.declareTemplate header name kind span).exec t = (.ok declared, u)) :
    (t.scope header).enclosing = some (u.symbol declared.symbol).enclosing ∧
      (u.scope header).pending = none := by
  rw [SymbolTable.exec_declareTemplate] at hdeclare
  split at hdeclare
  · cases hdeclare
  · cases hdeclare
  · rename_i entity around _ haround
    split at hdeclare
    · rename_i existing rest hnamed
      rw [SymbolTable.exec_redeclareTemplate] at hdeclare
      split at hdeclare
      · cases hdeclare
      · rename_i data own hfound
        obtain ⟨hdata, _, _⟩ := redeclaredTemplate_eq hfound
        split at hdeclare
        · cases hdeclare
        · dsimp only at hdeclare
          split at hdeclare
          · cases hdeclare
          · cases hdeclare
            -- A template is no enumerator, so that it stands where it is found.
            have hmay : t.MayBind around existing :=
              h.mayBind_of_named (hnamed ▸ List.mem_cons_self)
            have hplace := hmay.place.resolve_right (by simp [Symbol.kind, hdata, Entity.kind])
            refine ⟨?_, pending_settleHeader _ header⟩
            rw [haround, (hgrows.symbol existing hmay.has).enclosing, hplace]
    · split at hdeclare
      · cases hdeclare
      · rename_i hnew
        cases hdeclare
        obtain ⟨_, rfl, hu⟩ := SymbolTable.introduceTemplate_eq hnew
        refine ⟨?_, ?_⟩
        · rw [haround, (symbol_introduceTemplate hnew).2]
        · rw [hu]
          exact pending_settleHeader _ header

/-- Where the declaration of a template gets to: the inside of a template that stands around
the header, which is done with. -/
structure Session.EntersTemplate (s : Session) (id : SymbolId) (u : Session) : Prop where
  kind : (u.table.symbol id).kind = .template
  scope : (u.table.symbol id).scope = some u.current
  enclosing : (s.table.scope s.current).enclosing = some (u.table.symbol id).enclosing
  pending : (u.table.scope s.current).pending = none

theorem moves_declareHeaderEntity (hs : s.Closed) (harena : s.table.Arena)
    (hopen : ¬ s.IsOutside) (name : String) (entity : TemplatedEntity) (defines : Bool)
    (span : Span) :
    Moves s (declareHeaderEntity name entity.kind entity defines span) s.EntersTemplate := by
  rw [declareHeaderEntity]
  refine .get_bind (.bind rfl fun declared hdeclared => ?_)
  have hleads := leads_declareTemplate hs (isOpenHeader_of_not_isOutside hopen) name entity.kind
    span
  obtain ⟨hclosed, hgrows⟩ := hleads.changes.preserves hs
  have hknown := hleads.result declared hdeclared
  obtain ⟨haround, hpending⟩ := harena.declareTemplate hgrows.table (Prod.ext hdeclared rfl)
  have hlater :=
    ((leads_enterTemplate hclosed hknown rfl defines span).changes.preserves hclosed).2
  refine ((moves_enterTemplate declared entity defines span).later hlater).map _
    fun _ u hu => ?_
  obtain ⟨hown, hgrows'⟩ := hu
  obtain ⟨data, hdata, _⟩ := hknown.template rfl
  have hsymbol := hgrows'.table.symbol _ hknown.has
  have hheader := hgrows'.table.scope _ (hgrows.table.hasScope _ hs.current_has)
  refine ⟨?_, hsymbol.scope _ hown, haround.trans (congrArg some hsymbol.enclosing.symm), ?_⟩
  · exact hsymbol.kind_eq.trans (congrArg Entity.kind hdata)
  · refine Option.eq_none_iff_forall_ne_some.mpr fun ps hps => ?_
    exact Option.some_ne_none ps ((hheader.pending ps hps).symm.trans hpending)

namespace Session

namespace Operation

variable {op : Operation}

theorem IsDeclaration.moves {x : Analysis SymbolId} (h : op.IsDeclaration x) (hs : s.Closed)
    (harena : s.table.Arena) (hopen : ¬ s.IsOutside) : Moves s x s.EntersTemplate := by
  rcases h.exec_behind hopen with ⟨d, _, heq⟩ | ⟨name, entity, defines, span, heq⟩
  · exact .refuse heq
  · exact .congr heq (moves_declareHeaderEntity hs harena hopen name entity defines span)

theorem moves_of_movesCursor (hmoves : op.MovesCursor) : Moves s op.perform fun _ _ => True := by
  cases op with
  | enterScope scope => exact (Moves.enterScope scope).discard
  | leaveScope span => exact (moves_leaveScope span).discard
  | openNamespace name span => exact (moves_openNamespace name span).discard
  | closeNamespace span => exact moves_closeNamespace span
  | beginTemplate parameters span => exact (moves_beginTemplate parameters span).discard
  | endTemplate span => exact (moves_endTemplate span).discard
  | _ => exact absurd hmoves id

/-- Whether an operation takes the header that the cursor is in for a template. -/
structure TakesHeader (op : Operation) (s : Session) : Prop where
  declares : op.Declares
  isOpen : (s.table.scope s.current).isOpenHeader = true
  pending : ((op.after s).table.scope s.current).pending = none

/-- What an operation does to the cursor and to the depth. -/
structure KeepsPlace (op : Operation) (s : Session) : Prop where
  error : ∀ d, (exec op.perform s).1 = .error d → (op.after s).current = s.current
  current : (op.after s).current ≠ s.current → op.MovesCursor ∨ op.TakesHeader s
  depth : (op.after s).depth = s.depth

theorem keepsPlace (hs : s.Closed) (harena : s.table.Arena) (howned : s.table.Owned)
    (hop : op.IsOn s) : op.KeepsPlace s := by
  have hdepth := (op.preserves hs hop).2.depth
  by_cases hmoves : op.MovesCursor
  · exact ⟨(moves_of_movesCursor hmoves).error, fun _ => .inl hmoves, hdepth⟩
  · by_cases hbehind : op.Declares ∧ ¬ s.IsOutside
    · obtain ⟨hdeclares, hopen⟩ := hbehind
      obtain ⟨x, hx⟩ := hdeclares.exists_isDeclaration
      have hstep := hx.moves hs harena hopen
      refine ⟨?_, fun hcurrent => .inr ⟨hdeclares, isOpenHeader_of_not_isOutside hopen, ?_⟩, hdepth⟩
      · rw [after, hx.perform_eq]
        exact hstep.discard.error
      · rw [hx.after_eq] at hcurrent ⊢
        cases hr : (exec x s).1 with
        | error d => exact absurd (hstep.error d hr) hcurrent
        | ok id => exact (hstep.ok id hr).pending
    · have hcurrent := (op.leavesHeaders howned.ownsNoOpenHeader hmoves fun hdeclares =>
        not_not.mp fun hopen => hbehind ⟨hdeclares, hopen⟩).current
      exact ⟨fun _ _ => hcurrent, fun h => absurd hcurrent h, hdepth⟩

end Operation

theorem exec_endTemplate {id : SymbolId} {around : ScopeId} (hheader : s.table.IsHeader s.current)
    (howner : (s.table.scope s.current).owner = some id)
    (haround : (s.table.scope s.current).enclosing = some around) (span : Span) :
    exec (endTemplate span) s = (.ok id, { s with current := around }) := by
  have hleave : exec (leaveScope span) s = (.ok around, { s with current := around }) := by
    rw [leaveScope, exec_get_bind, exec_scope_bind, haround]
    rfl
  have hkind : ¬ (s.table.scope s.current).kind ≠ .templateHeader := not_not.mpr hheader
  rw [endTemplate, exec_get_bind, exec_scope_bind, if_neg hkind, howner]
  dsimp only
  rw [exec_bind, hleave]
  rfl

/-- Whether a template that is declared behind the current header gives the cursor back to a
scope, where the template stands. Between its declaration and its end there may be anything
that comes back to the inside of the template. -/
def ReturnsTo (s : Session) (around : ScopeId) : Prop :=
  ∀ (op : Operation) (x : Analysis SymbolId) (id : SymbolId), op.IsDeclaration x → op.IsOn s →
    (exec x s).1 = .ok id → ∀ u, (op.after s).Run u → u.current = (op.after s).current →
      (u.table.symbol id).kind = .template ∧ (u.table.symbol id).enclosing = around ∧
        ∀ span, exec (endTemplate span) u = (.ok id, { u with current := around })

theorem Run.returnsTo {config : Config} (hrun : (start config).Run s) (hopen : ¬ s.IsOutside)
    {around : ScopeId} (haround : (s.table.scope s.current).enclosing = some around) :
    s.ReturnsTo around := by
  intro op x id hx hop hid u hu hcurrent
  have hs := hrun.closed
  obtain ⟨hkind, hown, henclosing, _⟩ := (hx.moves hs hrun.arena hopen).ok id hid
  rw [← hx.after_eq] at hkind hown henclosing
  have hlater := (hrun.step op hop).trans hu
  -- The template keeps its place, and the scope that it owns.
  have hgrows := (hu.preserves (op.preserves hs hop).1).2.table.symbol id
    (SymbolTable.Arena.hasSymbol_of_owner hown)
  have hown := hgrows.scope _ hown
  rw [← hcurrent] at hown
  have henclosing : (u.table.symbol id).enclosing = around :=
    hgrows.enclosing.trans (Option.some.inj (henclosing.symm.trans haround))
  refine ⟨hgrows.kind_eq.trans hkind, henclosing, fun span => exec_endTemplate ?_ ?_ ?_ span⟩
  · exact isHeader_of_template hlater.owned hlater.placed (hgrows.kind_eq.trans hkind) hown
  · exact (hlater.arena.owner id u.current).mp hown
  · rw [hlater.arena.inside id u.current hown, henclosing]

/-- What has been opened with a header: as long as the cursor is there and the header waits for
its template, this will give the cursor back to where it was. -/
structure OpensTemplate (s : Session) (header : ScopeId) (u : Session) : Prop
    extends s.EntersHeader header u where
  returns : ∀ v, u.Run v → v.current = header → ¬ v.IsOutside → v.ReturnsTo s.current

theorem Run.opensTemplate {config : Config} (hrun : (start config).Run s)
    {parameters : ParameterList} {span : Span}
    (hop : (Operation.beginTemplate parameters span).IsOn s) {header : ScopeId}
    (hheader : (exec (beginTemplate parameters span) s).1 = .ok header) :
    s.OpensTemplate header ((Operation.beginTemplate parameters span).after s) := by
  have hafter : (Operation.beginTemplate parameters span).after s =
      (exec (beginTemplate parameters span) s).2 := exec_discard _ s
  have hopened : s.EntersHeader header ((Operation.beginTemplate parameters span).after s) :=
    hafter ▸ (moves_beginTemplate parameters span).ok header hheader
  have hrun := hrun.step _ hop
  have hs := hrun.closed
  refine { hopened with returns := fun v hv hcurrent hopen => (hrun.trans hv).returnsTo hopen ?_ }
  have hscope := (hv.preserves hs).2.table.scope header (hopened.current ▸ hs.current_has)
  rw [hcurrent, hscope.enclosing, hopened.enclosing]

/-- An operation that fails leaves the cursor where it was, and every operation leaves the depth
as it was. Only what opens or closes a scope, and the declaration of a template behind its header,
which is then done with, moves the cursor when it succeeds. A header that is opened, the
declaration of its template, new or not, and the end of this bring the cursor back to where it
was, where the template stands. -/
theorem cursor_restored {config : Config} (hrun : (start config).Run s) :
    (∀ op : Operation, op.IsOn s → op.KeepsPlace s) ∧
    ∀ parameters span, (Operation.beginTemplate parameters span).IsOn s → ∀ header,
      (exec (beginTemplate parameters span) s).1 = .ok header →
        s.OpensTemplate header ((Operation.beginTemplate parameters span).after s) :=
  ⟨fun _ hop => Operation.keepsPlace hrun.closed hrun.arena hrun.owned hop,
    fun _ _ hop _ hheader => hrun.opensTemplate hop hheader⟩

/-- A template `N::Box` that is declared a second time: the declaration goes on inside of the
template, whose scope is older than the header, and the cursor comes back to `N`. -/
theorem cursor_restored_redeclared :
    let header (name : String) : ParameterList :=
      [⟨name, .type, none, false, none, .synthesized⟩]
    let s := (Operation.endTemplate .synthesized).after
      ((Operation.declareClass "Box" .structKey .synthesized).after
        ((Operation.beginTemplate (header "T") .synthesized).after
          ((Operation.openNamespace "N" .synthesized).after (start .standard))))
    let u := (Operation.beginTemplate (header "U") .synthesized).after s
    let v := (Operation.declareClass "Box" .structKey .synthesized).after u
    s.current = ⟨1⟩ ∧ u.current = ⟨3⟩ ∧ v.current = ⟨2⟩ ∧
      exec (endTemplate .synthesized) v = (.ok ⟨2⟩, { v with current := ⟨1⟩ }) := by
  intro header s u v
  have hs : (start .standard).Run s :=
    (((Run.refl.step _ .of_handles_nil).step _ .of_handles_nil).step _ .of_handles_nil).step _
      .of_handles_nil
  have hcurrent : s.current = ⟨1⟩ := by decide +kernel
  have hinside : v.current = ⟨2⟩ := by decide +kernel
  have hopens := (cursor_restored hs).2 (header "U") .synthesized
    .of_handles_nil ⟨3⟩ (toOption_eq_some.mp (by decide +kernel))
  obtain ⟨_, _, hend⟩ := hopens.returns u .refl hopens.current hopens.isOpen _ _ ⟨2⟩
    (.declareClass "Box" .structKey .synthesized) .of_handles_nil
    (toOption_eq_some.mp (by decide +kernel)) v .refl rfl
  exact ⟨hcurrent, hopens.current, hinside, hcurrent ▸ hend .synthesized⟩

end Session

end TemplateAnalysis
