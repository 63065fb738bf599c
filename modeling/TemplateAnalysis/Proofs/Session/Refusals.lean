import TemplateAnalysis.Proofs.Session.Arena
import TemplateAnalysis.Proofs.Session.ParameterLists
import TemplateAnalysis.Proofs.Session.Reports

/-!
# What is refused

The table checks that its own links are in order where a name is declared or a scope is asked
for. They are in order after every operation: a scope that is no root has one around it, and a
symbol of a kind that comes with a scope has it. So what is declared, completed or opened is
refused for what the program says only, whatever came before and also if that failed.
-/

namespace TemplateAnalysis

open Session Analysis

variable {α β : Type} {s u : Session} {faults : Faults}

/-! ### Sessions in order -/

structure Session.InOrder (s : Session) : Prop where
  closed : s.Closed
  arena : s.table.Arena
  hasScopes : s.table.Scoped
  owned : s.table.Owned
  placed : s.table.Placed

namespace Session.InOrder

theorem of_run {config : Config} (h : (start config).Run s) : s.InOrder :=
  ⟨h.closed, h.arena, h.scoped, h.owned, h.placed⟩

theorem change {role : Role} (hs : s.InOrder) (h : s.Change role u) : u.InOrder :=
  ⟨h.closed hs.closed, hs.arena.steps (h.steps hs.closed hs.arena), h.scoped hs.closed hs.hasScopes,
    h.owned hs.closed hs.owned, h.placed hs.closed hs.placed⟩

theorem changes (hs : s.InOrder) (h : s.Changes u) : u.InOrder := by
  induction h with
  | refl => exact hs
  | tail _ hlast ih =>
    obtain ⟨role, hchange⟩ := hlast
    exact ih.change hchange

theorem leads {x : Analysis α} {post : α → Session → Prop} (hs : s.InOrder)
    (h : Leads s x post) : (exec x s).2.InOrder := hs.changes h.changes

theorem exists_scope (hs : s.InOrder) {id : SymbolId} (hid : s.table.HasSymbol id)
    {kind : SymbolKind} (hkind : (s.table.symbol id).kind = kind) (hscope : kind.hasScope = true) :
    ∃ own, (s.table.symbol id).scope = some own := hs.hasScopes id hid (hkind ▸ hscope)

theorem exists_enclosing (hs : s.InOrder) {scope : ScopeId} (hscope : s.table.IsHeader scope) :
    ∃ around, (s.table.scope scope).enclosing = some around := by
  have hhas : s.table.HasScope scope := by
    by_contra hnot
    rw [SymbolTable.IsHeader, SymbolTable.scope_eq_default hnot] at hscope
    cases hscope
  exact hs.arena.enclosed scope hhas fun h => hs.placed.global_root.1 (h ▸ hscope)

end Session.InOrder

/-! ### Declarations of the table -/

namespace SymbolTable

variable {t : SymbolTable}

theorem failsOnly_declareEntity (t : SymbolTable) (scope : ScopeId) (name : String)
    {kind : SymbolKind} (accepted : KindSet) (span : Span) {entity : Entity}
    (hkind : entity.kind = kind) (hfunction : kind ≠ .function) (htemplate : kind ≠ .template) :
    FailsOnly (t.declareEntity scope name kind accepted span entity) Diagnostic.IsExternal := by
  rw [declareEntity, if_neg hfunction, if_neg htemplate]
  split
  · dsimp only
    split
    · exact .ok _
    · exact .error rfl
  · rw [if_neg (not_not.mpr hkind)]
    exact .ok _

theorem failsOnly_redeclaredTemplate {existing : SymbolId} (name : String) (kind : SymbolKind)
    (span : Span) (hown : (t.symbol existing).kind = .template →
      ∃ own, (t.symbol existing).scope = some own) :
    FailsOnly (t.redeclaredTemplate existing name kind span) Diagnostic.IsExternal := by
  unfold redeclaredTemplate
  split
  · rename_i data hdata
    split
    · exact .error rfl
    · obtain ⟨own, hown⟩ := hown (congrArg Entity.kind hdata)
      rw [hown]
      exact .ok _
  · exact .error rfl

theorem failsOnly_findOverload (t : SymbolTable) (name : String) (type : TypeId)
    (signature : String) (span : Span) : ∀ ids : List SymbolId,
    FailsOnly (t.findOverload name type signature span ids) Diagnostic.IsExternal
  | [] => .ok none
  | id :: rest => by
    rw [findOverload]
    split
    · split
      · exact .ok _
      · split
        · exact .error rfl
        · exact t.failsOnly_findOverload name type signature span rest
    · exact .error rfl

theorem failsOnly_declareOverload (t : SymbolTable) (scope : ScopeId) (name : String)
    (type : TypeId) (signature : String) (keywords : KeywordSet) (span : Span) :
    FailsOnly (t.declareOverload scope name type signature keywords span)
      Diagnostic.IsExternal := by
  unfold declareOverload
  split
  · exact .error rfl
  · refine (t.failsOnly_findOverload name type signature span _).bind fun found _ => ?_
    cases found <;> exact .pure _

end SymbolTable

namespace Session.InOrder

/-- Behind a header a template is declared, or refused for what the program says. -/
theorem failsOnly_declareTemplate (hs : s.InOrder) (hopen : ¬ s.IsOutside) (name : String)
    (kind : SymbolKind) (span : Span) :
    FailsOnly ((SymbolTable.declareTemplate s.current name kind span).exec s.table).1
      Diagnostic.IsExternal := by
  obtain ⟨around, haround⟩ :=
    hs.exists_enclosing (SymbolTable.isOpenHeader_iff.mp (isOpenHeader_of_not_isOutside hopen)).1
  rw [SymbolTable.exec_declareTemplate, haround]
  split
  · exact .error rfl
  · rename_i heq
    cases heq
  · rename_i entity enclosing _ heq
    cases heq
    split
    · rename_i existing rest hnamed
      have hhas : s.table.HasSymbol existing :=
        hs.closed.linked.named_has (hnamed ▸ List.mem_cons_self)
      have hfound := SymbolTable.failsOnly_redeclaredTemplate name kind span fun hkind =>
        hs.exists_scope hhas hkind rfl
      rw [SymbolTable.exec_redeclareTemplate]
      split
      · exact .error (hfound _ ‹_›)
      · split
        · exact .error (ParameterList.failsOnly_merge _ _ _ _ _ ‹_›)
        · dsimp only
          split
          · exact .error (ParameterList.failsOnly_checkTrailingDefaults _ _ _ _ ‹_›)
          · exact .ok _
    · have hnew : FailsOnly (s.table.introduceTemplate s.current around name entity
          ((s.table.scope s.current).pending.getD []) span) Diagnostic.IsExternal :=
        (ParameterList.failsOnly_checkTrailingDefaults _ _ _).bind fun _ _ => .pure _
      split
      · exact .error (hnew _ ‹_›)
      · exact .ok _

end Session.InOrder

theorem reports_declare_outside (hs : s.IsOutside) (name : String) {kind : SymbolKind}
    (accepted : KindSet) (span : Span) {entity : Entity} (hkind : entity.kind = kind)
    (hfunction : kind ≠ .function) (htemplate : kind ≠ .template) :
    Reports faults s (onTable (SymbolTable.declare s.current name kind accepted span entity)) := by
  refine .onTable ?_
  have hentity := s.table.failsOnly_declareEntity s.current name accepted span hkind hfunction
    htemplate
  rw [SymbolTable.exec_declare, hs.isOpenHeader_eq, if_neg Bool.false_ne_true]
  split
  · exact .ok _
  · exact .error (hentity _ ‹_›)

theorem kind_of_declare {name : String} {kind : SymbolKind} {span : Span} {entity : Entity}
    {declared : Declared} (hkind : TemplatedEntity.ofKind? kind = none ∨ s.IsOutside)
    (h : (exec (onTable (SymbolTable.declare s.current name kind (.singleton kind) span entity))
      s).1 = .ok declared) :
    (((exec (onTable (SymbolTable.declare s.current name kind (.singleton kind) span entity))
      s).2.table.symbol declared.symbol).kind) = kind := by
  rw [exec_onTable, SymbolTable.exec_declare] at h ⊢
  by_cases hopen : (s.table.scope s.current).isOpenHeader = true
  · rw [if_pos hopen, SymbolTable.exec_declareTemplate,
      hkind.resolve_right (Bool.eq_false_iff.mp · hopen)] at h
    cases h
  · rw [if_neg hopen] at h ⊢
    split at h
    · rename_i hdeclare
      cases h
      exact kind_of_declareEntity hdeclare
    · cases h

/-! ### Scopes and templates -/

theorem reports_leaveScope {around : ScopeId}
    (haround : (s.table.scope s.current).enclosing = some around) (span : Span) :
    Reports faults s (leaveScope span) := by
  rw [leaveScope]
  refine .get_bind (.scope_bind ?_)
  rw [haround]
  exact .of_ok rfl

theorem reports_beginTemplate (parameters : ParameterList) (span : Span) :
    Reports faults s (beginTemplate parameters span) := by
  rw [beginTemplate]
  split
  · exact .throw_bind (by rfl)
  · refine .get_bind ?_
    dsimp only
    split
    · exact .throw_bind (by rfl)
    · exact .bind (.ofExcept parameters.failsOnly_validate) fun _ _ => .of_ok rfl

theorem reports_defineEntity (id : SymbolId) (span : Span) :
    Reports faults s (defineEntity id span) := by
  rw [defineEntity]
  refine .symbol_bind ?_
  split
  · exact .throw_bind (by rfl)
  · exact .modifyTable _

namespace Session.InOrder

theorem reports_declare (hs : s.InOrder) (name : String) {kind : SymbolKind} (accepted : KindSet)
    (span : Span) {entity : Entity} (hkind : entity.kind = kind) (hfunction : kind ≠ .function)
    (htemplate : kind ≠ .template) :
    Reports faults s (onTable (SymbolTable.declare s.current name kind accepted span entity)) := by
  by_cases hopen : s.IsOutside
  · exact reports_declare_outside hopen name accepted span hkind hfunction htemplate
  · refine .onTable ?_
    rw [SymbolTable.exec_declare, if_pos (isOpenHeader_of_not_isOutside hopen)]
    exact hs.failsOnly_declareTemplate hopen name kind span

theorem reports_openNamespace (hs : s.InOrder) (name : String) (span : Span) :
    Reports faults s (openNamespace name span) := by
  rw [openNamespace]
  have hleads : Leads s (onTable (SymbolTable.declare s.current name .nameSpace
      (.singleton .nameSpace) span .nameSpace)) fun declared u => declared.IsKnown _ .nameSpace u :=
    leads_declare hs.closed name .nameSpace span (fun _ _ _ => trivial) AllKnown.nil trivial
  refine .get_bind (.bind ?_ fun declared hdeclared => ?_)
  · exact hs.reports_declare name _ span rfl (by decide) (by decide)
  · obtain ⟨own, hown⟩ := (hs.leads hleads).exists_scope (hleads.result declared hdeclared).has
      (kind_of_declare (.inl rfl) hdeclared) rfl
    exact .ownScope_bind hown (.of_ok rfl)

theorem reports_closeNamespace (hs : s.InOrder) {span : Span}
    (hkind : (s.table.scope s.current).kind = .nameSpace) (hcurrent : s.current ≠ .global) :
    Reports faults s (closeNamespace span) := by
  obtain ⟨around, haround⟩ := hs.arena.enclosed s.current hs.closed.current_has hcurrent
  rw [closeNamespace]
  refine .get_bind (.scope_bind ?_)
  split
  · rename_i hclosed
    rw [hkind, haround] at hclosed
    exact absurd hclosed (by simp)
  · exact (reports_leaveScope haround span).discard

theorem reports_endTemplate (hs : s.InOrder) {span : Span} (hheader : s.table.IsHeader s.current)
    {id : SymbolId} (howner : (s.table.scope s.current).owner = some id) :
    Reports faults s (endTemplate span) := by
  obtain ⟨around, haround⟩ := hs.exists_enclosing hheader
  have hkind : ¬ (s.table.scope s.current).kind ≠ .templateHeader := not_not.mpr hheader
  rw [endTemplate]
  refine .get_bind (.scope_bind ?_)
  rw [if_neg hkind, howner]
  exact (reports_leaveScope haround span).map _

theorem reports_enterTemplate (hs : s.InOrder) {declared : Declared} {kind : SymbolKind}
    (hdeclared : declared.IsKnown true kind s) (entity : TemplatedEntity) (defines : Bool)
    (span : Span) : Reports faults s (enterTemplate declared entity defines span) := by
  obtain ⟨data, hdata, _⟩ := hdeclared.template rfl
  obtain ⟨own, hown⟩ := hs.exists_scope hdeclared.has (congrArg Entity.kind hdata) rfl
  rw [enterTemplate_eq]
  refine .ownScope_bind hown (.bind ?_ fun _ _ => .bind ?_ fun _ _ => .of_ok rfl)
  · split
    · exact .modifyTable _
    · exact .pure _
  · cases defines with
    | true => exact reports_defineEntity declared.symbol span
    | false => exact .pure _

theorem reports_declareHeaderEntity (hs : s.InOrder) (hopen : ¬ s.IsOutside) (name : String)
    (entity : TemplatedEntity) (defines : Bool) (span : Span) :
    Reports faults s (declareHeaderEntity name entity.kind entity defines span) := by
  rw [declareHeaderEntity]
  have hleads := leads_declareTemplate hs.closed (isOpenHeader_of_not_isOutside hopen) name
    entity.kind span
  refine .get_bind (.bind (.onTable ?_) fun declared hdeclared => ?_)
  · exact hs.failsOnly_declareTemplate hopen name entity.kind span
  · exact ((hs.leads hleads).reports_enterTemplate (hleads.result declared hdeclared) entity defines
      span).map _

theorem reports_behind (hs : s.InOrder) (hopen : ¬ s.IsOutside) {op : Operation}
    {x : Analysis SymbolId} (h : op.IsDeclaration x) : Reports faults s x := by
  rcases h.exec_behind hopen with ⟨d, hd, heq⟩ | ⟨name, entity, defines, span, heq⟩
  · exact .of_error heq hd
  · exact .congr heq (hs.reports_declareHeaderEntity hopen name entity defines span)

end Session.InOrder

/-! ### Declarations outside of headers -/

theorem Reports.inHeader_bind {f : Bool → Analysis β} (hs : s.IsOutside)
    (h : Reports faults s (f false)) : Reports faults s (inHeader >>= f) :=
  .congr (hs.exec_inHeader_bind f) h

theorem reports_declareTypedef (hs : s.IsOutside) (name : String) (specifiers : Specifiers)
    (declarator : Declarator) (span : Span) :
    Reports .ofResolution s (declareTypedef name specifiers declarator span) := by
  rw [declareTypedef]
  refine .inHeader_bind hs ?_
  rw [if_neg Bool.false_ne_true]
  refine .bind (reports_resolveType s specifiers declarator span) fun target _ => .get_bind ?_
  have hu := (leavesHeaders_resolveType specifiers declarator span).isOutside hs
  refine .bind (reports_declare_outside hu name _ span rfl (by decide) (by decide))
    fun declared _ => .symbol_bind ?_
  split
  · exact .pure _
  · split
    · exact .pure _
    · exact .throw rfl
  · exact .throw rfl

theorem reports_declareFunction (name : String) (specifiers : Specifiers) (declarator : Declarator)
    (span : Span) : Reports .ofResolution s (declareFunction name specifiers declarator span) := by
  rw [declareFunction]
  refine .congr (exec_inHeader_bind _) ?_
  split
  · exact .throw_bind (by rfl)
  · refine .bind (reports_resolveType s specifiers declarator span) fun type _ => .get_bind ?_
    split
    · exact .throw rfl
    · exact .bind (.ofExcept (SymbolTable.failsOnly_declareOverload _ _ _ _ _ _ _))
        fun _ _ => .of_ok rfl

theorem failsOnly_initialValue (t : SymbolTable) (type? : Option Primitive) (initializer : Node) :
    FailsOnly (initialValue t type? initializer) Diagnostic.IsExternal := by
  unfold initialValue
  refine (failsOnly_evaluate _ initializer).bind fun value _ => ?_
  cases type? with
  | none => exact .pure _
  | some type => exact failsOnly_convert value type initializer.span

theorem reports_constantValue (type : TypeId) (keywords : KeywordSet)
    (initializer : Option Node) : Reports faults s (constantValue type keywords initializer) := by
  rw [constantValue]
  refine .get_bind ?_
  cases initializer with
  | none => exact .pure _
  | some expression =>
    dsimp only
    split
    · exact .map (.ofExcept (failsOnly_initialValue _ _ expression)) _
    · split
      · exact .pure _
      · exact .pure _

theorem reports_redeclareObject {id : SymbolId} (hid : (s.table.symbol id).kind = .object)
    (name : String) (type : TypeId) (value : Option Constant) (span : Span) :
    Reports faults s (redeclareObject id name type value span) := by
  rw [redeclareObject]
  refine .symbol_bind ?_
  obtain ⟨existing, hentity⟩ := Entity.object_of_kind hid
  rw [hentity]
  dsimp only
  split
  · exact .throw_bind (by rfl)
  · exact .modifyTable _

theorem reports_settleObject {declared : Declared}
    (hdeclared : (s.table.symbol declared.symbol).kind = .object) (name : String) (type : TypeId)
    (value : Option Constant) (defines : Bool) (span : Span) :
    Reports faults s (settleObject declared name type value defines span) := by
  rw [settleObject]
  have hdefine : ∀ u : Session, Reports faults u (do
      if defines then modifyTable (·.markDefined declared.symbol)
      return declared.symbol) := by
    intro u
    split
    · exact .of_ok rfl
    · exact .pure _
  dsimp only
  split
  · exact .bind (reports_redeclareObject hdeclared name type value span) fun _ _ => hdefine _
  · exact hdefine s

theorem reports_introduceObject (hs : s.IsOutside) (name : String) (type : TypeId)
    (keywords : KeywordSet) (initializer : Option Node) (span : Span) :
    Reports faults s (introduceObject name type keywords initializer span) := by
  rw [introduceObject]
  refine .bind (reports_constantValue _ _ _) fun value _ => .get_bind ?_
  have hu := (leavesHeaders_constantValue type keywords initializer).isOutside hs
  exact .bind (reports_declare_outside hu name _ span rfl (by decide) (by decide))
    fun declared hdeclared =>
      reports_settleObject (kind_of_declare (.inr hu) hdeclared) name type value _ span

theorem reports_declareObject (hs : s.IsOutside) (name : String) (specifiers : Specifiers)
    (declarator : Declarator) (initializer : Option Node) (span : Span) :
    Reports .ofResolution s (declareObject name specifiers declarator initializer span) := by
  rw [declareObject_eq]
  refine .inHeader_bind hs ?_
  rw [if_neg Bool.false_ne_true]
  refine .bind (reports_resolveType s specifiers declarator span) fun type _ => .get_bind ?_
  have hu := (leavesHeaders_resolveType specifiers declarator span).isOutside hs
  split
  · exact reports_declareFunction name specifiers declarator span
  · exact reports_introduceObject hu name type _ initializer span

theorem reports_declareSimple (hs : s.IsOutside) (specifiers : Specifiers)
    (declarator : Declarator) (initializer : Option Node) (span : Span) :
    Reports .ofResolution s (declareSimple specifiers declarator initializer span) := by
  rw [declareSimple]
  split
  · exact .throw rfl
  · split
    · exact reports_declareTypedef hs _ _ declarator span
    · split
      · exact reports_declareFunction _ specifiers declarator span
      · exact reports_declareObject hs _ specifiers declarator initializer span

theorem reports_declareClass (hs : s.IsOutside) (name : String) (key : ClassKey) (span : Span) :
    Reports faults s (declareClass name key span) := by
  rw [declareClass]
  refine .inHeader_bind hs (.get_bind (.bind ?_ fun _ _ => .pure _))
  exact reports_declare_outside hs name _ span rfl (by decide) (by decide)

theorem reports_checkStaticAssert (assertion : StaticAssert) :
    Reports faults s (checkStaticAssert assertion) := by
  rw [checkStaticAssert]
  refine .bind (.evaluate _) fun value _ => ?_
  split
  · exact .throw rfl
  · exact .pure _

/-! ### Enums -/

theorem failsOnly_convertEnumerator (site : EnumSite) (value : Constant) (span : Span) :
    FailsOnly (site.convert value span) Diagnostic.IsExternal := by
  unfold EnumSite.convert
  split
  · exact failsOnly_convert value _ span
  · split
    · exact .ok _
    · exact .error rfl

theorem reports_declareEnumerators (site : EnumSite) :
    ∀ (enumerators : List EnumeratorSpecifier) (next : Constant) {s : Session},
      Reports faults s (declareEnumerators site next enumerators)
  | [], _, _ => .pure _
  | ⟨name, value, span⟩ :: rest, next, s => by
    rw [declareEnumerators]
    refine .get_bind ?_
    have hgiven : Reports faults s ((value.map Analysis.evaluate).getD (return next)) := by
      cases value with
      | none => exact .pure _
      | some expression => exact .evaluate expression
    split
    · exact .throw_bind (by rfl)
    · exact .bind hgiven fun _ _ => .bind (.ofExcept (failsOnly_convertEnumerator site _ span))
        fun _ _ => .bind (.ofExcept (.mapError fun _ => rfl)) fun _ _ => .bind (.of_ok rfl)
          fun _ _ => .map (reports_declareEnumerators site rest _) _

theorem Session.InOrder.reports_declareEnum (hs : s.InOrder) (name : String) (isScoped : Bool)
    (underlying : Option TypeId) (span : Span) :
    Reports faults s (declareEnum name isScoped underlying span) := by
  rw [declareEnum]
  refine .get_bind (.bind ?_ fun _ _ => .pure _)
  exact hs.reports_declare name _ span rfl (by decide) (by decide)

theorem Session.InOrder.reports_defineEnum (hs : s.InOrder) {id : SymbolId}
    (hid : s.table.HasSymbol id) (enumerators : List EnumeratorSpecifier) (span : Span) :
    Reports faults s (defineEnum id enumerators span) := by
  rw [defineEnum]
  refine .symbol_bind ?_
  cases hentity : (s.table.symbol id).entity with
  | enumeration data =>
    obtain ⟨own, hown⟩ := hs.exists_scope hid (congrArg Entity.kind hentity) rfl
    dsimp only
    split
    · exact .throw_bind (by rfl)
    · exact .ownScope_bind hown (.get_bind (.bind (reports_declareEnumerators _ enumerators _)
        fun _ _ => .modifyTable _))
  | _ => exact .throw (by rfl)

/-! ### Classes -/

theorem reports_declareMemberEntity (hs : s.IsOutside) (member : Member) :
    Reports .ofResolution s (declareMemberEntity member) := by
  rw [declareMemberEntity]
  split
  · exact .throw_bind (by rfl)
  · exact (reports_declareSimple hs _ _ _ _).discard

theorem isExternal_of_completionFault? {target : Symbol} {cause : Cause}
    (h : completionFault? target = some cause) (span : Span) :
    Diagnostic.IsExternal ⟨cause, span⟩ := by
  unfold completionFault? at h
  split at h
  · split at h
    · cases h
      rfl
    · cases h
  · split at h
    · cases h
      rfl
    · cases h
  · cases h
    rfl

mutual

/-- A class that is completed has a scope for its members, which is no header. -/
theorem reports_defineClass : ∀ (specifier : ClassSpecifier) {s : Session} {id : SymbolId},
    s.InOrder → s.table.HasSymbol id → AllKnown s.Known specifier.handles →
    Reports .ofResolution s (defineClass id specifier)
  | ⟨key, name, bases, members, span⟩, s, id, hs, hid, h => by
    rw [defineClass]
    refine .symbol_bind ?_
    cases hfault : completionFault? (s.table.symbol id) with
    | some cause => exact .throw (isExternal_of_completionFault? hfault span)
    | none =>
      rcases completionFault?_eq_none hfault with ⟨data, hdata, _⟩ | ⟨data, hdata, hundefined⟩
      · rw [hdata]
        exact .modifyTable _
      · have hbases := leads_registerBases (steady_instantiate _) hs.closed
          ⟨hid, hdata, hundefined⟩ h.left
        have hu := hs.leads hbases
        have hgrows := (hbases.changes.preserves hs.closed).2
        obtain ⟨own, hown⟩ := hu.exists_scope (hgrows.table.hasSymbol id hid)
          ((hgrows.table.symbol id hid).kind_eq.trans (congrArg Entity.kind hdata)) rfl
        rw [hdata]
        refine .bind (.forM fun base _ u => reports_registerBase u id base) fun _ _ =>
          .ownScope_bind hown (.bind (.inScope ?_) fun _ _ => .modifyTable _)
        exact reports_declareMembers members
          (hu.change (.enter own (hu.closed.linked.symbol_scope_has id own hown)))
          (hu.owned.ownsNoOpenHeader id own hown) (hgrows.allKnown h.right)
termination_by structural specifier => specifier

theorem reports_declareMembers : ∀ (members : List Node) {s : Session}, s.InOrder → s.IsOutside →
    AllKnown s.Known (handlesOfNodes members) →
    Reports .ofResolution s (declareMembers members)
  | [], s, _, _, _ => by
    rw [declareMembers]
    exact .pure _
  | member :: rest, s, hs, hout, h => by
    have hleads := leads_declareMember member hs.closed h.left
    have hgrows := (hleads.changes.preserves hs.closed).2
    have hkeeps := leavesHeaders_declareMember member hout hs.owned.ownsNoOpenHeader
    rw [declareMembers]
    exact .bind (reports_declareMember member hs hout h.left) fun _ _ =>
      reports_declareMembers rest (hs.leads hleads) (hkeeps.isOutside hout)
        (hgrows.allKnown h.right)
termination_by structural members => members

theorem reports_declareMember : ∀ (member : Node) {s : Session}, s.InOrder → s.IsOutside →
    AllKnown s.Known member.handles → Reports .ofResolution s (declareMember member)
  | .member declaration, s, _, hout, _ => by
    rw [declareMember]
    exact reports_declareMemberEntity hout declaration
  | .staticAssert assertion, s, _, _, _ => by
    rw [declareMember]
    exact reports_checkStaticAssert assertion
  | .classBody specifier, s, hs, hout, h => by
    have hleads := leads_declareClass hs.closed specifier.name specifier.key specifier.span
    have hgrows := (hleads.changes.preserves hs.closed).2
    rw [declareMember]
    exact .bind (reports_declareClass hout _ _ _) fun id hid =>
      reports_defineClass specifier (hs.leads hleads) (hleads.result id hid) (hgrows.allKnown h)
  | .name _ _ _, _, _, _, _ | .paren _ _, _, _, _, _ | .literal _ _, _, _, _, _
  | .typeParameter _ _ _, _, _, _, _ | .valueParameter _ _ _, _, _, _, _
  | .unary _ _ _, _, _, _, _ | .binary _ _ _ _, _, _, _, _ | .conditional _ _ _ _, _, _, _, _
  | .typeId _ _ _, _, _, _, _ | .resolvedType _ _ _, _, _, _, _ | .templateId _ _ _ _, _, _, _, _
  | .packExpansion _ _, _, _, _, _ | .base _, _, _, _, _ => .throw (by rfl)
termination_by structural member => member

end

end TemplateAnalysis
