import TemplateAnalysis.Proofs.Diagnostic
import TemplateAnalysis.Proofs.Session.Headers
import TemplateAnalysis.Proofs.Session.Runs

/-!
# Where templates are declared

Templates are declared, and get other parameters, only by a declaration behind a header that
is open. Everything else leaves them and the headers alone, whether or not it succeeds. A
class body is declared in the scope of the class, which is no open header.
-/

namespace TemplateAnalysis

open Session Analysis

variable {α β : Type} {s : Session}

/-! ### Declarations that do not go into an open header -/

theorem LeavesHeaders.ownScope_bind {id : SymbolId} {span : Span} {f : ScopeId → Analysis β}
    (h : ∀ own, (s.table.symbol id).scope = some own → LeavesHeaders s (f own)) :
    LeavesHeaders s (ownScope id span >>= f) := by
  rw [ownScope, bind_assoc]
  refine .symbol_bind ?_
  cases hown : (s.table.symbol id).scope with
  | none => exact .throw_bind _ _
  | some own => exact h own hown

/-- A declaration behind an open header fails if there are no templates of its kind. -/
theorem keepsHeaders_declare {t : SymbolTable} {scope : ScopeId} (name : String)
    {kind : SymbolKind} (accepted : KindSet) (span : Span) {entity : Entity}
    (h : (t.scope scope).isOpenHeader = false ∨ TemplatedEntity.ofKind? kind = none)
    (hentity : entity.IsPlain) :
    t.KeepsHeaders ((SymbolTable.declare scope name kind accepted span entity).exec t).2 := by
  rw [SymbolTable.exec_declare]
  split
  · rename_i hopen
    have hnone := h.resolve_left (by simp [hopen])
    rw [SymbolTable.exec_declareTemplate, hnone]
    exact .refl t
  · split
    · exact .declareEntity hentity ‹_›
    · exact .refl t

theorem leavesHeaders_declareTypedef (hs : s.IsOutside) (name : String) (specifiers : Specifiers)
    (declarator : Declarator) (span : Span) :
    LeavesHeaders s (declareTypedef name specifiers declarator span) := by
  rw [declareTypedef]
  refine .congr (congrArg Prod.snd (hs.exec_inHeader_bind _)) ?_ (.refl s)
  rw [if_neg Bool.false_ne_true]
  refine .bind (leavesHeaders_resolveType _ _ _) fun target u hu =>
    .get_bind ?_
  refine .bind (.onTable (keepsHeaders_declare name _ span (.inl (hu.isOutside hs)) ⟨rfl, rfl⟩))
    fun declared v _ => .symbol_bind ?_
  split
  · exact .pure _
  · split
    · exact .pure _
    · exact .throw _
  · exact .throw _

theorem leavesHeaders_declareFunction (name : String) (specifiers : Specifiers)
    (declarator : Declarator) (span : Span) :
    LeavesHeaders s (declareFunction name specifiers declarator span) := by
  rw [declareFunction]
  refine .congr (congrArg Prod.snd (exec_inHeader_bind _)) ?_ (.refl s)
  split
  · exact .throw_bind _ _
  · refine .bind (leavesHeaders_resolveType _ _ _) fun type u _ =>
      .get_bind ?_
    split
    · exact .throw _
    · rename_i signature _
      cases hdeclare : u.table.declareOverload u.current name type signature specifiers.keywords
          span with
      | error d => exact .of_exec rfl (.refl u)
      | ok result => exact .of_exec rfl ⟨.declareOverload hdeclare, rfl⟩

theorem leavesHeaders_constantValue (type : TypeId) (keywords : KeywordSet)
    (initializer : Option Node) : LeavesHeaders s (constantValue type keywords initializer) := by
  rw [constantValue]
  refine .get_bind ?_
  cases initializer with
  | none => exact .pure _
  | some expression =>
    dsimp only
    split
    · exact .bind (.ofExcept _) fun _ _ _ => .pure _
    · split
      · exact .pure _
      · exact .pure _

theorem leavesHeaders_redeclareObject (id : SymbolId) (name : String) (type : TypeId)
    (value : Option Constant) (span : Span) :
    LeavesHeaders s (redeclareObject id name type value span) := by
  rw [redeclareObject]
  refine .symbol_bind ?_
  cases hentity : (s.table.symbol id).entity with
  | object existing =>
    dsimp only
    split
    · exact .throw_bind _ _
    · refine .modifyTable (.modifySymbol ⟨rfl, ?_, ?_⟩)
      · simp [Symbol.heading?, hentity, Entity.template?]
      · simp [hentity, Entity.parameter?]
  | _ => exact .throw _

theorem leavesHeaders_settleObject (declared : Declared) (name : String) (type : TypeId)
    (value : Option Constant) (defines : Bool) (span : Span) :
    LeavesHeaders s (settleObject declared name type value defines span) := by
  rw [settleObject]
  have hdefine : ∀ u : Session, LeavesHeaders u (do
      if defines then modifyTable (·.markDefined declared.symbol)
      return declared.symbol) := by
    intro u
    split
    · exact .bind (.modifyTable (.markDefined _ _)) fun _ _ _ => .pure _
    · exact .pure _
  dsimp only
  split
  · exact .bind (leavesHeaders_redeclareObject _ name type value span) fun _ u _ => hdefine u
  · exact hdefine s

theorem leavesHeaders_introduceObject (hs : s.IsOutside) (name : String) (type : TypeId)
    (keywords : KeywordSet) (initializer : Option Node) (span : Span) :
    LeavesHeaders s (introduceObject name type keywords initializer span) := by
  rw [introduceObject]
  refine .bind (leavesHeaders_constantValue _ _ _) fun value u hu => .get_bind ?_
  exact .bind (.onTable (keepsHeaders_declare name _ span (.inl (hu.isOutside hs)) ⟨rfl, rfl⟩))
    fun declared _ _ => leavesHeaders_settleObject declared name type value _ span

theorem leavesHeaders_declareObject (hs : s.IsOutside) (name : String) (specifiers : Specifiers)
    (declarator : Declarator) (initializer : Option Node) (span : Span) :
    LeavesHeaders s (declareObject name specifiers declarator initializer span) := by
  rw [declareObject_eq]
  refine .congr (congrArg Prod.snd (hs.exec_inHeader_bind _)) ?_ (.refl s)
  rw [if_neg Bool.false_ne_true]
  refine .bind (leavesHeaders_resolveType _ _ _) fun type u hu =>
    .get_bind ?_
  split
  · exact leavesHeaders_declareFunction name specifiers declarator span
  · exact leavesHeaders_introduceObject (hu.isOutside hs) name type _ initializer span

theorem leavesHeaders_declareSimple (hs : s.IsOutside) (specifiers : Specifiers)
    (declarator : Declarator) (initializer : Option Node) (span : Span) :
    LeavesHeaders s (declareSimple specifiers declarator initializer span) := by
  rw [declareSimple]
  split
  · exact .throw _
  · split
    · exact leavesHeaders_declareTypedef hs _ _ declarator span
    · split
      · exact leavesHeaders_declareFunction _ specifiers declarator span
      · exact leavesHeaders_declareObject hs _ specifiers declarator initializer span

theorem leavesHeaders_checkStaticAssert (assertion : StaticAssert) :
    LeavesHeaders s (checkStaticAssert assertion) := by
  rw [checkStaticAssert]
  refine .bind (.evaluate _) fun value u _ => ?_
  split
  · exact .throw _
  · exact .pure _

theorem leavesHeaders_declareEnum (name : String) (isScoped : Bool) (underlying : Option TypeId)
    (span : Span) : LeavesHeaders s (declareEnum name isScoped underlying span) := by
  rw [declareEnum]
  exact .get_bind (.bind (.onTable (keepsHeaders_declare name _ span (.inr rfl) ⟨rfl, rfl⟩))
    fun _ _ _ => .pure _)

theorem leavesHeaders_declareEnumerators (site : EnumSite) :
    ∀ (enumerators : List EnumeratorSpecifier) (next : Constant) {s : Session},
      LeavesHeaders s (declareEnumerators site next enumerators)
  | [], _, _ => .pure _
  | ⟨name, value, span⟩ :: rest, next, s => by
    rw [declareEnumerators]
    refine .get_bind ?_
    have hgiven : ∀ u, LeavesHeaders u ((value.map Analysis.evaluate).getD (return next)) := by
      intro u
      cases value with
      | none => exact .pure _
      | some expression => exact .evaluate expression
    split
    · exact .throw_bind _ _
    · exact .bind (hgiven s) fun _ _ _ => .bind (.ofExcept _) fun _ _ _ =>
        .bind (.ofExcept _) fun _ _ _ =>
          .bind (.changeTable (.insertEnumerator _ site name _ span)) fun _ _ _ =>
            .bind (leavesHeaders_declareEnumerators site rest _) fun _ _ _ => .pure _

theorem leavesHeaders_defineEnum (id : SymbolId) (enumerators : List EnumeratorSpecifier)
    (span : Span) : LeavesHeaders s (defineEnum id enumerators span) := by
  rw [defineEnum]
  refine .symbol_bind ?_
  split
  · by_cases hdefined : (s.table.symbol id).isDefined = true
    · simp only [if_pos hdefined]
      exact .throw_bind _ _
    · simp only [if_neg hdefined]
      exact .ownScope_bind fun _ _ => .get_bind
        (.bind (leavesHeaders_declareEnumerators _ enumerators _) fun _ u _ =>
          .modifyTable (.trans (.modifyEnum u.table id _) (.markDefined _ id)))
  · exact .throw _

theorem leavesHeaders_declareClass (hs : s.IsOutside) (name : String) (key : ClassKey)
    (span : Span) : LeavesHeaders s (declareClass name key span) := by
  rw [declareClass]
  refine .congr (congrArg Prod.snd (hs.exec_inHeader_bind _)) ?_ (.refl s)
  exact .get_bind (.bind (.onTable (keepsHeaders_declare name _ span (.inl hs) ⟨rfl, rfl⟩))
    fun _ _ _ => .pure _)

theorem leavesHeaders_declareMemberEntity (hs : s.IsOutside) (member : Member) :
    LeavesHeaders s (declareMemberEntity member) := by
  rw [declareMemberEntity]
  split
  · exact .throw_bind _ _
  · exact .bind (leavesHeaders_declareSimple hs _ _ _ _) fun _ _ _ => .pure _

mutual

theorem leavesHeaders_defineClass : ∀ (specifier : ClassSpecifier) (id : SymbolId) {s : Session},
    s.table.OwnsNoOpenHeader → LeavesHeaders s (defineClass id specifier)
  | ⟨key, name, bases, members, span⟩, id, s, howns => by
    rw [defineClass]
    refine .symbol_bind ?_
    split
    · exact .throw _
    · split
      · exact .modifyTable (.modifyTemplate _ id fun _ => rfl)
      · refine .bind (.forM fun base _ _ =>
          leavesHeaders_registerBase id base) fun _ u hu => ?_
        have howns := hu.table.ownsNoOpenHeader howns
        refine .ownScope_bind fun own hown => ?_
        exact .bind (.inScope (leavesHeaders_declareMembers members (howns id own hown) howns))
          fun _ v _ => .modifyTable (.trans (.modifyClass v.table id _) (.markDefined _ id))
termination_by structural specifier => specifier

theorem leavesHeaders_declareMembers : ∀ (members : List Node) {s : Session}, s.IsOutside →
    s.table.OwnsNoOpenHeader → LeavesHeaders s (declareMembers members)
  | [], s, _, _ => by
    rw [declareMembers]
    exact .pure _
  | member :: rest, s, hs, howns => by
    rw [declareMembers]
    exact .bind (leavesHeaders_declareMember member hs howns) fun _ u hu =>
      leavesHeaders_declareMembers rest (hu.isOutside hs) (hu.table.ownsNoOpenHeader howns)
termination_by structural members => members

theorem leavesHeaders_declareMember : ∀ (member : Node) {s : Session}, s.IsOutside →
    s.table.OwnsNoOpenHeader → LeavesHeaders s (declareMember member)
  | .member declaration, s, hs, _ => by
    rw [declareMember]
    exact leavesHeaders_declareMemberEntity hs declaration
  | .staticAssert assertion, s, _, _ => by
    rw [declareMember]
    exact leavesHeaders_checkStaticAssert assertion
  | .classBody specifier, s, hs, howns => by
    rw [declareMember]
    exact .bind (leavesHeaders_declareClass hs _ _ _) fun id u hu =>
      leavesHeaders_defineClass specifier id (hu.table.ownsNoOpenHeader howns)
  | .name _ _ _, _, _, _ | .paren _ _, _, _, _ | .literal _ _, _, _, _
  | .typeParameter _ _ _, _, _, _ | .valueParameter _ _ _, _, _, _ | .unary _ _ _, _, _, _
  | .binary _ _ _ _, _, _, _ | .conditional _ _ _ _, _, _, _ | .typeId _ _ _, _, _, _
  | .resolvedType _ _ _, _, _, _ | .templateId _ _ _ _, _, _, _ | .packExpansion _ _, _, _, _
  | .base _, _, _, _ => .throw _
termination_by structural member => member

end

/-! ### Scopes that are opened and closed -/

theorem leavesTemplates_leaveScope (span : Span) : LeavesTemplates s (leaveScope span) := by
  rw [leaveScope]
  refine .get_bind (.scope_bind ?_)
  split
  · exact .refl _
  · exact .bind (.enterScope _) fun _ _ => .refl _

theorem leavesTemplates_openNamespace (name : String) (span : Span) :
    LeavesTemplates s (openNamespace name span) := by
  rw [openNamespace]
  have hdeclare : LeavesHeaders s (onTable (SymbolTable.declare s.current name .nameSpace
      (.singleton .nameSpace) span .nameSpace)) :=
    .onTable (keepsHeaders_declare name _ span (.inr rfl) ⟨rfl, rfl⟩)
  exact .get_bind (.bind hdeclare.table fun declared u => .ownScope_bind fun own =>
    .bind (.enterScope own) fun _ _ => .refl _)

theorem leavesTemplates_closeNamespace (span : Span) :
    LeavesTemplates s (closeNamespace span) := by
  rw [closeNamespace]
  refine .get_bind (.scope_bind ?_)
  split
  · exact (LeavesHeaders.throw_bind _ _).table
  · exact .bind (leavesTemplates_leaveScope span) fun _ _ => .refl _

theorem leavesTemplates_endTemplate (span : Span) : LeavesTemplates s (endTemplate span) := by
  rw [endTemplate]
  refine .get_bind (.scope_bind ?_)
  by_cases hkind : (s.table.scope s.current).kind ≠ .templateHeader
  · rw [if_pos hkind]
    exact (LeavesHeaders.throw_bind _ _).table
  · rw [if_neg hkind]
    split
    · exact .refl _
    · exact .bind (leavesTemplates_leaveScope span) fun _ _ => .refl _

theorem leavesTemplates_modifyTemplate (id : SymbolId) {f : TemplateData → TemplateData}
    (hf : ∀ data, (f data).parameters = data.parameters) :
    LeavesTemplates s (modifyTable (·.modifyTemplate id f)) := .modifyTemplate s.table id hf

theorem leavesTemplates_defineEntity (id : SymbolId) (span : Span) :
    LeavesTemplates s (defineEntity id span) := by
  rw [defineEntity]
  refine .symbol_bind ?_
  split
  · exact (LeavesHeaders.throw_bind _ _).table
  · exact leavesTemplates_modifyTemplate id fun _ => rfl

theorem leavesTemplates_enterTemplate (declared : Declared) (entity : TemplatedEntity)
    (defines : Bool) (span : Span) :
    LeavesTemplates s (enterTemplate declared entity defines span) := by
  rw [enterTemplate_eq]
  refine .ownScope_bind fun own => .bind ?_ fun _ u => .bind ?_ fun _ _ => .enterScope own
  · split
    · exact leavesTemplates_modifyTemplate declared.symbol fun _ => rfl
    · exact .refl _
  · split
    · exact leavesTemplates_defineEntity declared.symbol span
    · exact .refl _

/-! ### Declarations behind an open header -/

/-- A step declares a template behind the current header. It fails as that does, and does
nothing else to template headers. -/
structure DeclaresTemplate (s : Session) (x : Analysis α) (name : String) (kind : SymbolKind)
    (span : Span) : Prop where
  table : ((SymbolTable.declareTemplate s.current name kind span).exec s.table).2.KeepsHeaders
    (exec x s).2.table
  error : ∀ d, ((SymbolTable.declareTemplate s.current name kind span).exec s.table).1 = .error d →
    (exec x s).1 = .error d

namespace DeclaresTemplate

variable {name : String} {kind : SymbolKind} {span : Span}

theorem congr {x y : Analysis α} (h : exec x s = exec y s)
    (hy : DeclaresTemplate s y name kind span) : DeclaresTemplate s x name kind span :=
  ⟨h ▸ hy.table, h ▸ hy.error⟩

theorem bind {f : Declared → Analysis β} (hf : ∀ declared u, LeavesTemplates u (f declared)) :
    DeclaresTemplate s (onTable (SymbolTable.declareTemplate s.current name kind span) >>= f)
      name kind span := by
  have hexec := exec_onTable s (SymbolTable.declareTemplate s.current name kind span)
  refine ⟨?_, fun d hd => ?_⟩
  · rcases exec_bind_cases (onTable (SymbolTable.declareTemplate s.current name kind span)) f s
      with h | ⟨declared, _, h⟩
    · rw [h, hexec]
      exact .refl _
    · rw [h]
      exact hf declared (exec (onTable _) s).2
  · exact congrArg Prod.fst (exec_bind_error (x := onTable _) hd f)

end DeclaresTemplate

theorem declaresTemplate_declareHeaderEntity (name : String) (kind : SymbolKind)
    (entity : TemplatedEntity) (defines : Bool) (span : Span) :
    DeclaresTemplate s (declareHeaderEntity name kind entity defines span) name kind span := by
  refine .congr (exec_get_bind s _) (.bind fun declared u => ?_)
  exact .bind (leavesTemplates_enterTemplate declared entity defines span) fun _ _ => .refl _

theorem Session.isOpenHeader_of_not_isOutside (hopen : ¬ s.IsOutside) :
    (s.table.scope s.current).isOpenHeader = true := by simpa [IsOutside] using hopen

theorem exec_declareClass_behind (hopen : ¬ s.IsOutside) (name : String) (key : ClassKey)
    (span : Span) : exec (declareClass name key span) s =
      exec (declareHeaderEntity name .classType (.classTemplate key) false span) s := by
  have hopen := isOpenHeader_of_not_isOutside hopen
  have hdeclare : ∀ (accepted : KindSet) (entity : Entity),
      exec (onTable (SymbolTable.declare s.current name .classType accepted span entity)) s =
        exec (onTable (SymbolTable.declareTemplate s.current name .classType span)) s := by
    intro accepted entity
    rw [exec_onTable, exec_onTable, SymbolTable.exec_declare, if_pos hopen]
  rw [declareClass, exec_inHeader_bind, exec_get_bind, hopen, exec_bind, hdeclare,
    declareHeaderEntity, exec_get_bind, exec_bind]
  rfl

theorem exec_declareTypedef_behind (hopen : ¬ s.IsOutside) (name : String)
    (specifiers : Specifiers) (declarator : Declarator) (span : Span) :
    exec (declareTypedef name specifiers declarator span) s =
      exec (declareHeaderEntity name .typedef .aliasTemplate true span) s := by
  rw [declareTypedef, exec_inHeader_bind, if_pos (isOpenHeader_of_not_isOutside hopen)]

theorem exec_declareFunction_behind (hopen : ¬ s.IsOutside) (name : String)
    (specifiers : Specifiers) (declarator : Declarator) (span : Span) :
    exec (declareFunction name specifiers declarator span) s =
      (.error (.unsupported span (.templatesOf .function)), s) := by
  rw [declareFunction, exec_inHeader_bind, if_pos (isOpenHeader_of_not_isOutside hopen),
    exec_throw_bind]

theorem exec_declareObject_behind (hopen : ¬ s.IsOutside) (name : String)
    (specifiers : Specifiers) (declarator : Declarator) (initializer : Option Node) (span : Span) :
    exec (declareObject name specifiers declarator initializer span) s =
      exec (declareHeaderEntity name .object .variableTemplate initializer.isSome span) s := by
  rw [declareObject, exec_inHeader_bind, if_pos (isOpenHeader_of_not_isOutside hopen)]

theorem exec_declareSimple_behind (hopen : ¬ s.IsOutside) (specifiers : Specifiers)
    (declarator : Declarator) (initializer : Option Node) (span : Span) :
    (∃ d : Diagnostic, d.IsExternal ∧
      exec (declareSimple specifiers declarator initializer span) s = (.error d, s)) ∨
      ∃ name entity defines, exec (declareSimple specifiers declarator initializer span) s =
        exec (declareHeaderEntity name entity.kind entity defines span) s := by
  rw [declareSimple]
  split
  · exact .inl ⟨_, by rfl, exec_throw s _⟩
  · rename_i name _
    split
    · exact .inr ⟨name, .aliasTemplate, true,
        exec_declareTypedef_behind hopen name _ declarator span⟩
    · split
      · exact .inl ⟨_, by rfl, exec_declareFunction_behind hopen name specifiers declarator span⟩
      · exact .inr ⟨name, .variableTemplate, initializer.isSome,
          exec_declareObject_behind hopen name _ declarator _ span⟩

/-! ### Operations -/

namespace Session.Operation

/-- Whether an operation declares what a template can be a template of. -/
def Declares : Operation → Prop
  | declareClass _ _ _ | declareTypedef _ _ _ _ | declareObject _ _ _ _ _
  | declareSimple _ _ _ _ => True
  | _ => False

inductive IsDeclaration : Operation → Analysis SymbolId → Prop
  | declareClass (name : String) (key : ClassKey) (span : Span) :
      IsDeclaration (.declareClass name key span) (Session.declareClass name key span)
  | declareTypedef (name : String) (specifiers : Specifiers) (declarator : Declarator)
      (span : Span) : IsDeclaration (.declareTypedef name specifiers declarator span)
        (Session.declareTypedef name specifiers declarator span)
  | declareObject (name : String) (specifiers : Specifiers) (declarator : Declarator)
      (initializer : Option Node) (span : Span) :
      IsDeclaration (.declareObject name specifiers declarator initializer span)
        (Session.declareObject name specifiers declarator initializer span)
  | declareSimple (specifiers : Specifiers) (declarator : Declarator) (initializer : Option Node)
      (span : Span) : IsDeclaration (.declareSimple specifiers declarator initializer span)
        (Session.declareSimple specifiers declarator initializer span)

theorem Declares.exists_isDeclaration {op : Operation} (hop : op.Declares) :
    ∃ x, op.IsDeclaration x := by
  cases op with
  | declareClass => exact ⟨_, .declareClass _ _ _⟩
  | declareTypedef => exact ⟨_, .declareTypedef _ _ _ _⟩
  | declareObject => exact ⟨_, .declareObject _ _ _ _ _⟩
  | declareSimple => exact ⟨_, .declareSimple _ _ _ _⟩
  | _ => exact absurd hop id

theorem IsDeclaration.perform_eq {op : Operation} {x : Analysis SymbolId}
    (h : op.IsDeclaration x) : op.perform = (do let _ ← x) := by
  cases h <;> rfl

theorem IsDeclaration.after_eq {op : Operation} {x : Analysis SymbolId} (h : op.IsDeclaration x)
    (s : Session) : op.after s = (exec x s).2 := by
  rw [after, h.perform_eq, exec_discard]

/-- Behind an open header a declaration is refused, or declares a template. -/
theorem IsDeclaration.exec_behind {op : Operation} {x : Analysis SymbolId}
    (h : op.IsDeclaration x) (hopen : ¬ s.IsOutside) :
    (∃ d : Diagnostic, d.IsExternal ∧ exec x s = (.error d, s)) ∨ ∃ name entity defines span,
      exec x s = exec (declareHeaderEntity name entity.kind entity defines span) s := by
  cases h with
  | declareClass name key span =>
    exact .inr ⟨name, .classTemplate key, false, span,
      exec_declareClass_behind hopen name key span⟩
  | declareTypedef name specifiers declarator span =>
    exact .inr ⟨name, .aliasTemplate, true, span,
      exec_declareTypedef_behind hopen name specifiers declarator span⟩
  | declareObject name specifiers declarator initializer span =>
    exact .inr ⟨name, .variableTemplate, initializer.isSome, span,
      exec_declareObject_behind hopen name specifiers declarator initializer span⟩
  | declareSimple specifiers declarator initializer span =>
    rcases exec_declareSimple_behind hopen specifiers declarator initializer span with
      h | ⟨name, entity, defines, h⟩
    · exact .inl h
    · exact .inr ⟨name, entity, defines, span, h⟩

def OpensHeader : Operation → Prop
  | beginTemplate _ _ => True
  | _ => False

def MovesCursor : Operation → Prop
  | enterScope _ | leaveScope _ | openNamespace _ _ | closeNamespace _ | beginTemplate _ _
  | endTemplate _ => True
  | _ => False

theorem leavesTemplates_discard {x : Analysis α} (h : LeavesTemplates s x) :
    LeavesTemplates s (do let _ ← x) := by
  rw [LeavesTemplates, exec_discard]
  exact h

/-- Everything but opening and closing scopes, and declaring templates, leaves template headers
and the cursor alone, whether or not it succeeds. -/
theorem leavesHeaders {op : Operation} (howns : s.table.OwnsNoOpenHeader)
    (hmoves : ¬ op.MovesCursor) (hdeclares : op.Declares → s.IsOutside) :
    s.KeepsHeaders (op.after s) := by
  have hdiscard : ∀ {γ : Type} {x : Analysis γ}, LeavesHeaders s x →
      s.KeepsHeaders (exec (do let _ ← x : Analysis Unit) s).2 := by
    intro γ x hx
    rw [exec_discard]
    exact hx
  cases op with
  | graph op => exact ⟨.refl _, rfl⟩
  | declareClass name key span =>
    exact hdiscard (leavesHeaders_declareClass (hdeclares trivial) name key span)
  | defineClass id specifier => exact leavesHeaders_defineClass specifier id howns
  | declareEnum name isScoped underlying span =>
    exact hdiscard (leavesHeaders_declareEnum name isScoped underlying span)
  | defineEnum id enumerators span => exact leavesHeaders_defineEnum id enumerators span
  | declareTypedef name specifiers declarator span =>
    exact hdiscard
      (leavesHeaders_declareTypedef (hdeclares trivial) name specifiers declarator span)
  | declareFunction name specifiers declarator span =>
    exact hdiscard (leavesHeaders_declareFunction name specifiers declarator span)
  | declareObject name specifiers declarator initializer span =>
    exact hdiscard (leavesHeaders_declareObject (hdeclares trivial) name specifiers declarator
      initializer span)
  | declareSimple specifiers declarator initializer span =>
    exact hdiscard
      (leavesHeaders_declareSimple (hdeclares trivial) specifiers declarator initializer span)
  | checkStaticAssert assertion => exact leavesHeaders_checkStaticAssert assertion
  | typeOfSymbol id => exact hdiscard (leavesHeaders_typeOfSymbol id)
  | resolveType specifiers declarator span =>
    exact hdiscard (leavesHeaders_resolveType specifiers declarator span)
  | resolveNode node => exact hdiscard (leavesHeaders_resolveNode node)
  | resolveClass node => exact hdiscard (leavesHeaders_resolveClass node)
  | instantiate template arguments span =>
    exact hdiscard (leavesHeaders_instantiate template arguments span)
  | bindArguments template arguments span =>
    exact hdiscard (.bind (leavesHeaders_bindSources template arguments span) fun _ _ _ => .pure _)
  | _ => exact absurd trivial hmoves

/-- Templates with their parameters and headers stay as they are, unless the operation opens
a header or declares what may be a template behind one. -/
theorem keepsHeaders {op : Operation} (howns : s.table.OwnsNoOpenHeader)
    (hopens : ¬ op.OpensHeader) (hdeclares : op.Declares → s.IsOutside) :
    s.table.KeepsHeaders (op.after s).table := by
  by_cases hmoves : op.MovesCursor
  · cases op with
    | enterScope scope => exact .refl _
    | leaveScope span => exact leavesTemplates_discard (leavesTemplates_leaveScope span)
    | openNamespace name span =>
      exact leavesTemplates_discard (leavesTemplates_openNamespace name span)
    | closeNamespace span => exact leavesTemplates_closeNamespace span
    | beginTemplate parameters span => exact absurd trivial hopens
    | endTemplate span => exact leavesTemplates_discard (leavesTemplates_endTemplate span)
    | _ => exact absurd hmoves id
  · exact (leavesHeaders howns hmoves hdeclares).table

/-- Behind an open header a declaration does nothing, or declares a template. -/
theorem declaresTemplate {op : Operation} (hop : op.Declares) (hopen : ¬ s.IsOutside) :
    op.after s = s ∨ ∃ name kind span, DeclaresTemplate s op.perform name kind span := by
  obtain ⟨x, hx⟩ := hop.exists_isDeclaration
  rcases hx.exec_behind hopen with ⟨d, _, h⟩ | ⟨name, entity, defines, span, h⟩
  · exact .inl ((hx.after_eq s).trans (congrArg Prod.snd h))
  · have hdeclares :=
      (declaresTemplate_declareHeaderEntity name entity.kind entity defines span).congr h
    refine .inr ⟨name, entity.kind, span, ?_, fun d hd => ?_⟩
    · rw [hx.perform_eq, exec_discard]
      exact hdeclares.table
    · rw [hx.perform_eq]
      exact congrArg Prod.fst (exec_bind_error (hdeclares.error d hd) _)

end Session.Operation

end TemplateAnalysis
