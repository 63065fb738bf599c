import TemplateAnalysis.Proofs.Session.Completion
import TemplateAnalysis.Proofs.Session.Inheritance
import TemplateAnalysis.Proofs.Session.Refusals

/-!
# The bases of a completed class

Completing a class registers its bases behind those that it has, and then declares its members
inside of it. Nothing that is declared inside of a class changes what is known of the class: a
member is a symbol of its own, and a nested class that is completed stands in a deeper scope.
So a class that has been completed has the bases that are written, behind those that it had
before; a completion that failed can have left some.
-/

namespace TemplateAnalysis

open Session Analysis

variable {α β : Type} {s u : Session} {id : SymbolId}

/-! ### Inside of a class -/

/-- Whether declarations go into a scope that is deeper than that around a class. -/
structure Session.IsInside (s : Session) (id : SymbolId) : Prop where
  inOrder : s.InOrder
  isOutside : s.IsOutside
  isClass : s.table.IsClass id
  deeper : (s.table.symbol id).enclosing.index < s.current.index

theorem Session.IsInside.later (h : s.IsInside id) (hchanges : s.Changes u)
    (hkeeps : s.KeepsHeaders u) : u.IsInside id := by
  have hgrows := (hchanges.preserves h.inOrder.closed).2.table
  refine ⟨h.inOrder.changes hchanges, hkeeps.isOutside h.isOutside, hgrows.isClass h.isClass, ?_⟩
  rw [(hgrows.symbol id h.isClass.1).enclosing, hkeeps.current]
  exact h.deeper

theorem Session.IsInside.enter {inner : SymbolId} {own : ScopeId} (hs : s.InOrder)
    (hid : s.table.IsClass id)
    (hdeeper : (s.table.symbol id).enclosing.index ≤ (s.table.symbol inner).enclosing.index)
    (hown : (s.table.symbol inner).scope = some own) :
    ({ s with current := own } : Session).IsInside id where
  inOrder := hs.change (.enter own (hs.closed.linked.symbol_scope_has inner own hown))
  isOutside := hs.owned.ownsNoOpenHeader inner own hown
  isClass := hid
  deeper := Nat.lt_of_le_of_lt hdeeper
    (hs.closed.linked.enclosing_lt own _ (hs.arena.inside inner own hown))

/-! ### Steps that leave a class alone -/

/-- A step that succeeds leaves what is known of a symbol as it is. -/
def LeavesEntity (id : SymbolId) (s : Session) (x : Analysis α) : Prop :=
  ∀ a, (exec x s).1 = .ok a → ((exec x s).2.table.symbol id).entity = (s.table.symbol id).entity

namespace LeavesEntity

theorem congr {x y : Analysis α} (h : exec x s = exec y s) (hy : LeavesEntity id s y) :
    LeavesEntity id s x := by
  rw [LeavesEntity, h]
  exact hy

theorem of_exec {x : Analysis α} {r : Except Diagnostic α} (h : exec x s = (r, u))
    (hu : (u.table.symbol id).entity = (s.table.symbol id).entity) : LeavesEntity id s x := by
  intro _ _
  rw [h]
  exact hu

theorem pure (a : α) : LeavesEntity id s (Pure.pure a) := .of_exec (exec_pure s a) rfl

theorem throw (d : Diagnostic) : LeavesEntity id s (MonadExcept.throw d : Analysis α) :=
  .of_exec (exec_throw s d) rfl

theorem throw_bind (d : Diagnostic) (f : α → Analysis β) :
    LeavesEntity id s ((MonadExcept.throw d : Analysis α) >>= f) :=
  .of_exec (exec_throw_bind s d f) rfl

theorem bind {x : Analysis α} {f : α → Analysis β} (hx : LeavesEntity id s x)
    (hf : ∀ a, (exec x s).1 = .ok a → LeavesEntity id (exec x s).2 (f a)) :
    LeavesEntity id s (x >>= f) := by
  intro b hb
  cases hr : (exec x s).1 with
  | error d =>
    rw [exec_bind_error hr] at hb
    cases hb
  | ok a =>
    rw [exec_bind_ok hr] at hb ⊢
    exact (hf a hr b hb).trans (hx a hr)

theorem bind_inside {x : Analysis α} {f : α → Analysis β} {post : α → Session → Prop}
    (hs : s.IsInside id) (hleads : Leads s x post) (hkeeps : LeavesHeaders s x)
    (hx : LeavesEntity id s x)
    (hf : ∀ a u, post a u → u.IsInside id → s.Grows u → LeavesEntity id u (f a)) :
    LeavesEntity id s (x >>= f) :=
  bind hx fun a ha => hf a _ (hleads.result a ha) (hs.later hleads.changes hkeeps)
    (hleads.changes.preserves hs.inOrder.closed).2

theorem read_bind {x : Analysis α} {f : α → Analysis β} {known : α → Prop}
    (hx : Leads s x fun a u => u = s ∧ known a) (hf : ∀ a, known a → LeavesEntity id s (f a)) :
    LeavesEntity id s (x >>= f) := by
  refine bind (fun a ha => ?_) fun a ha => ?_
  · rw [(hx.result a ha).1]
  · obtain ⟨heq, hknown⟩ := hx.result a ha
    rw [heq]
    exact hf a hknown

theorem get_bind {f : Session → Analysis β} (h : LeavesEntity id s (f s)) :
    LeavesEntity id s (get >>= f) := congr (exec_get_bind s f) h

theorem symbol_bind {other : SymbolId} {f : Symbol → Analysis β}
    (h : LeavesEntity id s (f (s.table.symbol other))) :
    LeavesEntity id s (symbol other >>= f) := congr (exec_symbol_bind s other f) h

theorem ownScope_bind {other : SymbolId} {span : Span} {f : ScopeId → Analysis β}
    (h : ∀ own, (s.table.symbol other).scope = some own → LeavesEntity id s (f own)) :
    LeavesEntity id s (ownScope other span >>= f) := by
  rw [ownScope, bind_assoc]
  refine symbol_bind ?_
  cases hown : (s.table.symbol other).scope with
  | none => exact throw_bind _ _
  | some own => exact h own hown

theorem inHeader_bind {f : Bool → Analysis β} (hs : s.IsOutside)
    (h : LeavesEntity id s (f false)) : LeavesEntity id s (inHeader >>= f) :=
  congr (hs.exec_inHeader_bind f) h

theorem inScope {x : Analysis α} {scope : ScopeId}
    (h : LeavesEntity id { s with current := scope } x) :
    LeavesEntity id s (Analysis.inScope scope x) := h

theorem modifyTable {f : SymbolTable → SymbolTable}
    (h : ((f s.table).symbol id).entity = (s.table.symbol id).entity) :
    LeavesEntity id s (Analysis.modifyTable f) := .of_exec (exec_modifyTable s f) h

theorem of_steady {x y : Analysis α} {post : α → Session → Prop} (h : Steady s x y post)
    (hid : s.table.HasSymbol id) : LeavesEntity id s x :=
  fun a ha => (h.spares a ha).entity_eq hid

end LeavesEntity

/-! ### Members -/

theorem SymbolTable.symbol_declareOverload {t u : SymbolTable} {scope : ScopeId}
    {name signature : String} {type : TypeId} {keywords : KeywordSet} {span : Span}
    {declared : Declared}
    (h : t.declareOverload scope name type signature keywords span = .ok (declared, u))
    (hid : t.HasSymbol id) : u.symbol id = t.symbol id := by
  rcases declareOverload_cases h with rfl | rfl
  · rfl
  · obtain ⟨_, _, _, rfl⟩ := declareOverload_eq h
    have hpush : Extends (fun _ => True) t (t.pushSymbol name ⟨name, sourceName name ++ signature,
        .ofFunction (t.qualify scope name) signature, scope, none, false, none, span,
        .function ⟨type, keywords, signature⟩⟩).2 := (Extends.refl t).pushSymbol name trivial
    exact hpush.old id hid

theorem leavesEntity_declare (hs : s.IsOutside) (hid : s.table.HasSymbol id) (name : String)
    (kind : SymbolKind) (accepted : KindSet) (span : Span) (entity : Entity) :
    LeavesEntity id s
      (onTable (SymbolTable.declare s.current name kind accepted span entity)) := by
  refine .of_exec (exec_onTable s _) ?_
  rw [SymbolTable.exec_declare, hs.isOpenHeader_eq, if_neg Bool.false_ne_true]
  split
  · rename_i hdeclare
    rcases declareEntity_cases hdeclare with ⟨rfl, _⟩ | ⟨_, _, _, _, heq⟩
    · rfl
    · cases heq
      exact congrArg Symbol.entity (s.table.symbol_introduce _ name entity span hid)
  · rfl

theorem leavesEntity_resolveType (hs : s.IsInside id) {specifiers : Specifiers}
    {declarator : Declarator} (hspecifiers : AllKnown s.Known specifiers.handles)
    (hdeclarator : AllKnown s.Known (handlesOfParts declarator)) (span : Span) :
    LeavesEntity id s (resolveType instantiate specifiers declarator span) :=
  .of_steady (steady_resolveType (steady_instantiate s) hs.inOrder.closed hspecifiers hdeclarator
    span) hs.isClass.1

theorem leavesEntity_declareTypedef (hs : s.IsInside id) (name : String) {specifiers : Specifiers}
    {declarator : Declarator} (hspecifiers : AllKnown s.Known specifiers.handles)
    (hdeclarator : AllKnown s.Known (handlesOfParts declarator)) (span : Span) :
    LeavesEntity id s (declareTypedef name specifiers declarator span) := by
  have hresolve := (steady_resolveType (steady_instantiate s) hs.inOrder.closed hspecifiers
    hdeclarator span).toLeads
  rw [declareTypedef]
  refine .inHeader_bind hs.isOutside (.bind_inside hs hresolve (leavesHeaders_resolveType _ _ _)
    (leavesEntity_resolveType hs hspecifiers hdeclarator span) fun target u _ hu _ => .get_bind ?_)
  refine .bind (leavesEntity_declare hu.isOutside hu.isClass.1 name _ _ span _) fun declared _ =>
    .symbol_bind ?_
  split
  · exact .pure _
  · split
    · exact .pure _
    · exact .throw _
  · exact .throw _

theorem leavesEntity_declareFunction (hs : s.IsInside id) (name : String)
    {specifiers : Specifiers} {declarator : Declarator}
    (hspecifiers : AllKnown s.Known specifiers.handles)
    (hdeclarator : AllKnown s.Known (handlesOfParts declarator)) (span : Span) :
    LeavesEntity id s (declareFunction name specifiers declarator span) := by
  have hresolve := (steady_resolveType (steady_instantiate s) hs.inOrder.closed hspecifiers
    hdeclarator span).toLeads
  rw [declareFunction]
  refine .inHeader_bind hs.isOutside (.bind_inside hs hresolve (leavesHeaders_resolveType _ _ _)
    (leavesEntity_resolveType hs hspecifiers hdeclarator span) fun type u _ hu _ => .get_bind ?_)
  split
  · exact .throw _
  · rename_i signature _
    cases hdeclare : u.table.declareOverload u.current name type signature specifiers.keywords
        span with
    | error d => exact .of_exec rfl rfl
    | ok result =>
      exact .of_exec rfl
        (congrArg Symbol.entity (SymbolTable.symbol_declareOverload hdeclare hu.isClass.1))

theorem leavesEntity_redeclareObject (hid : (s.table.symbol id).kind ≠ .object) (other : SymbolId)
    (name : String) (type : TypeId) (value : Option Constant) (span : Span) :
    LeavesEntity id s (redeclareObject other name type value span) := by
  rw [redeclareObject]
  refine .symbol_bind ?_
  cases hentity : (s.table.symbol other).entity with
  | object existing =>
    dsimp only
    split
    · exact .throw_bind _ _
    · refine .modifyTable ?_
      rw [SymbolTable.symbol_modifySymbol, if_neg]
      rintro ⟨rfl, _⟩
      exact hid (congrArg Entity.kind hentity)
  | _ => exact .throw _

theorem leavesEntity_markDefined (other : SymbolId) :
    LeavesEntity id s (modifyTable (·.markDefined other)) := by
  refine .modifyTable ?_
  rw [SymbolTable.markDefined, SymbolTable.symbol_modifySymbol]
  split <;> rfl

theorem leavesEntity_settleObject (hid : (s.table.symbol id).kind ≠ .object) (declared : Declared)
    (name : String) (type : TypeId) (value : Option Constant) (defines : Bool) (span : Span) :
    LeavesEntity id s (settleObject declared name type value defines span) := by
  rw [settleObject]
  have hdefine : ∀ u : Session, LeavesEntity id u (do
      if defines then modifyTable (·.markDefined declared.symbol)
      return declared.symbol) := by
    intro u
    split
    · exact .bind (leavesEntity_markDefined _) fun _ _ => .pure _
    · exact .pure _
  dsimp only
  split
  · exact .bind (leavesEntity_redeclareObject hid _ name type value span) fun _ _ => hdefine _
  · exact hdefine s

theorem leavesEntity_introduceObject (hs : s.IsInside id) (name : String) (type : TypeId)
    (keywords : KeywordSet) (initializer : Option Node) (span : Span) :
    LeavesEntity id s (introduceObject name type keywords initializer span) := by
  rw [introduceObject]
  refine .read_bind (leads_constantValue type keywords initializer) fun value _ => .get_bind ?_
  have hdeclare := leavesEntity_declare hs.isOutside hs.isClass.1 name .object (.singleton .object)
    span (.object ⟨type, keywords, value⟩)
  refine .bind hdeclare fun declared hdeclared => leavesEntity_settleObject ?_ declared name type
    value _ span
  rw [Symbol.kind, hdeclare declared hdeclared]
  intro hkind
  cases hkind.symm.trans hs.isClass.2

theorem leavesEntity_declareObject (hs : s.IsInside id) (name : String) {specifiers : Specifiers}
    {declarator : Declarator} (hspecifiers : AllKnown s.Known specifiers.handles)
    (hdeclarator : AllKnown s.Known (handlesOfParts declarator)) (initializer : Option Node)
    (span : Span) :
    LeavesEntity id s (declareObject name specifiers declarator initializer span) := by
  have hresolve := (steady_resolveType (steady_instantiate s) hs.inOrder.closed hspecifiers
    hdeclarator span).toLeads
  rw [declareObject_eq]
  refine .inHeader_bind hs.isOutside ?_
  rw [if_neg Bool.false_ne_true]
  refine .bind_inside hs hresolve (leavesHeaders_resolveType _ _ _)
    (leavesEntity_resolveType hs hspecifiers hdeclarator span) fun type u _ hu hgrows =>
      .get_bind ?_
  split
  · exact leavesEntity_declareFunction hu name (hgrows.allKnown hspecifiers)
      (hgrows.allKnown hdeclarator) span
  · exact leavesEntity_introduceObject hu name type _ initializer span

theorem leavesEntity_declareSimple (hs : s.IsInside id) {specifiers : Specifiers}
    {declarator : Declarator} (hspecifiers : AllKnown s.Known specifiers.handles)
    (hdeclarator : AllKnown s.Known (handlesOfParts declarator)) (initializer : Option Node)
    (span : Span) :
    LeavesEntity id s (declareSimple specifiers declarator initializer span) := by
  rw [declareSimple]
  split
  · exact .throw _
  · split
    · refine leavesEntity_declareTypedef hs _ ?_ hdeclarator span
      obtain ⟨keywords, named⟩ := specifiers
      exact hspecifiers
    · split
      · exact leavesEntity_declareFunction hs _ hspecifiers hdeclarator span
      · exact leavesEntity_declareObject hs _ hspecifiers hdeclarator initializer span

theorem leavesEntity_declareMemberEntity (hs : s.IsInside id) {member : Member}
    (h : AllKnown s.Known member.handles) :
    LeavesEntity id s (declareMemberEntity member) := by
  obtain ⟨access, specifiers, declarator, bitWidth, initializer, span⟩ := member
  rw [declareMemberEntity]
  split
  · exact .throw_bind _ _
  · exact .bind (leavesEntity_declareSimple hs h.left.left.left h.left.left.right initializer span)
      fun _ _ => .pure _

theorem leavesEntity_checkStaticAssert (assertion : StaticAssert) :
    LeavesEntity id s (checkStaticAssert assertion) := by
  rw [checkStaticAssert]
  refine .bind (.of_exec (exec_evaluate s _) rfl) fun value _ => ?_
  split
  · exact .throw _
  · exact .pure _

theorem leavesEntity_declareClass (hs : s.IsInside id) (name : String) (key : ClassKey)
    (span : Span) : LeavesEntity id s (declareClass name key span) := by
  rw [declareClass]
  exact .inHeader_bind hs.isOutside (.get_bind (.bind
    (leavesEntity_declare hs.isOutside hs.isClass.1 name _ _ span _) fun _ _ => .pure _))

/-! ### Class bodies -/

/-- A class that is declared outside of headers stands in the scope that it is declared in. -/
theorem enclosing_of_declareClass (harena : s.table.Arena) (hs : s.IsOutside) {name : String}
    {key : ClassKey} {span : Span} (h : exec (declareClass name key span) s = (.ok id, u)) :
    (u.table.symbol id).enclosing = s.current := by
  rw [declareClass, hs.exec_inHeader_bind, exec_get_bind] at h
  obtain ⟨declared, v, hdeclare, h⟩ := exec_bind_eq_ok.mp h
  cases h
  rw [exec_onTable, SymbolTable.exec_declare, hs.isOpenHeader_eq,
    if_neg Bool.false_ne_true] at hdeclare
  split at hdeclare
  · rename_i heq
    cases hdeclare
    rcases declareEntity_cases heq with ⟨rfl, _, hmem, haccepts⟩ | ⟨_, _, _, _, hnew⟩
    · rw [KindSet.accepts_singleton, decide_eq_true_eq] at haccepts
      exact (harena.mayBind_of_named hmem).place.resolve_right (by simp [← haccepts])
    · cases hnew
      exact s.table.enclosing_introduce _ _ _ _
  · cases hdeclare

mutual

/-- Completing a class leaves the classes alone that stand further out. -/
theorem leavesEntity_defineClass : ∀ (specifier : ClassSpecifier) {s : Session}
    {id other : SymbolId}, s.InOrder → s.table.IsClass id → s.table.HasSymbol other →
    (s.table.symbol id).enclosing.index < (s.table.symbol other).enclosing.index →
    AllKnown s.Known specifier.handles → LeavesEntity id s (defineClass other specifier)
  | ⟨key, name, bases, members, span⟩, s, id, other, hs, hid, hother, hdeeper, h => by
    -- The class that is completed stands deeper, so it is another one.
    have hne : id ≠ other := by
      rintro rfl
      exact Nat.lt_irrefl _ hdeeper
    rw [defineClass]
    refine .symbol_bind ?_
    cases hfault : completionFault? (s.table.symbol other) with
    | some cause => exact .throw _
    | none =>
      rcases completionFault?_eq_none hfault with ⟨data, hdata, _⟩ | ⟨data, hdata, hundefined⟩
      · rw [hdata]
        refine .modifyTable ?_
        rw [SymbolTable.modifyTemplate, SymbolTable.symbol_modifySymbol, if_neg fun h => hne h.1]
      · have hbases := leads_registerBases (steady_instantiate _) hs.closed
          ⟨hother, hdata, hundefined⟩ h.left
        have hu := hs.leads hbases
        have hgrows := (hbases.changes.preserves hs.closed).2
        rw [hdata]
        refine .bind (fun _ ha => ?_) fun _ _ => .ownScope_bind fun own hown =>
          .bind (.inScope (leavesEntity_declareMembers members
            (.enter hu (hgrows.table.isClass hid) ?_ hown) (hgrows.allKnown h.right))) fun _ _ =>
              .modifyTable ?_
        · obtain ⟨_, _, _, hspares⟩ := hbases.result _ ha
          exact hspares.entity_eq ⟨hid.1, hne⟩
        · rw [(hgrows.table.symbol id hid.1).enclosing,
            (hgrows.table.symbol other hother).enclosing]
          exact Nat.le_of_lt hdeeper
        · rw [SymbolTable.markDefined, SymbolTable.symbol_modifySymbol, if_neg fun h => hne h.1,
            SymbolTable.modifyClass, SymbolTable.symbol_modifySymbol, if_neg fun h => hne h.1]
termination_by structural specifier => specifier

theorem leavesEntity_declareMembers : ∀ (members : List Node) {s : Session} {id : SymbolId},
    s.IsInside id → AllKnown s.Known (handlesOfNodes members) →
    LeavesEntity id s (declareMembers members)
  | [], s, id, _, _ => by
    rw [declareMembers]
    exact .pure _
  | member :: rest, s, id, hs, h => by
    rw [declareMembers]
    exact .bind_inside hs (leads_declareMember member hs.inOrder.closed h.left)
      (leavesHeaders_declareMember member hs.isOutside hs.inOrder.owned.ownsNoOpenHeader)
      (leavesEntity_declareMember member hs h.left) fun _ u _ hu hgrows =>
        leavesEntity_declareMembers rest hu (hgrows.allKnown h.right)
termination_by structural members => members

theorem leavesEntity_declareMember : ∀ (member : Node) {s : Session} {id : SymbolId},
    s.IsInside id → AllKnown s.Known member.handles → LeavesEntity id s (declareMember member)
  | .member declaration, s, id, hs, h => by
    rw [declareMember]
    exact leavesEntity_declareMemberEntity hs h
  | .staticAssert assertion, s, id, _, _ => by
    rw [declareMember]
    exact leavesEntity_checkStaticAssert assertion
  | .classBody specifier, s, id, hs, h => by
    have hleads := leads_declareClass hs.inOrder.closed specifier.name specifier.key specifier.span
    have hkeeps := leavesHeaders_declareClass hs.isOutside specifier.name specifier.key
      specifier.span
    have hgrows := (hleads.changes.preserves hs.inOrder.closed).2
    have hu := hs.later hleads.changes hkeeps
    -- A nested class stands in the scope that the members go into, which is deeper.
    rw [declareMember]
    refine .bind (leavesEntity_declareClass hs _ _ _) fun other hok =>
      leavesEntity_defineClass specifier hu.inOrder hu.isClass (hleads.result other hok) ?_
        (hgrows.allKnown h)
    rw [enclosing_of_declareClass hs.inOrder.arena hs.isOutside (Prod.ext hok rfl),
      ← hkeeps.current]
    exact hu.deeper
  | .name _ _ _, _, _, _, _ | .paren _ _, _, _, _, _ | .literal _ _, _, _, _, _
  | .typeParameter _ _ _, _, _, _, _ | .valueParameter _ _ _, _, _, _, _
  | .unary _ _ _, _, _, _, _ | .binary _ _ _ _, _, _, _, _ | .conditional _ _ _ _, _, _, _, _
  | .typeId _ _ _, _, _, _, _ | .resolvedType _ _ _, _, _, _, _ | .templateId _ _ _ _, _, _, _, _
  | .packExpansion _ _, _, _, _, _ | .base _, _, _, _, _ => .throw _
termination_by structural member => member

end

/-! ### Completed classes -/

def Session.declareBody (id : SymbolId) (members : List Node) (span : Span) : Analysis Unit := do
  let own ← ownScope id span
  inScope own (declareMembers members)

theorem leads_declareBody (hs : s.Closed) (hid : s.table.HasSymbol id) {members : List Node}
    (h : AllKnown s.Known (handlesOfNodes members)) (span : Span) :
    Leads s (declareBody id members span) fun _ _ => True := by
  rw [declareBody]
  refine .bind hs (leads_ownScope hs hid span) fun own u hown _ _ => ?_
  obtain ⟨rfl, _, hhas⟩ := hown
  exact .inScope hs hhas (leads_declareMembers members (hs.enter hhas) h)

theorem leavesEntity_declareBody (hs : s.InOrder) (hid : s.table.IsClass id) {members : List Node}
    (h : AllKnown s.Known (handlesOfNodes members)) (span : Span) :
    LeavesEntity id s (declareBody id members span) :=
  .ownScope_bind fun _ hown =>
    .inScope (leavesEntity_declareMembers members (.enter hs hid (Nat.le_refl _) hown) h)

/-- Completing a class that is not complete: its bases, then its members inside of it, and what
is written about it in the end. -/
theorem exec_defineClass_of_isOpenClass {data : ClassData} (h : s.IsOpenClass id data)
    (key : ClassKey) (name : String) (bases : List BaseSpecifier) (members : List Node)
    (span : Span) : exec (defineClass id ⟨key, name, bases, members, span⟩) s =
      exec (do
        bases.forM (registerBase instantiate id)
        declareBody id members span
        modifyTable fun t =>
          (t.modifyClass id fun data => { data with key, members }).markDefined id) s := by
  rw [defineClass, exec_symbol_bind]
  simp only [completionFault?, h.entity, h.undefined, Bool.false_eq_true, if_false, declareBody,
    bind_assoc]

theorem isOpenClass_of_defineClass {specifier : ClassSpecifier} {data : ClassData}
    (hdata : (s.table.symbol id).entity = .classType data)
    (h : (exec (defineClass id specifier) s).1 = .ok ()) : s.IsOpenClass id data := by
  refine ⟨SymbolTable.has_of_entity hdata (by simp), hdata,
    Bool.eq_false_iff.mpr fun hdefined => ?_⟩
  rw [refusesClass_of_class ⟨hdata, hdefined⟩ specifier] at h
  cases h

/-- What is known of a class at last: what was known before its members were declared, with the
key and the members that are written. -/
theorem isCompleteClass_complete {data : ClassData} (hid : s.table.HasSymbol id)
    (hdata : (s.table.symbol id).entity = .classType data) (key : ClassKey) (members : List Node) :
    ((s.table.modifyClass id fun data => { data with key, members }).markDefined id).IsCompleteClass
      id { data with key, members } := by
  rw [SymbolTable.IsCompleteClass, SymbolTable.markDefined, SymbolTable.modifyClass,
    SymbolTable.symbol_modifySymbol_self _ ((s.table.hasSymbol_modifySymbol _ _ _).mpr hid),
    SymbolTable.symbol_modifySymbol_self _ hid, hdata]
  exact ⟨rfl, rfl⟩

/-- A class whose bases are registered keeps them while its members are declared. -/
theorem isCompleteClass_of_declareBody {data : ClassData} (hs : s.InOrder)
    (hopen : s.IsOpenClass id data) {key : ClassKey} {members : List Node} {span : Span}
    (hmembers : AllKnown s.Known (handlesOfNodes members))
    (h : exec (do
      declareBody id members span
      modifyTable fun t =>
        (t.modifyClass id fun data => { data with key, members }).markDefined id) s =
      (.ok (), u)) : u.table.IsCompleteClass id { data with key, members } ∧ s.Grows u := by
  obtain ⟨_, v, hdeclare, h⟩ := exec_bind_eq_ok.mp h
  cases h
  have hclass : s.table.IsClass id := ⟨hopen.has, by rw [Symbol.kind, hopen.entity]; rfl⟩
  have hstays := leavesEntity_declareBody hs hclass hmembers span () (congrArg Prod.fst hdeclare)
  obtain ⟨hv, hgrows⟩ :=
    (leads_declareBody hs.closed hopen.has hmembers span).changes.preserves hs.closed
  rw [hdeclare] at hstays hv hgrows
  have hlast := changes_completeClass (hgrows.table.isClass hclass) key (hgrows.allKnown hmembers)
  exact ⟨isCompleteClass_complete (hgrows.table.hasSymbol id hopen.has)
    (hstays.trans hopen.entity) key members, hgrows.trans (hlast.preserves hv).2⟩

/-- A class that has been completed has the key and the members that are written, and the bases
that are written, each of them the class that its specifier names, behind those that it had
before. So its bases are exactly the written ones if and only if it had none. -/
theorem bases_of_defineClass {config : Config} (hs : (start config).Run s)
    {specifier : ClassSpecifier} {data : ClassData}
    (hop : (Operation.defineClass id specifier).IsOn s)
    (hdata : (s.table.symbol id).entity = .classType data)
    (h : exec (defineClass id specifier) s = (.ok (), u)) :
    ∃ added, u.table.IsCompleteClass id
        ⟨specifier.key, data.bases ++ added, specifier.members, data.origin⟩ ∧
      List.Forall₂ u.IsBase specifier.bases added ∧
      ∀ data', (u.table.symbol id).entity = .classType data' →
        (List.Forall₂ u.IsBase specifier.bases data'.bases ↔ data.bases = []) := by
  have hin := Session.InOrder.of_run hs
  have hopen := isOpenClass_of_defineClass hdata (congrArg Prod.fst h)
  obtain ⟨key, name, bases, members, span⟩ := specifier
  have hknown : AllKnown s.Known (ClassSpecifier.handles ⟨key, name, bases, members, span⟩) :=
    hop.known.tail
  rw [exec_defineClass_of_isOpenClass hopen] at h
  obtain ⟨_, v, hregister, h⟩ := exec_bind_eq_ok.mp h
  have hbases := leads_registerBases (steady_instantiate s) hin.closed hopen hknown.left
  obtain ⟨added, hadded, hopen', _⟩ := hbases.result () (congrArg Prod.fst hregister)
  have hv := hin.leads hbases
  have hgrows := (hbases.changes.preserves hin.closed).2
  rw [hregister] at hadded hopen' hv hgrows
  obtain ⟨hcomplete, hlater⟩ :=
    isCompleteClass_of_declareBody hv hopen' (hgrows.allKnown hknown.right) h
  have hwritten := hadded.imp fun _ _ h => h.later hlater
  refine ⟨added, hcomplete, hwritten, fun data' hdata' => ?_⟩
  obtain rfl := Entity.classType.inj (hcomplete.1.symm.trans hdata')
  constructor
  · -- There are as many bases as specifiers, and those that were added are as many.
    intro hexact
    have hlength := hexact.length_eq.symm.trans hwritten.length_eq
    simpa using hlength
  · intro hnone
    simpa [hnone] using hwritten

/-- A class `Derived` with a base and an assertion that fails. When it is completed again,
without the assertion, it has the base twice. -/
theorem bases_of_defineClass_derived :
    let base := (Operation.defineClass ⟨0⟩ ⟨.structKey, "Base", [], [], .synthesized⟩).after
      ((Operation.declareClass "Base" .structKey .synthesized).after (start .standard))
    let body (members : List Node) : ClassSpecifier := ⟨.structKey, "Derived",
      [⟨.publicly, false, .name "Base" ⟨0⟩ .synthesized, false, .synthesized⟩], members,
      .synthesized⟩
    let s := (Operation.defineClass ⟨1⟩
      (body [.staticAssert ⟨.literal (.bool false) .synthesized, none, .synthesized⟩])).after
        ((Operation.declareClass "Derived" .structKey .synthesized).after base)
    ∃ u data added, exec (defineClass ⟨1⟩ (body [])) s = (.ok (), u) ∧
      u.table.IsCompleteClass ⟨1⟩ data ∧ data.bases = ⟨⟨0⟩, .publicly, false⟩ :: added ∧
      List.Forall₂ u.IsBase (body []).bases added ∧
      ¬ List.Forall₂ u.IsBase (body []).bases data.bases := by
  intro base body s
  let declared := (Operation.declareClass "Base" .structKey .synthesized).after (start .standard)
  let derived := (Operation.declareClass "Derived" .structKey .synthesized).after base
  let assertion : Node := .staticAssert ⟨.literal (.bool false) .synthesized, none, .synthesized⟩
  have hdeclared : declared.table.HasSymbol ⟨0⟩ := by decide +kernel
  have hderived : derived.table.HasSymbol ⟨0⟩ ∧ derived.table.HasSymbol ⟨1⟩ := by decide +kernel
  have hfailed : s.table.HasSymbol ⟨0⟩ ∧ s.table.HasSymbol ⟨1⟩ := by decide +kernel
  have hclass : (s.table.symbol ⟨1⟩).kind = .classType := by decide +kernel
  have hbase : (start .standard).Run base :=
    (Run.refl.step _ .of_handles_nil).step _ (.of_symbol hdeclared)
  have hrun : (start .standard).Run s :=
    (hbase.step _ .of_handles_nil).step (.defineClass ⟨1⟩ (body [assertion]))
      (.of_known (allKnown_cons_symbol hderived.2 (allKnown_cons_symbol hderived.1 AllKnown.nil)))
  have hop : (Operation.defineClass ⟨1⟩ (body [])).IsOn s :=
    .of_known (allKnown_cons_symbol hfailed.2 (allKnown_cons_symbol hfailed.1 AllKnown.nil))
  obtain ⟨data, hdata⟩ := SymbolTable.IsClass.entity ⟨hfailed.2, hclass⟩
  have hleft : s.table.bases ⟨1⟩ = [⟨⟨0⟩, .publicly, false⟩] := by decide +kernel
  rw [SymbolTable.bases, Symbol.bases_eq hdata] at hleft
  have hsucceeds : (exec (defineClass ⟨1⟩ (body [])) s).1.isOk = true := by decide +kernel
  rcases hexec : exec (defineClass ⟨1⟩ (body [])) s with ⟨d | ⟨⟩, u⟩
  · rw [hexec] at hsucceeds
    cases hsucceeds
  obtain ⟨added, hcomplete, hadded, hexact⟩ := bases_of_defineClass hrun hop hdata hexec
  refine ⟨u, _, added, rfl, hcomplete, by rw [hleft]; rfl, hadded, fun hwritten => ?_⟩
  rw [(hexact _ hcomplete.1).mp hwritten] at hleft
  cases hleft

end TemplateAnalysis
