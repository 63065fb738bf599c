import TemplateAnalysis.Proofs.Session.Headers
import TemplateAnalysis.Proofs.Session.Symbols
import TemplateAnalysis.Proofs.TypeGraph.Operations

/-!
# Declarations are sequences of changes

Typedefs, functions and objects: their type is resolved, then their name is declared, and
what a redeclaration says is compared with what is there. Whether a function or an object is
declared follows from the type.
-/

namespace TemplateAnalysis

open Session Analysis

variable {s : Session}

namespace Session.IsOutside

theorem isOpenHeader_eq (hs : s.IsOutside) : (s.table.scope s.current).isOpenHeader = false := hs

theorem exec_inHeader_bind {β : Type} (hs : s.IsOutside) (f : Bool → Analysis β) :
    exec (inHeader >>= f) s = exec (f false) s := by
  rw [TemplateAnalysis.exec_inHeader_bind, hs.isOpenHeader_eq]

end Session.IsOutside

theorem leads_declareHeaderEntity (hs : s.Closed)
    (hopen : (s.table.scope s.current).isOpenHeader = true) (name : String) {kind : SymbolKind}
    {entity : TemplatedEntity} (hentity : entity.kind = kind) (defines : Bool) (span : Span) :
    Leads s (declareHeaderEntity name kind entity defines span) fun _ _ => True := by
  rw [declareHeaderEntity]
  refine Leads.get_bind (Leads.bind hs (leads_declareTemplate hs hopen name kind span)
    fun declared u hdeclared hu _ => ?_)
  exact Leads.bind hu (leads_enterTemplate hu hdeclared hentity defines span)
    fun _ v _ _ _ => Leads.pure trivial

theorem leads_declareTypedef (hs : s.Closed) (name : String) {specifiers : Specifiers}
    {declarator : Declarator} (hspecifiers : AllKnown s.Known specifiers.handles)
    (hdeclarator : AllKnown s.Known (handlesOfParts declarator)) (span : Span) :
    Leads s (declareTypedef name specifiers declarator span) fun _ _ => True := by
  rw [declareTypedef]
  refine Leads.inHeader_bind ?_
  split
  · exact leads_declareHeaderEntity hs ‹_› name rfl true span
  · refine Leads.bind hs (steady_resolveType (steady_instantiate _) hs hspecifiers hdeclarator
      span).toLeads fun target u htarget hu _ => Leads.get_bind ?_
    refine Leads.bind hu (leads_declare hu name .typedef span
      (fun _ _ _ => trivial) (AllKnown.nil.cons htarget) trivial) fun declared v _ _ _ =>
        Leads.symbol_bind ?_
    split
    · exact Leads.pure trivial
    · split
      · exact Leads.pure trivial
      · exact Leads.throw _
    · exact Leads.throw _

theorem declareOverload_cases {t u : SymbolTable} {scope : ScopeId} {name signature : String}
    {type : TypeId} {keywords : KeywordSet} {span : Span} {declared : Declared}
    (h : t.declareOverload scope name type signature keywords span = .ok (declared, u)) :
    u = t ∨ declared = ⟨t.nextSymbol, true⟩ := by
  unfold SymbolTable.declareOverload at h
  split at h
  · cases h
  · obtain ⟨found, _, h⟩ := bind_eq_ok.mp h
    cases found with
    | some existing =>
      cases h
      exact .inl rfl
    | none =>
      cases h
      exact .inr rfl

theorem SymbolTable.kind_of_findOverload {t : SymbolTable} {name signature : String} {type : TypeId}
    {span : Span} {ids : List SymbolId} {id : SymbolId}
    (h : t.findOverload name type signature span ids = .ok (some id)) :
    (t.symbol id).kind = .function := by
  induction ids with
  | nil => cases h
  | cons first rest ih =>
    rw [SymbolTable.findOverload] at h
    split at h
    · rename_i data hdata
      split at h
      · cases h
        exact congrArg Entity.kind hdata
      · split at h
        · cases h
        · exact ih h
    · cases h

theorem SymbolTable.kind_of_declareOverload {t u : SymbolTable} {scope : ScopeId}
    {name signature : String} {type : TypeId} {keywords : KeywordSet} {span : Span}
    {declared : Declared}
    (h : t.declareOverload scope name type signature keywords span = .ok (declared, u)) :
    (u.symbol declared.symbol).kind = .function := by
  unfold SymbolTable.declareOverload at h
  split at h
  · cases h
  · obtain ⟨found, hfound, h⟩ := bind_eq_ok.mp h
    cases found with
    | some existing =>
      cases h
      exact kind_of_findOverload hfound
    | none =>
      cases h
      exact congrArg Symbol.kind ((t.symbol_pushSymbol _ _ _).trans (if_pos rfl))

theorem Session.Closed.isFunction_of_signature? (hs : s.Closed) {type : TypeId}
    (htype : s.types.Has type) {signature : String}
    (h : s.table.signature? s.types type = some signature) :
    s.types.isFunction type = true := by
  rw [SymbolTable.signature?] at h
  rw [← TypeGraph.isFunction_tree hs.types htype]
  generalize s.types.tree type = tree at h
  cases tree with
  | function result parameters variadic q => rfl
  | _ => cases h

/-- What specifiers with a declarator have declared is what their type tells: a function if
they resolve to the type of a function, and an object otherwise. -/
def Session.DeclaresByType (s : Session) (specifiers : Specifiers) (declarator : Declarator)
    (span : Span) (id : SymbolId) (u : Session) : Prop :=
  ∃ type, (exec (resolveType instantiate specifiers declarator span) s).1 = .ok type ∧
    (u.table.symbol id).kind = if u.types.isFunction type then .function else .object

theorem leads_declareFunction (hs : s.Closed) (name : String) {specifiers : Specifiers}
    {declarator : Declarator} (hspecifiers : AllKnown s.Known specifiers.handles)
    (hdeclarator : AllKnown s.Known (handlesOfParts declarator)) (span : Span) :
    Leads s (declareFunction name specifiers declarator span) fun id u =>
      s.DeclaresByType specifiers declarator span id u := by
  rw [declareFunction]
  refine Leads.inHeader_bind ?_
  split
  · exact Leads.throw_bind _ _
  · have hresolve := (steady_resolveType (steady_instantiate _) hs hspecifiers hdeclarator
      span).toLeads
    refine Leads.bind hs hresolve.run fun type u hrun hu _ => Leads.get_bind ?_
    obtain ⟨hexec, htype⟩ := hrun
    cases hsignature : u.table.signature? u.types type with
    | none => exact Leads.throw _
    | some signature =>
      refine Leads.ofExcept_bind fun result hresult => ?_
      obtain ⟨declared, table⟩ := result
      refine .changes_of_eq (r := .ok declared.symbol) rfl ?_ fun id hid =>
        ⟨type, congrArg Prod.fst hexec, ?_⟩
      · rcases declareOverload_cases hresult with rfl | rfl
        · exact .refl
        · exact .single (.overload u.current name type signature specifiers.keywords span table
            hu.current_has htype hsignature hresult)
      · cases hid
        rw [if_pos (hu.isFunction_of_signature? htype hsignature)]
        exact SymbolTable.kind_of_declareOverload hresult

theorem isOf_of_initialValue {t : SymbolTable} {type? : Option Primitive} {initializer : Node}
    {c : Constant} (h : initialValue t type? initializer = .ok c) : c.IsOf type? := by
  obtain ⟨value, _, h⟩ := bind_eq_ok.mp h
  cases type? with
  | none => exact c.isOf_none
  | some type => exact Constant.isOf_of_convert (mapError_eq_ok.mp h)

/-- The value to record for an object is read off the session, and is of the object's type. -/
theorem leads_constantValue (type : TypeId) (keywords : KeywordSet) (initializer : Option Node) :
    Leads s (constantValue type keywords initializer) fun value u =>
      u = s ∧ ∀ c : Constant, value = some c → c.IsOf (s.types.primitive? type) := by
  rw [constantValue]
  refine Leads.get_bind ?_
  have hnone : ∀ c : Constant, none = some c → c.IsOf (s.types.primitive? type) :=
    fun c hc => by cases hc
  cases initializer with
  | none => exact Leads.pure ⟨rfl, hnone⟩
  | some expression =>
    simp only
    split
    · refine Leads.ofExcept_bind fun c hc => Leads.pure ⟨rfl, fun d hd => ?_⟩
      cases hd
      exact isOf_of_initialValue hc
    · split
      · exact Leads.pure ⟨rfl, fun c hc => isOf_of_initialValue (toOption_eq_some.mp hc)⟩
      · exact Leads.pure ⟨rfl, hnone⟩

theorem leads_redeclareObject {id : SymbolId} (hid : s.table.HasSymbol id) (name : String)
    (type : TypeId) {value : Option Constant}
    (htyped : ∀ c : Constant, value = some c → c.IsOf (s.types.primitive? type)) (span : Span) :
    Leads s (redeclareObject id name type value span) fun _ _ => True := by
  rw [redeclareObject]
  refine Leads.symbol_bind ?_
  cases hentity : (s.table.symbol id).entity with
  | object existing =>
    simp only
    split
    · exact Leads.throw_bind _ _
    · rename_i hfree
      obtain ⟨htype, hfree⟩ := not_or.mp hfree
      rw [← not_not.mp htype] at htyped
      exact .change (exec_modifyTable s _) (.edit_of_eq hid rfl
        (.record existing hentity value hfree htyped)) trivial
  | _ => exact Leads.throw _

def Session.settleObject (declared : Declared) (name : String) (type : TypeId)
    (value : Option Constant) (defines : Bool) (span : Span) : Analysis SymbolId := do
  if !declared.isNew then redeclareObject declared.symbol name type value span
  if defines then modifyTable (·.markDefined declared.symbol)
  return declared.symbol

def Session.introduceObject (name : String) (type : TypeId) (keywords : KeywordSet)
    (initializer : Option Node) (span : Span) : Analysis SymbolId := do
  let value ← constantValue type keywords initializer
  let s ← get
  let declared ← onTable (SymbolTable.declare s.current name .object (.singleton .object)
    span (.object ⟨type, keywords, value⟩))
  settleObject declared name type value (!keywords.contains .external || initializer.isSome) span

theorem declareObject_eq (name : String) (specifiers : Specifiers) (declarator : Declarator)
    (initializer : Option Node) (span : Span) :
    declareObject name specifiers declarator initializer span =
      inHeader >>= fun behind =>
        if behind then
          declareHeaderEntity name .object .variableTemplate initializer.isSome span
        else resolveType instantiate specifiers declarator span >>= fun type => get >>= fun s =>
          if s.types.isFunction type then declareFunction name specifiers declarator span
          else introduceObject name type specifiers.keywords initializer span := rfl

theorem leads_settleObject (hs : s.Closed) {declared : Declared}
    (hdeclared : s.table.HasSymbol declared.symbol) (name : String) {type : TypeId}
    {value : Option Constant}
    (htyped : ∀ c : Constant, value = some c → c.IsOf (s.types.primitive? type))
    (defines : Bool) (span : Span) :
    Leads s (settleObject declared name type value defines span) fun id _ =>
      id = declared.symbol := by
  rw [settleObject]
  have hdefine : ∀ u, u.Closed → s.Grows u → Leads u (do
      if defines then modifyTable (·.markDefined declared.symbol)
      return declared.symbol) fun id _ => id = declared.symbol := by
    intro u hu hgrows
    have hmark := leads_markDefined (hgrows.table.hasSymbol _ hdeclared)
    split
    · exact Leads.bind hu hmark fun _ _ _ _ _ => Leads.pure rfl
    · exact Leads.pure rfl
  dsimp only
  split
  · exact Leads.bind hs (leads_redeclareObject hdeclared name type htyped span)
      fun _ u _ hu hgrows => hdefine u hu hgrows
  · exact hdefine s hs (.refl s)

theorem leads_introduceObject (hs : s.Closed) (name : String) {type : TypeId}
    (htype : s.types.Has type) (hfunction : s.types.isFunction type = false)
    (keywords : KeywordSet) (initializer : Option Node) (span : Span) :
    Leads s (introduceObject name type keywords initializer span) fun id u =>
      s.IsOutside → (u.table.symbol id).kind = .object := by
  rw [introduceObject]
  refine Leads.bind hs (leads_constantValue type keywords initializer) fun value u hu _ _ =>
    Leads.get_bind ?_
  obtain ⟨rfl, htyped⟩ := hu
  refine Leads.bind hs (leads_declare hs name .object span (fun _ _ _ => trivial)
    (AllKnown.nil.cons htype) ⟨hfunction, htyped⟩) fun declared v hdeclared hv hgrows => ?_
  rw [← hgrows.types.primitive?_eq htype] at htyped
  refine (leads_settleObject hv hdeclared.has name htyped _ span).read hv
    fun id w hid _ hgrows' hout => ?_
  rw [hid, (hgrows'.table.symbol _ hdeclared.has).kind_eq, hdeclared.kind_eq hout]

theorem leads_declareObject (hs : s.Closed) (name : String) {specifiers : Specifiers}
    {declarator : Declarator} (hspecifiers : AllKnown s.Known specifiers.handles)
    (hdeclarator : AllKnown s.Known (handlesOfParts declarator)) (initializer : Option Node)
    (span : Span) :
    Leads s (declareObject name specifiers declarator initializer span) fun id u =>
      s.IsOutside → s.DeclaresByType specifiers declarator span id u := by
  rw [declareObject_eq]
  refine Leads.inHeader_bind ?_
  split
  · rename_i hopen
    exact (leads_declareHeaderEntity hs hopen name rfl _ span).mono
      fun _ _ _ hout => absurd hopen (Bool.eq_false_iff.mp hout)
  · have hresolve := steady_resolveType (steady_instantiate s) hs hspecifiers hdeclarator span
    have hkeeps := leavesHeaders_resolveType (s := s) specifiers declarator span
    refine Leads.bind hs hresolve.toLeads.run fun type u hrun hu hgrows => Leads.get_bind ?_
    obtain ⟨hexec, htype⟩ := hrun
    have hresolved := congrArg Prod.fst hexec
    rw [LeavesHeaders, hexec] at hkeeps
    split
    · refine (leads_declareFunction hu name (hgrows.allKnown hspecifiers)
        (hgrows.allKnown hdeclarator) span).mono fun id v hdeclares _ => ?_
      -- The type is resolved once more, and is the same.
      obtain ⟨type', htype', hkind⟩ := hdeclares
      rw [hresolve.again type hresolved u hu (hexec ▸ .refl u)] at htype'
      cases htype'
      exact ⟨type, hresolved, hkind⟩
    · rename_i hobject
      have hobject := Bool.eq_false_iff.mpr hobject
      refine (leads_introduceObject hu name htype hobject specifiers.keywords initializer span).read
        hu fun id v hkind _ hgrows' hout => ⟨type, hresolved, ?_⟩
      rw [hgrows'.types.isFunction_eq htype, hobject, hkind (hkeeps.isOutside hout)]
      rfl

theorem leads_declareSimple (hs : s.Closed) {specifiers : Specifiers} {declarator : Declarator}
    (hspecifiers : AllKnown s.Known specifiers.handles)
    (hdeclarator : AllKnown s.Known (handlesOfParts declarator)) (initializer : Option Node)
    (span : Span) :
    Leads s (declareSimple specifiers declarator initializer span) fun id u =>
      s.IsOutside → specifiers.keywords.contains .typedef = false →
        s.DeclaresByType specifiers declarator span id u := by
  rw [declareSimple]
  cases declarator.name? with
  | none => exact Leads.throw _
  | some name =>
    simp only
    split
    · rename_i htypedef
      refine (leads_declareTypedef hs name ?_ hdeclarator span).mono fun _ _ _ _ h => ?_
      · obtain ⟨keywords, named⟩ := specifiers
        exact hspecifiers
      · cases htypedef.symm.trans h
    · split
      · exact (leads_declareFunction hs name hspecifiers hdeclarator span).mono
          fun _ _ h _ _ => h
      · exact (leads_declareObject hs name hspecifiers hdeclarator initializer span).mono
          fun _ _ h hout _ => h hout

theorem leads_checkStaticAssert (assertion : StaticAssert) :
    Leads s (checkStaticAssert assertion) fun _ _ => True := by
  rw [checkStaticAssert]
  refine Leads.evaluate_bind fun value _ => ?_
  split
  · exact Leads.throw _
  · exact Leads.pure trivial

end TemplateAnalysis
