import TemplateAnalysis.Proofs.Session.Rules

/-!
# Resolving types

A type that has been resolved is resolved to the same type in every later session,
which is not changed by that. The functions that resolve types recurse on trees, and
so does the proof; what an instantiation does is a hypothesis here.
-/

namespace TemplateAnalysis

open Session Analysis

/-! ### Parameter types -/

namespace TypeGraph

variable {g : TypeGraph}

theorem isParameter_unqualified (hg : g.Canonical) {id : TypeId} {l : TypeLabel}
    (hl : g.label? id = some l) (hvoid : g.isVoid id = false)
    (harray : g.isArray id = false) (hfunction : g.isFunction id = false) :
    ∃ l, (g.unqualified id).2.label? (g.unqualified id).1 = some l ∧ l.IsParameter := by
  have hid : g.Has id := has_of_label? hl
  have hlabel : g.label id = l := label_eq_of_label? hl
  rcases l with key | ⟨operand, op⟩
  · have hkey : ∀ q, key.withQualifiers q ≠ .primitive .void .none := by
      rintro q hq
      cases key with
      | primitive p own =>
        cases hq
        simp [isVoid, primitive?, hlabel] at hvoid
      | symbol _ _ => cases hq
    by_cases hq : key.qualifiers.isNone = true
    · refine ⟨.base key, ?_, (Qualifiers.isNone_iff _).mp hq, ?_⟩
      · simpa [unqualified, hlabel, hq] using hl
      · have := hkey key.qualifiers
        cases key <;> exact this
    · refine ⟨.base (key.withQualifiers .none), ?_, ?_, hkey .none⟩
      · simpa [unqualified, hlabel, hq] using (base_spec hg (key.withQualifiers .none)).2.2.1
      · cases key <;> rfl
  · cases op with
    | pointer q =>
      by_cases hq : q.isNone = true
      · refine ⟨.derived operand (.pointer q), ?_, (Qualifiers.isNone_iff _).mp hq⟩
        simpa [unqualified, hlabel, hq] using hl
      · have hoperand : g.Has operand := hg.has_operand hl (by simp [TypeLabel.operands])
        refine ⟨.derived operand (.pointer .none), ?_, rfl⟩
        have hspec := (derive_spec hg (.pointer .none) hoperand
          (by simp [TypeOp.parameters])).2.2.1
        simpa [unqualified, hlabel, hq, pointer] using hspec
    | lvalueReference =>
      refine ⟨.derived operand .lvalueReference, ?_, trivial⟩
      simpa [unqualified, hlabel] using hl
    | rvalueReference =>
      refine ⟨.derived operand .rvalueReference, ?_, trivial⟩
      simpa [unqualified, hlabel] using hl
    | array _ => simp [isArray, op?, hlabel] at harray
    | function _ _ _ => simp [isFunction, op?, hlabel] at hfunction

/-- An adjusted type that is not `void` can be that of a parameter. -/
theorem isParameter_adjusted (hg : g.Canonical) {id : TypeId} (hid : g.Has id)
    (hvoid : g.isVoid id = false) :
    ∃ l, (g.adjusted id).2.label? (g.adjusted id).1 = some l ∧ l.IsParameter := by
  obtain ⟨l, hl, hlabel⟩ := exists_label? hid
  have hpointer : ∀ target, g.Has target →
      ∃ l, (g.pointer target .none).2.label? (g.pointer target .none).1 = some l ∧
        l.IsParameter := fun target htarget =>
    ⟨_, (derive_spec hg (.pointer .none) htarget (by simp [TypeOp.parameters])).2.2.1, rfl⟩
  rcases l with key | ⟨operand, op⟩
  · rw [adjusted, hlabel]
    exact isParameter_unqualified hg hl hvoid (by simp [isArray, op?, hlabel])
      (by simp [isFunction, op?, hlabel])
  · cases op with
    | array bound =>
      rw [adjusted, hlabel]
      exact hpointer operand (hg.has_operand hl (by simp [TypeLabel.operands]))
    | function _ _ _ =>
      rw [adjusted, hlabel]
      exact hpointer id hid
    | pointer _ | lvalueReference | rvalueReference =>
      rw [adjusted, hlabel]
      exact isParameter_unqualified hg hl hvoid (by simp [isArray, op?, hlabel])
        (by simp [isFunction, op?, hlabel])

end TypeGraph

/-! ### Forming types -/

variable {s : Session}

theorem steady_onTypes (hs : s.Closed) (op : TypeGraph.Operation)
    {f : TypeGraph → TypeId × TypeGraph} (hf : ∀ g, op.apply g = .ok (f g))
    (hon : op.IsOn s.types) (hknown : ∀ y ∈ op.symbols, s.table.HasSymbol y)
    (hformed : op.IsFormed s.types) :
    Steady s (onTypes f) (onTypes f) fun id u =>
      u.types.Has id ∧ id = (f s.types).1 ∧ u = { s with types := (f s.types).2 } := by
  have hafter : op.after s.types = (f s.types).2 := by rw [TypeGraph.Operation.after, hf]
  have hhas : (f s.types).2.Has (f s.types).1 :=
    TypeGraph.Operation.has_of_apply hs.types hon (hf s.types)
  have hchange : s.Change .plain { s with types := (f s.types).2 } :=
    hafter ▸ Session.Change.form op hon hknown hformed
  refine ⟨.change (exec_onTypes s f) hchange ⟨hhas, rfl, rfl⟩, fun id _ => ?_,
    fun id hid u hu hgrows => ?_⟩
  · rw [exec_onTypes]
    exact .of_symbol_eq fun _ _ => rfl
  rw [exec_onTypes] at hid hgrows ⊢
  have hagain := TypeGraph.Operation.apply_again hs.types hon (hf s.types) hu.types hgrows.types
  have heq := Except.ok.inj ((hf u.types).symm.trans hagain)
  cases hid
  rw [heq]

/-- A step that only reads the session is steady if what it reads stays. -/
theorem Steady.reads {α : Type} {first second : Analysis α} {r r' : Session → Except Diagnostic α}
    {post : α → Session → Prop} (hfirst : ∀ u, exec first u = (r u, u))
    (hsecond : ∀ u, exec second u = (r' u, u))
    (hr : ∀ u, u.Closed → s.Grows u → Persists (r s) (r' u))
    (hpost : ∀ a, r s = .ok a → post a s) : Steady s first second post := by
  refine ⟨.changes_of_eq (hfirst s) .refl hpost, fun a _ => ?_, fun a ha u hu hgrows => ?_⟩
  · rw [hfirst]
    exact .refl s _
  · rw [hfirst] at ha hgrows
    rw [hsecond, hr u hu hgrows a ha]

theorem exec_rejectType (fault? : TypeGraph → Option TypeFault) (span : Span) (s : Session) :
    exec (rejectType fault? span) s =
      ((match fault? s.types with
        | some fault => .error (.invalidType span fault)
        | none => .ok ()), s) := by
  rw [rejectType, exec_get_bind]
  cases fault? s.types <;> rfl

theorem steady_rejectType {fault? : TypeGraph → Option TypeFault} (span : Span)
    (hfault : ∀ g, s.types.Prefix g → fault? g = fault? s.types) :
    Steady s (rejectType fault? span) (rejectType fault? span) fun _ u =>
      u = s ∧ fault? s.types = none := by
  have hexec := exec_rejectType fault? span
  refine Steady.reads hexec hexec (fun u _ hgrows => ?_) fun _ h => ⟨rfl, ?_⟩
  · rw [hfault u.types hgrows.types]
    exact .refl _
  · cases hf : fault? s.types with
    | none => rfl
    | some fault => simp [hf] at h

theorem exec_arrayBound (expression : Node) (s : Session) :
    exec (arrayBound expression) s =
      (s.table.evaluate expression >>= fun value =>
        match value.uint64? with
        | some n => .ok n
        | none => .error (.notConstant expression.span (.arrayBound value)), s) := by
  rw [arrayBound, exec_bind, exec_evaluate]
  cases s.table.evaluate expression with
  | error d => rfl
  | ok value =>
    cases hvalue : value.uint64? with
    | none => simp [bind, Except.bind, hvalue]
    | some n => simp [bind, Except.bind, hvalue]

theorem steady_arrayBound (expression : Node) :
    Steady s (arrayBound expression) (arrayBound expression) fun _ u => u = s := by
  have hexec := exec_arrayBound expression
  exact Steady.reads hexec hexec
    (fun u _ hgrows => (hgrows.table.evaluate_persists expression).bind fun _ => .refl _)
    fun _ _ => rfl

theorem exec_keywordType (keywords : KeywordSet) (span : Span) (s : Session) :
    exec (keywordType keywords span) s =
      match Primitive.ofKeywords keywords with
      | .ok p => exec (onTypes (·.primitive p keywords.qualifiers)) s
      | .error fault => exec (throw (.invalidType span (.keywords fault))) s := by
  rw [keywordType, exec_get_bind, TypeGraph.ofKeywords]
  cases Primitive.ofKeywords keywords with
  | error fault => rfl
  | ok p => rfl

theorem steady_keywordType (hs : s.Closed) (keywords : KeywordSet) (span : Span) :
    Steady s (keywordType keywords span) (keywordType keywords span) fun id u =>
      u.types.Has id := by
  have hexec := exec_keywordType keywords span
  cases hk : Primitive.ofKeywords keywords with
  | error fault =>
    refine Steady.error (d := .invalidType span (.keywords fault)) ?_ _
    rw [hexec s, hk]
    rfl
  | ok p =>
    have hform := steady_onTypes hs (.primitive p keywords.qualifiers) (fun _ => rfl)
      (TypeGraph.Operation.isOn_of_operands_nil rfl)
      (by simp [TypeGraph.Operation.symbols]) trivial
    refine (hform.mono fun id u h => h.1).congr ?_ (fun u _ _ => ?_) hs
    · rw [hexec s, hk]
    · rw [hexec u, hk]

theorem exec_typeOfSymbol_of_some {id : SymbolId} {type : TypeId}
    (h : (s.table.symbol id).type = some type) : exec (typeOfSymbol id) s = (.ok type, s) := by
  rw [typeOfSymbol, exec_symbol_bind, h]
  rfl

theorem exec_typeOfSymbol_of_none {id : SymbolId} (h : (s.table.symbol id).type = none) :
    exec (typeOfSymbol id) s =
      (.ok (s.types.symbolType id .none).1,
        { s with
          types := (s.types.symbolType id .none).2
          table := s.table.modifySymbol id fun x =>
            { x with type := some (s.types.symbolType id .none).1 } }) := by
  rw [typeOfSymbol, exec_symbol_bind, h]
  rfl

/-- Asking for the type of a symbol is steady, and gives the type of this symbol. -/
theorem steady_typeOfSymbol (hs : s.Closed) {id : SymbolId} (hid : s.table.HasSymbol id) :
    Steady s (typeOfSymbol id) (typeOfSymbol id) fun type u =>
      u.types.label? type = some (.base (.symbol id .none)) := by
  cases htype : (s.table.symbol id).type with
  | some type =>
    have hexec := exec_typeOfSymbol_of_some htype
    refine ⟨.changes_of_eq hexec .refl fun a ha => ?_, fun a _ => ?_, fun a ha u hu hgrows => ?_⟩
    · cases ha
      exact (hs.symbol id hid).type_label type htype
    · rw [hexec]
      exact .refl s _
    · rw [hexec] at ha hgrows
      cases ha
      exact exec_typeOfSymbol_of_some ((hgrows.table.symbol id hid).type type htype)
  | none =>
    have hbase := TypeGraph.base_spec hs.types (.symbol id .none)
    have hexec := exec_typeOfSymbol_of_none htype
    have hform : s.Change .plain { s with types := (s.types.symbolType id .none).2 } :=
      .form (.symbolType id .none)
        (TypeGraph.Operation.isOn_of_operands_nil rfl)
        (by simpa [TypeGraph.Operation.symbols] using hid) trivial
    have hremember := Session.Change.edit (s := { s with types := (s.types.symbolType id .none).2 })
      id (fun x => { x with type := some (s.types.symbolType id .none).1 }) hid
      (.remember _ htype hbase.2.2.1)
    refine ⟨.changes_of_eq hexec (.tail (.single hform) hremember) fun a ha => ?_, fun a _ => ?_,
      fun a ha u hu hgrows => ?_⟩
    · cases ha
      exact hbase.2.2.1
    · rw [hexec]
      intro j _
      rw [SymbolTable.symbol_modifySymbol]
      split
      · exact ⟨_, rfl⟩
      · exact ⟨_, rfl⟩
    · rw [hexec] at ha hgrows
      cases ha
      refine exec_typeOfSymbol_of_some ((hgrows.table.symbol id ?_).type _ ?_)
      · exact (s.table.hasSymbol_modifySymbol _ _ _).mpr hid
      · rw [SymbolTable.symbol_modifySymbol_self _ hid]

theorem exec_namedType (text : String) (id : SymbolId) (span : Span) (s : Session) :
    exec (namedType text id span) s =
      match (s.table.symbol id).entity with
      | .classType _ | .enumeration _ => exec (typeOfSymbol id) s
      | .typedef target => (.ok target, s)
      | .templateParameter _ => (.error ⟨.dependentType text, span⟩, s)
      | _ => (.error ⟨.notAType text, span⟩, s) := by
  rw [namedType, exec_symbol_bind]
  cases (s.table.symbol id).entity <;> rfl

/-- Whether an entity is a class, an enum or neither stays, and so does the target of
a typedef. -/
theorem steady_namedType (hs : s.Closed) (text : String) {id : SymbolId}
    (hid : s.table.HasSymbol id) (span : Span) :
    Steady s (namedType text id span) (namedType text id span) fun type u =>
      u.types.Has type := by
  have hexec := exec_namedType text id span
  have hlater : ∀ u : Session, s.Grows u →
      (s.table.symbol id).entity.Grows (u.table.symbol id).entity :=
    fun u hgrows => (hgrows.table.symbol id hid).entity
  have hclass : Steady s (typeOfSymbol id) (typeOfSymbol id) fun type u => u.types.Has type :=
    (steady_typeOfSymbol hs hid).mono fun _ _ h => TypeGraph.has_of_label? h
  cases hentity : (s.table.symbol id).entity with
  | classType data =>
    refine hclass.congr ?_ (fun u _ hgrows => ?_) hs
    · rw [hexec, hentity]
    · rw [hexec]
      have hgrows := hlater u hgrows
      rw [hentity] at hgrows
      generalize (u.table.symbol id).entity = e at hgrows
      cases hgrows <;> rfl
  | enumeration data =>
    refine hclass.congr ?_ (fun u _ hgrows => ?_) hs
    · rw [hexec, hentity]
    · rw [hexec]
      have hgrows := hlater u hgrows
      rw [hentity] at hgrows
      generalize (u.table.symbol id).entity = e at hgrows
      cases hgrows <;> rfl
  | typedef target =>
    have hhas : s.types.Has target := by
      have hknown := (hs.symbol id hid).known
      rw [hentity] at hknown
      exact hknown (.type target) (by simp [Entity.handles])
    refine (Steady.pure hhas).congr ?_ (fun u _ hgrows => ?_) hs
    · rw [hexec, hentity, exec_pure]
    · rw [hexec]
      have hgrows := hlater u hgrows
      rw [hentity] at hgrows
      generalize (u.table.symbol id).entity = e at hgrows
      cases hgrows
      rfl
  | templateParameter _ =>
    refine Steady.error (d := ⟨.dependentType text, span⟩) ?_ _
    rw [hexec, hentity]
  | nameSpace | enumerator _ | function _ | object _ | template _ =>
    refine Steady.error (d := ⟨.notAType text, span⟩) ?_ _
    rw [hexec, hentity]

/-! ### Nodes, specifiers and declarators -/

/-- What a way to get instances does from a session on: it leads to a class, and the
second way gives the same class for the same arguments in every later session. -/
def Instantiator.Steady (s : Session) (first second : Instantiator) : Prop :=
  ∀ u, s.Grows u → u.Closed → ∀ (template : SymbolId) (args : List Node) (span span' : Span),
    u.table.HasSymbol template → AllKnown u.Known (handlesOfNodes args) →
    TemplateAnalysis.Steady u (first template args span) (second template args span')
      fun i v => v.table.IsClass i

theorem Instantiator.Steady.later {u : Session} {first second : Instantiator}
    (h : first.Steady s second) (hgrows : s.Grows u) : first.Steady u second :=
  fun v hv => h v (hgrows.trans hv)

theorem pointerFault?_eq {g h : TypeGraph} (hp : g.Prefix h) {id : TypeId} (hid : g.Has id) :
    pointerFault? h id = pointerFault? g id := by
  rw [pointerFault?, pointerFault?, hp.isReference_eq hid]

theorem referenceFault?_eq {g h : TypeGraph} (hp : g.Prefix h) {id : TypeId} (hid : g.Has id) :
    referenceFault? h id = referenceFault? g id := by
  rw [referenceFault?, referenceFault?, hp.isVoid_eq hid]

theorem arrayFault?_eq {g h : TypeGraph} (hp : g.Prefix h) {id : TypeId} (hid : g.Has id) :
    arrayFault? h id = arrayFault? g id := by
  rw [arrayFault?, arrayFault?, hp.isReference_eq hid, hp.isFunction_eq hid, hp.isVoid_eq hid]

theorem functionFault?_eq {g h : TypeGraph} (hp : g.Prefix h) {id : TypeId} (hid : g.Has id) :
    functionFault? h id = functionFault? g id := by
  rw [functionFault?, functionFault?, hp.isArray_eq hid, hp.isFunction_eq hid]

theorem steady_formed (hs : s.Closed) {fault? : TypeGraph → Option TypeFault} (span : Span)
    (op : TypeGraph.Operation) {f : TypeGraph → TypeId × TypeGraph}
    (hf : ∀ g, op.apply g = .ok (f g))
    (hfault : ∀ g, s.types.Prefix g → fault? g = fault? s.types) (hon : op.IsOn s.types)
    (hknown : ∀ y ∈ op.symbols, s.table.HasSymbol y)
    (hformed : fault? s.types = none → op.IsFormed s.types) :
    Steady s (do rejectType fault? span; onTypes f) (do rejectType fault? span; onTypes f)
      fun type u => u.types.Has type := by
  refine (steady_rejectType span hfault).bind hs fun _ u hu _ _ => ?_
  obtain ⟨rfl, hnone⟩ := hu
  exact (steady_onTypes hs op hf hon hknown (hformed hnone)).mono fun _ _ h => h.1

/-- The parameter that a resolved type gives, if it gives one. -/
theorem steady_parameterOf (hs : s.Closed) {type : TypeId} (htype : s.types.Has type)
    (named : Bool) (span : Span) :
    let step : Analysis (Option TypeId) := do
      if (← get).types.isVoid type then
        if named then return none else throw (.invalidType span .voidParameter)
      else return some (← onTypes (·.adjusted type))
    Steady s step step fun type u =>
      ∀ p ∈ type, ∃ l, u.types.label? p = some l ∧ l.IsParameter := by
  intro step
  by_cases hvoid : s.types.isVoid type = true
  · have hexec : ∀ u : Session, u.types.isVoid type = true → exec step u =
        exec (if named then pure none else throw (.invalidType span .voidParameter)) u := by
      intro u hu
      rw [exec_get_bind, if_pos hu]
    have hnone : Steady s (if named then pure none else throw (.invalidType span .voidParameter))
        (if named then pure none else throw (.invalidType span .voidParameter))
        fun (type : Option TypeId) u =>
          ∀ p ∈ type, ∃ l, u.types.label? p = some l ∧ l.IsParameter := by
      split
      · exact Steady.pure (by simp)
      · exact Steady.throw _ _
    refine hnone.congr (hexec s hvoid) (fun u _ hgrows => hexec u ?_) hs
    rw [hgrows.types.isVoid_eq htype, hvoid]
  · have hexec : ∀ u : Session, u.types.isVoid type ≠ true → exec step u =
        exec (do return some (← onTypes (·.adjusted type))) u := by
      intro u hu
      rw [exec_get_bind, if_neg hu]
    have hform := steady_onTypes hs (.adjusted type) (fun _ => rfl)
      (TypeGraph.Operation.isOn_of_operands rfl htype)
      (by simp [TypeGraph.Operation.symbols]) trivial
    have hsome : Steady s (do return some (← onTypes (·.adjusted type)))
        (do return some (← onTypes (·.adjusted type))) fun (type : Option TypeId) u =>
          ∀ p ∈ type, ∃ l, u.types.label? p = some l ∧ l.IsParameter := by
      refine hform.bind hs fun p u hp _ _ => Steady.pure ?_
      obtain ⟨_, rfl, rfl⟩ := hp
      intro p hp
      cases hp
      exact TypeGraph.isParameter_adjusted hs.types htype (by simpa using hvoid)
    refine hsome.congr (hexec s hvoid) (fun u _ hgrows => hexec u ?_) hs
    rw [hgrows.types.isVoid_eq htype]
    exact hvoid

section Trees

variable {inst inst' : Instantiator}

mutual

theorem steady_resolveNode :
    ∀ (node : Node) {s : Session}, inst.Steady s inst' → s.Closed → AllKnown s.Known node.handles →
      Steady s (resolveNode inst node) (resolveNode inst' node) fun type u => u.types.Has type
  | .typeId specifiers declarator span, s, hinst, hs, h => by
    rw [resolveNode, resolveNode]
    refine (steady_resolveSpecifiers span specifiers hinst hs h.left).bind hs
      fun type u htype hu hgrows => ?_
    exact steady_applyParts declarator (hinst.later hgrows) hu htype (hgrows.allKnown h.right)
  | .resolvedType type _ _, s, _, hs, h => by
    rw [resolveNode, resolveNode]
    exact Steady.pure h.head
  | .paren inner _, s, hinst, hs, h => by
    rw [resolveNode, resolveNode]
    exact steady_resolveNode inner hinst hs h
  | .name text id span, s, _, hs, h => by
    rw [resolveNode, resolveNode]
    exact steady_namedType hs text h.head span
  | .templateId template _ arguments span, s, hinst, hs, h => by
    rw [resolveNode, resolveNode]
    exact (hinst s (.refl s) hs template arguments span span h.head h.tail).bind hs
      fun i u hi hu _ => (steady_typeOfSymbol hu hi.1).mono fun _ _ h => TypeGraph.has_of_label? h
  | .typeParameter _ _ _, _, _, _, _ | .valueParameter _ _ _, _, _, _, _
  | .literal _ _, _, _, _, _ | .unary _ _ _, _, _, _, _ | .binary _ _ _ _, _, _, _, _
  | .conditional _ _ _ _, _, _, _, _ | .packExpansion _ _, _, _, _, _ | .base _, _, _, _, _
  | .member _, _, _, _, _ | .staticAssert _, _, _, _, _ | .classBody _, _, _, _, _ =>
    Steady.throw _ _
termination_by structural node => node

theorem steady_resolveSpecifiers (span : Span) :
    ∀ (specifiers : Specifiers) {s : Session}, inst.Steady s inst' → s.Closed →
      AllKnown s.Known specifiers.handles →
      Steady s (resolveSpecifiers inst span specifiers) (resolveSpecifiers inst' span specifiers)
        fun type u => u.types.Has type
  | ⟨keywords, none⟩, s, _, hs, _ => by
    rw [resolveSpecifiers, resolveSpecifiers]
    exact steady_keywordType hs keywords span
  | ⟨keywords, some named⟩, s, hinst, hs, h => by
    rw [resolveSpecifiers, resolveSpecifiers]
    by_cases hkeywords : keywords.specifiesType = true
    · rw [if_pos hkeywords]
      exact Steady.throw_bind _ _ _
    · rw [if_neg hkeywords, if_neg hkeywords]
      refine (steady_resolveNode named hinst hs h).bind hs fun type u htype hu _ => ?_
      exact (steady_onTypes hu (.qualify type keywords.qualifiers) (fun _ => rfl)
        (TypeGraph.Operation.isOn_of_operands rfl htype)
        (by simp [TypeGraph.Operation.symbols]) trivial).mono fun _ _ h => h.1
termination_by structural specifiers => specifiers

theorem steady_applyPart :
    ∀ (part : DeclaratorPart) {s : Session} {current : TypeId}, inst.Steady s inst' → s.Closed →
      s.types.Has current → AllKnown s.Known part.handles →
      Steady s (applyPart inst current part) (applyPart inst' current part)
        fun type u => u.types.Has type
  | .name _ _, s, current, _, hs, hcurrent, _ => by
    rw [applyPart, applyPart]
    exact Steady.pure hcurrent
  | .pointer qualifiers span, s, current, _, hs, hcurrent, _ => by
    rw [applyPart, applyPart]
    exact steady_formed hs span (.pointer current qualifiers) (fun _ => rfl)
      (fun g hg => pointerFault?_eq hg hcurrent)
      (TypeGraph.Operation.isOn_of_operands rfl hcurrent)
      (by simp [TypeGraph.Operation.symbols]) id
  | .lvalueReference span, s, current, _, hs, hcurrent, _ => by
    rw [applyPart, applyPart]
    exact steady_formed hs span (.lvalueReference current) (fun _ => rfl)
      (fun g hg => referenceFault?_eq hg hcurrent)
      (TypeGraph.Operation.isOn_of_operands rfl hcurrent)
      (by simp [TypeGraph.Operation.symbols]) id
  | .rvalueReference span, s, current, _, hs, hcurrent, _ => by
    rw [applyPart, applyPart]
    exact steady_formed hs span (.rvalueReference current) (fun _ => rfl)
      (fun g hg => referenceFault?_eq hg hcurrent)
      (TypeGraph.Operation.isOn_of_operands rfl hcurrent)
      (by simp [TypeGraph.Operation.symbols]) id
  | .array none span, s, current, _, hs, hcurrent, _ => by
    rw [applyPart, applyPart]
    exact steady_formed hs span (.array current none) (fun _ => rfl)
      (fun g hg => arrayFault?_eq hg hcurrent)
      (TypeGraph.Operation.isOn_of_operands rfl hcurrent)
      (by simp [TypeGraph.Operation.symbols]) id
  | .array (some expression) span, s, current, _, hs, hcurrent, _ => by
    rw [applyPart, applyPart]
    refine (steady_rejectType span fun g hg => arrayFault?_eq hg hcurrent).bind hs
      fun _ u hu _ _ => ?_
    obtain ⟨rfl, hnone⟩ := hu
    refine (steady_arrayBound expression).bind hs fun n u hu _ _ => ?_
    subst hu
    exact (steady_onTypes hs (.array current (some n)) (fun _ => rfl)
      (TypeGraph.Operation.isOn_of_operands rfl hcurrent)
      (by simp [TypeGraph.Operation.symbols]) hnone).mono fun _ _ h => h.1
  | .function parameters variadic qualifiers span, s, current, hinst, hs, hcurrent, h => by
    rw [applyPart, applyPart]
    refine (steady_rejectType span fun g hg => functionFault?_eq hg hcurrent).bind hs
      fun _ u hu _ _ => ?_
    obtain ⟨rfl, hnone⟩ := hu
    refine (steady_resolveParameters _ parameters hinst hs h).bind hs
      fun types u htypes hu hgrows => ?_
    have hon : (TypeGraph.Operation.function current types variadic qualifiers).IsOn u.types := by
      intro o ho
      rcases List.mem_cons.mp ho with rfl | ho
      · exact hgrows.types.has hcurrent
      · obtain ⟨l, hl, _⟩ := htypes o ho
        exact TypeGraph.has_of_label? hl
    exact (steady_onTypes hu (.function current types variadic qualifiers) (fun _ => rfl) hon
      (by simp [TypeGraph.Operation.symbols])
      ⟨(functionFault?_eq hgrows.types hcurrent).trans hnone, htypes⟩).mono fun _ _ h => h.1
termination_by structural part => part

theorem steady_applyParts :
    ∀ (parts : List DeclaratorPart) {s : Session} {current : TypeId}, inst.Steady s inst' →
      s.Closed → s.types.Has current → AllKnown s.Known (handlesOfParts parts) →
      Steady s (applyParts inst current parts) (applyParts inst' current parts)
        fun type u => u.types.Has type
  | [], s, current, _, hs, hcurrent, _ => by
    rw [applyParts, applyParts]
    exact Steady.pure hcurrent
  | part :: rest, s, current, hinst, hs, hcurrent, h => by
    rw [applyParts, applyParts]
    exact (steady_applyPart part hinst hs hcurrent h.left).bind hs fun type u htype hu hgrows =>
      steady_applyParts rest (hinst.later hgrows) hu htype (hgrows.allKnown h.right)
termination_by structural parts => parts

theorem steady_resolveParameter (alone : Bool) :
    ∀ (parameter : FunctionParameter) {s : Session}, inst.Steady s inst' → s.Closed →
      AllKnown s.Known parameter.handles →
      Steady s (resolveParameter inst alone parameter) (resolveParameter inst' alone parameter)
        fun type u => ∀ p ∈ type, ∃ l, u.types.label? p = some l ∧ l.IsParameter
  | ⟨specifiers, declarator, _, span⟩, s, hinst, hs, h => by
    rw [resolveParameter, resolveParameter]
    refine (steady_resolveSpecifiers span specifiers hinst hs h.left.left).bind hs
      fun base u hbase hu hgrows => ?_
    refine (steady_applyParts declarator (hinst.later hgrows) hu hbase
      (hgrows.allKnown h.left.right)).bind hu fun type v htype hv _ => ?_
    exact steady_parameterOf hv htype (alone && declarator.isEmpty) span
termination_by structural parameter => parameter

theorem steady_resolveParameters (alone : Bool) :
    ∀ (parameters : List FunctionParameter) {s : Session}, inst.Steady s inst' → s.Closed →
      AllKnown s.Known (handlesOfParameters parameters) →
      Steady s (resolveParameters inst alone parameters) (resolveParameters inst' alone parameters)
        fun types u => ∀ p ∈ types, ∃ l, u.types.label? p = some l ∧ l.IsParameter
  | [], s, _, hs, _ => by
    rw [resolveParameters, resolveParameters]
    exact Steady.pure (by simp)
  | parameter :: rest, s, hinst, hs, h => by
    rw [resolveParameters, resolveParameters]
    refine (steady_resolveParameter alone parameter hinst hs h.left).bind hs
      fun type u htype hu hgrows => ?_
    refine (steady_resolveParameters alone rest (hinst.later hgrows) hu
      (hgrows.allKnown h.right)).bind hu fun types v htypes _ hgrows => Steady.pure fun p hp => ?_
    rcases List.mem_append.mp hp with hp | hp
    · obtain ⟨l, hl, hparameter⟩ := htype p (Option.mem_toList.mp hp)
      exact ⟨l, hgrows.types p l hl, hparameter⟩
    · exact htypes p hp
termination_by structural parameters => parameters

end

theorem steady_resolveType (hinst : inst.Steady s inst') (hs : s.Closed) {specifiers : Specifiers}
    {declarator : Declarator} (hspecifiers : AllKnown s.Known specifiers.handles)
    (hdeclarator : AllKnown s.Known (handlesOfParts declarator)) (span : Span) :
    Steady s (resolveType inst specifiers declarator span)
      (resolveType inst' specifiers declarator span) fun type u => u.types.Has type :=
  (steady_resolveSpecifiers span specifiers hinst hs hspecifiers).bind hs
    fun _ _ htype hu hgrows => steady_applyParts declarator (hinst.later hgrows) hu htype
      (hgrows.allKnown hdeclarator)

end Trees

end TemplateAnalysis
