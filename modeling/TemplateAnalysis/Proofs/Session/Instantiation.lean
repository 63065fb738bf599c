import TemplateAnalysis.Proofs.Session.Binding
import TemplateAnalysis.Proofs.Session.Depth
import TemplateAnalysis.Proofs.SymbolTable.Containers

/-!
# Instances stay

An instance is found under its key from the moment it is registered, whatever comes
after, and its key is made of names that stay. So instantiation is steady: what it
has returned it returns again, and then changes nothing. Instances are made inside of
each other; the proof goes by induction on how deep they may be nested.
-/

namespace TemplateAnalysis

open Session Analysis

variable {inst inst' : Instantiator} {s : Session}

/-! ### Keys -/

namespace TemplateArgument

variable {f g : TypeId → String}

mutual

theorem encoding_congr : ∀ argument : TemplateArgument,
    (∀ id, Handle.type id ∈ argument.handles → f id = g id) →
      argument.encoding f = argument.encoding g
  | type id _, h => h id (by simp [handles])
  | value _, _ => rfl
  | pack _ elements, h => by rw [encoding, encoding, encodings_congr elements h]
termination_by structural argument => argument

theorem encodings_congr : ∀ args : List TemplateArgument,
    (∀ id, Handle.type id ∈ handlesOfArguments args → f id = g id) →
      encodings f args = encodings g args
  | [], _ => rfl
  | argument :: rest, h => by
    rw [encodings, encodings,
      encoding_congr argument fun id hid => h id (List.mem_append_left _ hid),
      encodings_congr rest fun id hid => h id (List.mem_append_right _ hid)]
termination_by structural args => args

end

end TemplateArgument

theorem Session.Closed.instanceKey_eq (hs : s.Closed) {u : Session} (hu : u.Closed)
    (h : s.Grows u) (mangled : String) {args : Arguments}
    (hargs : AllKnown s.Known (handlesOfArguments args)) :
    instanceKey (u.table.typeEncoding u.types) mangled args =
      instanceKey (s.table.typeEncoding s.types) mangled args := by
  rw [instanceKey, instanceKey, TemplateArgument.encodings_congr args fun id hid =>
    hs.typeEncoding_eq hu h (hargs (.type id) hid)]

theorem isClass_of_lookupIn {t : SymbolTable} (ht : t.Linked) {scope : ScopeId} {name : String}
    {id : SymbolId} (h : t.lookupIn scope name (.singleton .classType) = some id) :
    t.IsClass id := by
  have hkind := List.find?_some h
  rw [KindSet.accepts_singleton, decide_eq_true_eq] at hkind
  exact ⟨ht.named_has (List.mem_of_find?_eq_some h), hkind.symm⟩

/-- An instance is found under its key once it is registered. -/
theorem lookupIn_declareInstance (hs : s.Closed) {scope : ScopeId}
    (hscope : s.table.HasScope scope) {key : String} (shown : String) (keyword : ClassKey)
    {origin : InstanceOrigin} (horigin : AllKnown s.Known origin.handles) (span : Span)
    (hnone : s.table.lookupIn scope key (.singleton .classType) = none) :
    (s.table.declareInstance scope key shown keyword origin span).2.lookupIn scope key
      (.singleton .classType) = some s.table.nextSymbol := by
  have hpush := hs.pushSymbol key
    (x := ⟨shown, key, .ofInstance (s.table.scopePath scope) key, scope, none, false, none, span,
      .classType ⟨keyword, [], [], some origin⟩⟩) (.fresh rfl rfl hscope horigin)
  refine SymbolTable.Grows.lookupIn_eq (.pushOwnScope ?_ .classBody scope) hpush.linked
    ((s.table.hasScope_pushSymbol _ _ _).mpr hscope) ?_
  · exact congrArg Symbol.scope ((s.table.symbol_pushSymbol key _ _).trans (if_pos rfl))
  · -- The symbols that were there are no classes, and the new one is behind them.
    rw [SymbolTable.lookupIn, SymbolTable.scope_pushSymbol, if_pos ⟨rfl, hscope⟩,
      Scope.named_insert, if_pos (by simp), List.find?_append]
    have hold : ((s.table.scope scope).named key).find? (fun id =>
        (KindSet.singleton .classType).accepts
          ((s.table.pushSymbol key ⟨shown, key, .ofInstance (s.table.scopePath scope) key, scope,
            none, false, none, span, .classType ⟨keyword, [], [], some origin⟩⟩).2.symbol
              id).kind) = none := by
      rw [List.find?_eq_none]
      intro y hy
      have hkind := List.find?_eq_none.mp hnone y hy
      rw [SymbolTable.symbol_pushSymbol, if_neg]
      · exact hkind
      · rintro rfl
        exact s.table.not_hasSymbol_nextSymbol (hs.linked.named_has hy)
    rw [hold, Option.none_or, List.find?_cons_of_pos]
    rw [SymbolTable.symbol_pushSymbol, if_pos rfl, KindSet.accepts_singleton]
    exact decide_eq_true rfl

/-! ### Bases -/

/-- The class that a name denotes is one, and stays the one that it denotes. -/
theorem steady_resolveClass (hinst : inst.Steady s inst') (hs : s.Closed) {node : Node}
    (h : AllKnown s.Known node.handles) :
    Steady s (resolveClass inst node) (resolveClass inst' node) fun id u => u.table.IsClass id := by
  rw [resolveClass, resolveClass]
  refine ((steady_resolveNode node hinst hs h).mapFault (asBaseFault node)).bind hs
    fun type u htype hu _ => ?_
  have hform := steady_onTypes hu (.unqualified type) (fun _ => rfl)
    (TypeGraph.Operation.isOn_of_operands rfl htype)
    (by simp [TypeGraph.Operation.symbols]) trivial
  refine hform.bind hu fun id v hid hv _ => ?_
  cases hsymbol : v.types.symbol? id with
  | none =>
    refine Steady.error (d := ⟨.notAClass node.text, node.span⟩) ?_ _
    rw [exec_get_bind, hsymbol, exec_throw]
  | some y =>
    by_cases hkind : (v.table.symbol y).kind = .classType
    · obtain ⟨q, hlabel⟩ := TypeGraph.label_of_symbol? hsymbol
      have hhas := hv.base_has id y q (TypeGraph.label?_eq_of_label hid.1 hlabel)
      have hclass : v.table.IsClass y := ⟨hhas, hkind⟩
      refine (Steady.pure hclass).congr ?_ (fun w _ hgrows => ?_) hv
      · rw [exec_get_bind, hsymbol]
        exact congrArg (exec · v) (if_pos hkind)
      · have hsame : w.types.symbol? id = some y := by
          rw [TypeGraph.symbol?, hgrows.types.label_eq hid.1, ← TypeGraph.symbol?, hsymbol]
        rw [exec_get_bind, hsame]
        exact congrArg (exec · w) (if_pos (hgrows.table.isClass hclass).2)
    · refine Steady.error (d := ⟨.notAClass node.text, node.span⟩) ?_ _
      rw [exec_get_bind, hsymbol]
      exact congrArg (exec · v) (if_neg hkind)

/-- A class that is not complete, with what is known of it. -/
structure Session.IsOpenClass (u : Session) (id : SymbolId) (data : ClassData) : Prop where
  has : u.table.HasSymbol id
  entity : (u.table.symbol id).entity = .classType data
  undefined : (u.table.symbol id).isDefined = false

def Session.Others (s : Session) (id : SymbolId) : SymbolId → Prop :=
  fun other => s.table.HasSymbol other ∧ other ≠ id

namespace Session.IsOpenClass

variable {id : SymbolId} {data : ClassData}

theorem spared {u : Session} (h : s.IsOpenClass id data) (hspares : s.Spares s.table.HasSymbol u)
    (hgrows : s.Grows u) : u.IsOpenClass id data where
  has := hgrows.table.hasSymbol id h.has
  entity := (hspares.entity_eq h.has).trans h.entity
  undefined := (hspares.isDefined_eq h.has).trans h.undefined

/-- What is known of a class that is not complete may change. -/
theorem leads_modifyClass (h : s.IsOpenClass id data) {f : ClassData → ClassData} {role : Role}
    (hedit : Symbol.Edit s id (s.table.symbol id) role
      { s.table.symbol id with entity := .classType (f data) }) :
    Leads s (modifyTable (·.modifyClass id f)) fun _ u =>
      u.IsOpenClass id (f data) ∧ s.Spares (· ≠ id) u := by
  have hf : ∀ y, y = { s.table.symbol id with entity := .classType (f data) } →
      (s.table.modifyClass id f).symbol id = y := by
    rintro y rfl
    rw [SymbolTable.modifyClass, SymbolTable.symbol_modifySymbol_self _ h.has, h.entity]
  have hkeeps : s.table.KeepsClasses (s.table.modifyClass id f) := by
    refine .modifySymbol ⟨fun data' _ hdefined => ?_, fun origin horigin => ?_⟩
    · rw [h.undefined] at hdefined
      cases hdefined
    · rw [h.entity] at horigin
      rwa [← hedit.grows.origin?_eq]
  refine Leads.of_eq (exec_modifyTable s _)
    (.single ⟨role, .edit_of_eq h.has (by rw [h.entity]) hedit⟩) hkeeps
    fun _ _ => ⟨⟨?_, ?_, ?_⟩, ?_⟩
  · exact (s.table.hasSymbol_modifySymbol _ _ _).mpr h.has
  · exact congrArg Symbol.entity (hf _ rfl)
  · exact (congrArg Symbol.isDefined (hf _ rfl)).trans h.undefined
  · refine .of_symbol_eq fun other hother => ?_
    exact (s.table.symbol_modifySymbol id other _).trans (if_neg fun h => hother h.1)

end Session.IsOpenClass

/-- A base is registered behind those that a class has, and nothing else happens to the
symbols that there were. -/
theorem leads_registerBase (hinst : inst.Steady s instantiate) (hs : s.Closed) {derived : SymbolId}
    {data : ClassData} (hderived : s.IsOpenClass derived data) {base : BaseSpecifier}
    (h : AllKnown s.Known base.name.handles) :
    Leads s (registerBase inst derived base) fun _ u => ∃ added, u.IsBase base added ∧
      u.IsOpenClass derived { data with bases := data.bases ++ [added] } ∧
      s.Spares (s.Others derived) u := by
  rw [registerBase]
  split
  · exact Leads.throw_bind _ _
  · refine Leads.bind hs (steady_resolveClass hinst hs h).leads fun target u htarget hu hgrows =>
      Leads.get_bind ?_
    obtain ⟨hclass, hspares, hnamed⟩ := htarget
    split
    · exact Leads.throw_bind _ _
    · rename_i hfree
      rw [not_or, not_and_or] at hfree
      have hopen := hderived.spared hspares hgrows
      have hadd := hopen.leads_modifyClass (f := fun data =>
        { data with bases := data.bases ++ [⟨target, base.access, base.isVirtual⟩] })
        (.addBase data hopen.entity hopen.undefined ⟨target, base.access, base.isVirtual⟩ hclass.1
          hclass.2 hfree.1 fun hcomplete => by simpa [hcomplete] using hfree.2)
      refine hadd.read hu fun _ v hv _ hlater => ⟨_, ⟨rfl, rfl, fun w hw hgrows' => ?_⟩, hv.1, ?_⟩
      · exact hnamed w hw (hlater.trans hgrows')
      · exact (hspares.mono fun other hother => hother.1).trans hv.2 fun other hother => hother.2

theorem leads_registerBases (hinst : inst.Steady s instantiate) (hs : s.Closed)
    {derived : SymbolId} {data : ClassData} (hderived : s.IsOpenClass derived data)
    {bases : List BaseSpecifier} (h : AllKnown s.Known (handlesOfBases bases)) :
    Leads s (bases.forM (registerBase inst derived)) fun _ u => ∃ added,
      List.Forall₂ u.IsBase bases added ∧
      u.IsOpenClass derived { data with bases := data.bases ++ added } ∧
      s.Spares (s.Others derived) u := by
  refine Leads.forM (fun done u => ∃ added, List.Forall₂ u.IsBase done added ∧
    u.IsOpenClass derived { data with bases := data.bases ++ added } ∧
    s.Spares (s.Others derived) u) hs ⟨[], .nil, ?_, .refl s _⟩ ?_
  · rwa [List.append_nil]
  · rintro done base hbase u hu hgrows ⟨added, hadded, hopen, hspares⟩
    have hknown : AllKnown u.Known base.name.handles := fun x hx =>
      hgrows.known (h x (mem_handlesOfBases.mpr ⟨base, hbase, by cases base; exact hx⟩))
    refine (leads_registerBase (hinst.later hgrows) hu hopen hknown).read hu
      fun _ v hv _ hgrows' => ?_
    obtain ⟨last, hlast, hopen', hspares'⟩ := hv
    refine ⟨added ++ [last], ?_, ?_, hspares.trans hspares' fun other hother => ?_⟩
    · exact List.rel_append (hadded.imp fun _ _ h => h.later hgrows') (.cons hlast .nil)
    · rwa [← List.append_assoc]
    · exact ⟨hgrows.table.hasSymbol other hother.1, hother.2⟩

/-- Filling in an instance gives it the bases and members of the body, unless it fails
midway. -/
theorem leads_fillInstance (hinst : inst.Steady s instantiate) (hs : s.Closed)
    {created : SymbolId} {data : ClassData} (hcreated : s.IsOpenClass created data)
    (hfresh : data.bases = []) {pattern : ClassSpecifier}
    (hpattern : AllKnown s.Known pattern.handles)
    {args : Arguments} (hargs : AllKnown s.Known (handlesOfArguments args)) :
    Leads s (fillInstance inst created pattern args) fun _ u => ∃ data',
      u.IsOpenClass created data' ∧ u.HoldsBody args pattern data' ∧
      s.Spares (s.Others created) u := by
  obtain ⟨key, name, bases, members, span⟩ := pattern
  rw [fillInstance]
  refine Leads.ofExcept_bind fun bases' hbases => ?_
  have hknown := handles_substituteBases bases args hargs hpattern.left bases' hbases
  refine Leads.bind hs (leads_registerBases hinst hs hcreated hknown) fun _ u hu hclosed hgrows =>
    Leads.ofExcept_bind fun members' hmembers => ?_
  obtain ⟨added, hadded, hopen, hspares⟩ := hu
  have hmembers' : AllKnown u.Known (handlesOfNodes members') := hgrows.allKnown
    (handles_substituteNodes members args hargs hpattern.right members' hmembers)
  have hfill := hopen.leads_modifyClass (f := fun data => { data with key, members := members' })
    (.fill _ hopen.entity key members' hmembers')
  refine hfill.read hclosed fun _ v hv _ hgrows' =>
    ⟨_, hv.1, ⟨rfl, hmembers, bases', hbases, ?_⟩, ?_⟩
  · rw [hfresh, List.nil_append]
    exact hadded.imp fun _ _ h => h.later hgrows'
  · exact hspares.trans hv.2 fun other hother => hother.2

/-! ### Instances -/

/-- A session with a new instance of a template, which is not complete; the symbols that
there were stay. -/
structure Session.Registers (s : Session) (template : SymbolId) (args : Arguments) (u : Session) :
    Prop where
  change : s.Change .making u
  old : ∀ id, s.table.HasSymbol id → u.table.symbol id = s.table.symbol id
  new : ∀ id, u.table.HasSymbol id → s.table.HasSymbol id ∨ id = s.table.nextSymbol
  isOpen : ∃ keyword, u.IsOpenClass s.table.nextSymbol ⟨keyword, [], [], some ⟨template, args⟩⟩

theorem registers_declareInstance {template : SymbolId} {args : Arguments} {scope : ScopeId}
    {key shown : String} {keyword : ClassKey} {span : Span}
    (h : s.Change .making { s with
      table := (s.table.declareInstance scope key shown keyword ⟨template, args⟩ span).2 }) :
    s.Registers template args { s with
      table := (s.table.declareInstance scope key shown keyword ⟨template, args⟩ span).2 } := by
  have hpush : (s.table.declareInstance scope key shown keyword ⟨template, args⟩ span).2 =
      s.table.pushContainer key ⟨shown, key, .ofInstance (s.table.scopePath scope) key, scope, none,
        false, none, span, .classType ⟨keyword, [], [], some ⟨template, args⟩⟩⟩ .classBody := rfl
  rw [hpush] at h ⊢
  refine ⟨h, fun id hid => SymbolTable.symbol_pushContainer_old hid,
    fun id hid => SymbolTable.hasSymbol_pushContainer.mp hid, keyword, ?_, ?_, ?_⟩
  · exact SymbolTable.hasSymbol_pushContainer.mpr (.inr rfl)
  · exact congrArg Symbol.entity SymbolTable.symbol_pushContainer_new
  · exact congrArg Symbol.isDefined SymbolTable.symbol_pushContainer_new

/-- A step that registers an instance completes the ones that it makes if the rest of it
does, and leaves the registered one complete. -/
theorem Leads.register_bind {α β : Type} {post : β → Session → Prop} {x : Analysis α} {a : α}
    {f : α → Analysis β} {template : SymbolId} {args : Arguments} {u : Session} (hs : s.Closed)
    (hx : exec x s = (.ok a, u)) (hregisters : s.Registers template args u)
    (hrest : Leads u (f a) post)
    (hcomplete : ∀ b v, post b v → ∀ body, s.body? template = some body →
      v.IsCompleteInstance s.table.nextSymbol args body) :
    Leads s (x >>= f) post := by
  have hgrows := hregisters.change.grows hs
  have hgrows' := (hrest.changes.preserves (hregisters.change.closed hs)).2
  have hbind : exec (x >>= f) s = exec (f a) u := by rw [exec_bind, hx]
  refine ⟨hbind ▸ .head ⟨_, hregisters.change⟩ hrest.changes, ?_, fun b hb => ?_,
    hbind ▸ hrest.result⟩
  · rw [hbind]
    refine SymbolTable.KeepsComplete.trans (fun id data hdata => ?_) hrest.keeps
    rwa [SymbolTable.IsCompleteClass, hregisters.old id hdata.has]
  · rw [hbind] at hb ⊢
    intro i origin hnone horigin body hbody
    cases hregistered : (u.table.symbol i).origin? with
    | none => exact hrest.completes b hb i origin hregistered horigin body (hgrows.body?_eq hbody)
    | some origin' =>
      -- The instance that is there already is the registered one.
      have hhas := SymbolTable.has_of_origin hregistered
      have hlater := (hgrows'.table.symbol i hhas).origin?_eq
      rw [horigin, hregistered] at hlater
      rcases hregisters.new i hhas with hold | rfl
      · rw [hregisters.old i hold, hnone] at hregistered
        cases hregistered
      · obtain ⟨keyword, hopen⟩ := hregisters.isOpen
        rw [Symbol.origin?, hopen.entity] at hregistered
        cases hregistered
        cases hlater
        exact hcomplete b _ (hrest.result b hb) body hbody

theorem Session.IsOpenClass.leads_markDefined {id : SymbolId} {data : ClassData}
    (h : s.IsOpenClass id data) :
    Leads s (modifyTable (·.markDefined id)) fun _ u =>
      u.table.IsCompleteClass id data ∧ s.Spares (· ≠ id) u := by
  refine .change (exec_modifyTable s _) (.edit id _ h.has .define) ⟨⟨?_, ?_⟩, ?_⟩
  · exact (congrArg Symbol.entity (s.table.symbol_modifySymbol_self h.has _)).trans h.entity
  · exact congrArg Symbol.isDefined (s.table.symbol_modifySymbol_self h.has _)
  · refine .of_symbol_eq fun other hother => ?_
    exact (s.table.symbol_modifySymbol id other _).trans (if_neg fun h => hother h.1)

theorem TemplateData.handles_body? {known : Handle → Prop} {data : TemplateData}
    (h : AllKnown known (Entity.template data).handles) {pattern : ClassSpecifier}
    (hpattern : data.body? = some pattern) : AllKnown known pattern.handles := by
  rw [body?] at hpattern
  split at hpattern
  · have hright : AllKnown known ((data.pattern.map (·.handles)).getD []) := h.right
    rwa [hpattern] at hright
  · cases hpattern

/-- An instance that is filled in and marked is complete. -/
theorem leads_completeInstance (hinst : inst.Steady s instantiate) (hs : s.Closed)
    {created : SymbolId} {data : ClassData} (hcreated : s.IsOpenClass created data)
    (hfresh : data.bases = []) {pattern : ClassSpecifier}
    (hpattern : AllKnown s.Known pattern.handles)
    {args : Arguments} (hargs : AllKnown s.Known (handlesOfArguments args)) :
    Leads s (do
      fillInstance inst created pattern args
      modifyTable (·.markDefined created)
      return created) fun i u => i = created ∧ u.IsCompleteInstance created args pattern ∧
        s.Spares (s.Others created) u := by
  refine Leads.bind hs (leads_fillInstance hinst hs hcreated hfresh hpattern hargs)
    fun _ u hu hclosed _ => ?_
  obtain ⟨data', hopen, hholds, hspares⟩ := hu
  refine Leads.bind hclosed hopen.leads_markDefined fun _ v hv _ hgrows => Leads.pure ⟨rfl, ?_, ?_⟩
  · exact ⟨data', hv.1, hholds.later hgrows⟩
  · exact hspares.trans hv.2 fun other hother => hother.2

/-- A new instance is found under its key from then on, and is complete in the end if the
template has a body. -/
theorem leads_createInstance (hinst : inst.Steady s instantiate) (hs : s.Closed)
    {template : SymbolId} (htemplate : s.table.HasSymbol template) {data : TemplateData}
    (hdata : (s.table.symbol template).entity = .template data)
    (hkind : data.entity.kind = .classType) {bound : Binding}
    (hbound : AllKnown s.Known (handlesOfArguments bound.arguments))
    (htyped : data.parameters.Receive bound.arguments) (keyword : ClassKey)
    (span : Span) {enclosing : ScopeId}
    (henclosing : enclosing = (s.table.symbol template).enclosing) {key : String}
    (hkey : key = instanceKey (s.table.typeEncoding s.types) (s.table.symbol template).mangled
      bound.arguments)
    (hnone : s.table.lookupIn enclosing key (.singleton .classType) = none) :
    Leads s (createInstance inst template key bound data.body? keyword span) fun i u =>
      u.table.lookupIn enclosing key (.singleton .classType) = some i ∧
        s.Spares s.table.HasSymbol u := by
  have hscope : s.table.HasScope enclosing :=
    henclosing ▸ (hs.symbol template htemplate).enclosing_has
  have horigin : AllKnown s.Known (InstanceOrigin.mk template bound.arguments).handles :=
    AllKnown.cons (x := Handle.symbol template) hbound htemplate
  have hbody : s.body? template = data.body? := by rw [Session.body?, hdata]; rfl
  -- Whoever registers an instance owes that it is complete in the end, which the caller of this
  -- step does not ask for.
  suffices h : Leads s (createInstance inst template key bound data.body? keyword span) fun i u =>
      (u.table.lookupIn enclosing key (.singleton .classType) = some i ∧
        s.Spares s.table.HasSymbol u) ∧
      ∀ body, s.body? template = some body →
        u.IsCompleteInstance s.table.nextSymbol bound.arguments body from h.mono fun _ _ h => h.1
  rw [createInstance]
  refine Leads.symbol_bind ?_
  rw [← henclosing]
  have hregister := Session.Change.register template data keyword bound.arguments
    (instanceName (s.table.symbol template).name bound.sources) span htemplate hdata hkind hbound
    (by rw [← henclosing, ← hkey]; exact hnone) htyped
  rw [← henclosing, ← hkey] at hregister
  have hfound := lookupIn_declareInstance hs hscope (instanceName (s.table.symbol template).name
    bound.sources) keyword horigin span hnone
  refine Leads.register_bind hs (exec_changeTable s _) (registers_declareInstance hregister) ?_
    fun _ _ h => h.2
  have hregisters := registers_declareInstance hregister
  have hclosed := hregister.closed hs
  have hgrows := hregister.grows hs
  cases hpattern : data.body? with
  | none =>
    refine Leads.pure ⟨⟨hfound, .of_symbol_eq hregisters.old⟩, fun body h => ?_⟩
    rw [hbody, hpattern] at h
    cases h
  | some pattern =>
    obtain ⟨keyword', hopen⟩ := hregisters.isOpen
    have hknown := TemplateData.handles_body?
      (hdata ▸ (hs.symbol template htemplate).known) hpattern
    refine (leads_completeInstance (hinst.later hgrows) hclosed hopen rfl (hgrows.allKnown hknown)
      (hgrows.allKnown hbound)).read hclosed fun i v hv _ hgrows' => ?_
    obtain ⟨rfl, hcomplete, hspares⟩ := hv
    refine ⟨⟨?_, ?_⟩, fun body h => ?_⟩
    · exact hgrows'.table.lookupIn_eq hclosed.linked (hgrows.table.hasScope _ hscope) hfound
    · refine (Session.Spares.of_symbol_eq hregisters.old).trans hspares fun id hid =>
        ⟨hgrows.table.hasSymbol id hid, ?_⟩
      rintro rfl
      exact s.table.not_hasSymbol_nextSymbol hid
    · rw [hbody, hpattern] at h
      cases h
      exact hcomplete

def Session.keyFor (s : Session) (template : SymbolId) (args : Arguments) : String :=
  instanceKey (s.table.typeEncoding s.types) (s.table.symbol template).mangled args

def Session.instance? (s : Session) (template : SymbolId) (args : Arguments) : Option SymbolId :=
  s.table.lookupIn (s.table.symbol template).enclosing (s.keyFor template args)
    (.singleton .classType)

theorem Session.Closed.lookupIn_instanceKey (hs : s.Closed) {u : Session} (hu : u.Closed)
    (h : s.Grows u) {template : SymbolId} (htemplate : s.table.HasSymbol template)
    {args : Arguments} (hargs : AllKnown s.Known (handlesOfArguments args)) :
    u.table.lookupIn (s.table.symbol template).enclosing (s.keyFor template args)
      (.singleton .classType) = u.instance? template args := by
  have hsymbol := h.table.symbol template htemplate
  rw [Session.instance?, Session.keyFor, Session.keyFor, hsymbol.enclosing, hsymbol.mangled,
    hs.instanceKey_eq hu h _ hargs]

theorem Session.Closed.instance?_eq (hs : s.Closed) {u : Session} (hu : u.Closed)
    (h : s.Grows u) {template : SymbolId} (htemplate : s.table.HasSymbol template)
    {args : Arguments} (hargs : AllKnown s.Known (handlesOfArguments args)) {i : SymbolId}
    (hi : s.instance? template args = some i) : u.instance? template args = some i := by
  rw [← hs.lookupIn_instanceKey hu h htemplate hargs]
  exact h.table.lookupIn_eq hs.linked (hs.symbol template htemplate).enclosing_has hi

/-- The instance for bound arguments is found under their key. -/
theorem leads_instanceFor (hinst : inst.Steady s instantiate) (hs : s.Closed)
    {template : SymbolId} (htemplate : s.table.HasSymbol template) {target : Symbol}
    (htarget : target.Grows (s.table.symbol template)) {data : TemplateData}
    (hdata : (s.table.symbol template).entity = .template data)
    {bound : Binding} (hbound : AllKnown s.Known (handlesOfArguments bound.arguments))
    (htyped : data.parameters.Receive bound.arguments) (span : Span) :
    Leads s (instanceFor inst template target data bound span) fun i u =>
      u.instance? template bound.arguments = some i ∧ s.Spares s.table.HasSymbol u := by
  rw [instanceFor, ← htarget.enclosing, ← htarget.mangled]
  refine Leads.get_bind ?_
  simp only
  cases hlookup : s.table.lookupIn (s.table.symbol template).enclosing (instanceKey
    (s.table.typeEncoding s.types) (s.table.symbol template).mangled bound.arguments)
    (.singleton .classType) with
  | some existing => exact Leads.pure ⟨hlookup, .refl s _⟩
  | none =>
    cases hentity : data.entity with
    | classTemplate keyword =>
      refine (leads_createInstance hinst hs htemplate hdata (hentity ▸ rfl) hbound htyped keyword
        span rfl rfl hlookup).read hs fun i u hi hu hgrows => ⟨?_, hi.2⟩
      rw [← hs.lookupIn_instanceKey hu hgrows htemplate hbound]
      exact hi.1
    | aliasTemplate => exact Leads.throw _
    | variableTemplate => exact Leads.throw _

theorem Symbol.exists_template {x : Symbol} (h : x.kind = .template) :
    ∃ data, x.entity = .template data := by
  rw [Symbol.kind] at h
  generalize x.entity = entity at h
  cases entity with
  | template data => exact ⟨data, rfl⟩
  | _ => cases h

/-- What arguments as written are bound to for a template, from a session on, and the
instance for what they are bound to. -/
def Instantiator.Finds (inst : Instantiator) (s : Session) (template : SymbolId)
    (args : List Node) (span : Span) (i : SymbolId) : Prop :=
  (s.table.symbol template).kind = .template ∧ ∃ bound : Binding,
    (∀ u, u.Closed → s.Grows u → exec (bindSources inst template args span) u = (.ok bound, u)) ∧
    AllKnown s.Known (handlesOfArguments bound.arguments) ∧
    s.instance? template bound.arguments = some i

theorem Instantiator.Finds.later {template : SymbolId} {args : List Node} {span : Span}
    {i : SymbolId} (h : inst.Finds s template args span i) (hs : s.Closed) {u : Session}
    (hu : u.Closed) (hgrows : s.Grows u) (htemplate : s.table.HasSymbol template) :
    inst.Finds u template args span i := by
  obtain ⟨hkind, bound, hbind, hbound, hi⟩ := h
  refine ⟨(hgrows.table.symbol template htemplate).kind_eq.trans hkind, bound,
    fun v hv hlater => hbind v hv (hgrows.trans hlater), hgrows.allKnown hbound, ?_⟩
  exact hs.instance?_eq hu hgrows htemplate hbound hi

/-- Instantiation returns the instance that is found, and changes nothing. -/
theorem Instantiator.Finds.exec_instantiateStep {template : SymbolId} {args : List Node}
    {span : Span} {i : SymbolId} (h : inst.Finds s template args span i) (hs : s.Closed) :
    exec (instantiateStep inst template args span) s = (.ok i, s) := by
  obtain ⟨hkind, bound, hbind, _, hi⟩ := h
  obtain ⟨data, hentity⟩ := Symbol.exists_template hkind
  have hlookup := hi
  rw [Session.instance?, Session.keyFor] at hlookup
  rw [instantiateStep, exec_symbol_bind, hentity]
  simp only
  rw [exec_bind, hbind s hs (.refl s)]
  simp only [instanceFor, exec_get_bind, hlookup]
  exact exec_pure s i

/-- What an instantiation returns is found from then on, and the symbols that there were
stay. -/
theorem leads_instantiateStep (hinst : inst.Steady s inst') (hnames : inst.Steady s instantiate)
    (hs : s.Closed) {template : SymbolId} (htemplate : s.table.HasSymbol template)
    {args : List Node} (hargs : AllKnown s.Known (handlesOfNodes args)) (span span' : Span) :
    Leads s (instantiateStep inst template args span) fun i u =>
      inst'.Finds u template args span' i ∧ s.Spares s.table.HasSymbol u := by
  rw [instantiateStep]
  refine Leads.symbol_bind ?_
  cases hentity : (s.table.symbol template).entity with
  | template data =>
    refine Leads.bind hs ((steady_bindSources hinst hs htemplate hargs span span').leads.and
      fun _ h => forall₂_of_bindSources hentity h) fun bound u hbound hu hgrows => ?_
    obtain ⟨hfits, hbound, hspares, hagain⟩ := hbound
    have hinstance := leads_instanceFor (hnames.later hgrows) hu
      (hgrows.table.hasSymbol _ htemplate) (hgrows.table.symbol template htemplate)
      ((hspares.entity_eq htemplate).trans hentity) hbound (hfits.imp fun _ _ h => h.2) span
    refine hinstance.read hu fun i v hi hv hgrows' =>
      ⟨⟨?_, bound, fun w hw hlater => ?_, ?_, hi.1⟩, ?_⟩
    · rw [((hgrows.trans hgrows').table.symbol template htemplate).kind_eq]
      exact congrArg Entity.kind hentity
    · exact hagain w hw (hgrows'.trans hlater)
    · exact hgrows'.allKnown hbound
    · exact hspares.trans hi.2 fun id hid => hgrows.table.hasSymbol id hid
  | _ => exact Leads.throw _

theorem steady_instantiateStep (hinst : inst.Steady s inst') (hnames : inst.Steady s instantiate) :
    (instantiateStep inst).Steady s (instantiateStep inst') := by
  intro u hgrows hu template args span span' htemplate hargs
  have hleads := leads_instantiateStep (hinst.later hgrows) (hnames.later hgrows) hu htemplate hargs
    span span'
  obtain ⟨hclosed, hgrows'⟩ := hleads.changes.preserves hu
  refine ⟨hleads.read hu fun i v hi hv _ => ?_, fun i hi => (hleads.result i hi).2,
    fun i hi v hv hlater => ?_⟩
  · exact isClass_of_lookupIn hv.linked hi.1.2.choose_spec.2.2
  · have hfinds := (hleads.result i hi).1.later hclosed hv hlater
      (hgrows'.table.hasSymbol _ htemplate)
    exact hfinds.exec_instantiateStep hv

/-- Instantiation takes what the limit leaves from the session, which keeps it. -/
theorem Instantiator.Steady.instantiate
    (h : inst.Steady s (instantiateWithin (s.config.maxDepth - s.depth))) :
    inst.Steady s instantiate := by
  intro u hgrows hu template args span span' htemplate hargs
  refine (h u hgrows hu template args span span' htemplate hargs).congr rfl
    (fun v _ hlater => ?_) hu
  rw [Session.instantiate, exec_get_bind, hlater.config, hlater.depth, hgrows.config, hgrows.depth]

/-- Instantiation within a rest is steady, also if the rest is greater later. -/
theorem steady_instantiateWithin : ∀ {left left' : Nat}, left ≤ left' → ∀ s : Session,
    left ≤ s.config.maxDepth - s.depth → (instantiateWithin left).Steady s (instantiateWithin left')
  | 0, _, _, s, _ => by
    intro u _ _ template args span span' _ _
    refine Steady.error (d := ⟨.depthExceeded (u.table.symbol template).name u.config.maxDepth,
      span⟩) ?_ _
    rw [instantiateWithin, exec_get_bind, exec_throw]
  | left + 1, left' + 1, h, s, hmax => by
    have hleft : left ≤ s.config.maxDepth - s.depth := Nat.le_of_succ_le hmax
    rw [instantiateWithin_succ, instantiateWithin_succ]
    exact steady_instantiateStep (steady_instantiateWithin (Nat.le_of_succ_le_succ h) s hleft)
      (steady_instantiateWithin hleft s hleft).instantiate

theorem steady_instantiate (s : Session) : instantiate.Steady s instantiate := by
  intro u hgrows hu template args span span' htemplate hargs
  have hwithin := (steady_instantiateWithin (Nat.le_refl _) u (Nat.le_refl _)).instantiate
  refine (hwithin u (.refl u) hu template args span span' htemplate hargs).congr ?_
    (fun _ _ _ => rfl) hu
  rw [instantiate, exec_get_bind]

/-- Once a template has been instantiated, its instance is found for what the arguments
are bound to. -/
theorem leads_instantiate (hs : s.Closed) {template : SymbolId}
    (htemplate : s.table.HasSymbol template) {args : List Node}
    (hargs : AllKnown s.Known (handlesOfNodes args)) (span span' : Span) :
    Leads s (instantiate template args span) fun i u =>
      instantiate.Finds u template args span' i := by
  refine Leads.get_bind ?_
  cases hleft : s.config.maxDepth - s.depth with
  | zero => exact Leads.get_bind (Leads.throw _)
  | succ left =>
    have hwithin : (instantiateWithin left).Steady s instantiate :=
      (steady_instantiateWithin (by omega) s (by omega)).instantiate
    rw [instantiateWithin_succ]
    exact (leads_instantiateStep hwithin hwithin hs htemplate hargs span span').mono
      fun _ _ h => h.1

theorem steady_bindArguments (hs : s.Closed) {template : SymbolId}
    (htemplate : s.table.HasSymbol template) {args : List Node}
    (hargs : AllKnown s.Known (handlesOfNodes args)) (span span' : Span) :
    Steady s (bindArguments template args span) (bindArguments template args span')
      fun bound u => AllKnown u.Known (handlesOfArguments bound) :=
  (steady_bindSources (steady_instantiate s) hs htemplate hargs span span').bind hs
    fun _ _ hbound _ _ => Steady.pure hbound

end TemplateAnalysis
