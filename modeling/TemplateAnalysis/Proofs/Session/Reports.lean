import TemplateAnalysis.Proofs.Session.Depth
import TemplateAnalysis.Proofs.Session.MisusedTrees
import TemplateAnalysis.Proofs.SymbolTable.Containers

/-!
# What a step reports

`Reports faults s x` says what a step that fails reports, in terms of the session that it
leaves. A step that looks types up reports faults of the program, or what a substitution into
a tree of a template of the session fails with; this can only be a misuse in such a tree,
since arguments that are bound for a template are of the kinds of its parameters.
-/

namespace TemplateAnalysis

open Session Analysis

variable {α β : Type} {s u : Session}

/-! ### Templates -/

namespace TemplateData

def kinds (data : TemplateData) : List ParameterKind := data.parameters.map (·.kind)

/-- The misuses in the trees of a template: in the defaults of its parameters, and in the body
that its instances are made of. -/
def misuses (data : TemplateData) : List TreeMisuse :=
  data.parameters.flatMap (fun p => misusesOfNode? data.kinds p.defaultArgument) ++
    (data.body?.map (·.misuses data.kinds)).getD []

end TemplateData

theorem TemplateArgument.Fits.isFor {p : TemplateParameter} {x : TemplateArgument} (h : x.Fits p) :
    x.IsFor p.kind := by
  cases x with
  | pack kind elements => exact h.2.2
  | type id text => exact h.2
  | value c => exact h.2

theorem Arguments.FitAll.areFor {before : ParameterList} {args : Arguments}
    (h : args.FitAll before) (after : ParameterList) :
    args.AreFor ((before ++ after).map (·.kind)) := by
  intro index x hx
  obtain ⟨hlength, hfits⟩ := List.forall₂_iff_get.mp h
  obtain ⟨hargs, rfl⟩ := List.getElem?_eq_some_iff.mp hx
  have hindex : index < before.length := hlength ▸ hargs
  refine ⟨before[index].kind, ?_, (hfits index hindex hargs).isFor⟩
  rw [List.getElem?_map, List.getElem?_append_left hindex, List.getElem?_eq_getElem hindex]
  rfl

/-- What a substitution into a tree of a template fails with is a misuse in it, or a fault of
the program. -/
theorem TemplateData.Fails.isAmong {data : TemplateData} {d : Diagnostic} (h : data.Fails d) :
    d.IsAmong data.misuses := by
  have hargs : ∀ {args : Arguments}, args.FitAll data.parameters → args.AreFor data.kinds := by
    intro args hfits
    simpa [kinds] using hfits.areFor []
  cases h with
  | @default before after p pattern args parameters default fits eq =>
    have hbefore : args.AreFor data.kinds := by
      rw [kinds, parameters]
      exact fits.areFor (p :: after)
    refine pattern.failsAmong.substitute args hbefore (fun t ht => ?_) d eq
    refine List.mem_append_left _ (List.mem_flatMap.mpr ⟨p, by simp [parameters], ?_⟩)
    rw [default]
    exact ht
  | @bases pattern args body fits eq =>
    refine failsOnly_substituteBases pattern.bases args (hargs fits) (fun t ht => ?_) d eq
    refine List.mem_append_right _ ?_
    rw [body, Option.map_some, Option.getD_some, pattern.misuses_eq]
    exact List.mem_append_left _ ht
  | @members pattern args body fits eq =>
    refine failsOnly_substituteNodes pattern.members args (hargs fits) (fun t ht => ?_) d eq
    refine List.mem_append_right _ ?_
    rw [body, Option.map_some, Option.getD_some, pattern.misuses_eq]
    exact List.mem_append_right _ ht

/-! ### Faults -/

/-- What a session may report. It may report the faults of the program. -/
structure Faults where
  report : Session → Diagnostic → Prop
  external : ∀ s d, d.IsExternal → report s d

/-- A diagnostic that a session may report where types are looked up. -/
inductive Session.MayReport (s : Session) (d : Diagnostic) : Prop
  | external (h : d.IsExternal)
  | substitution {template : SymbolId} {data : TemplateData}
      (entity : (s.table.symbol template).entity = .template data) (fails : data.Fails d)

namespace Faults

def ofProgram : Faults := ⟨fun _ d => d.IsExternal, fun _ _ h => h⟩

def ofResolution : Faults := ⟨MayReport, fun _ _ => .external⟩

end Faults

theorem Session.MayReport.of_table {d : Diagnostic} (h : s.MayReport d)
    (htable : u.table = s.table) : u.MayReport d := by
  cases h with
  | external h => exact .external h
  | substitution entity fails => exact .substitution (htable ▸ entity) fails

/-- A step that fails reports what the session that it leaves may report. -/
def Reports (faults : Faults) (s : Session) (x : Analysis α) : Prop :=
  ∀ d, (exec x s).1 = .error d → faults.report (exec x s).2 d

namespace Reports

variable {faults : Faults}

theorem of_ok {x : Analysis α} {a : α} {u : Session} (h : exec x s = (.ok a, u)) :
    Reports faults s x := by
  intro d hd
  rw [h] at hd
  cases hd

theorem of_error {x : Analysis α} {d : Diagnostic} {u : Session} (h : exec x s = (.error d, u))
    (hd : d.IsExternal) : Reports faults s x := by
  intro e he
  rw [h] at he ⊢
  cases he
  exact faults.external u d hd

theorem of_failsOnly {x : Analysis α} (h : FailsOnly (exec x s).1 Diagnostic.IsExternal) :
    Reports faults s x := fun d hd => faults.external _ d (h d hd)

theorem congr {x y : Analysis α} (h : exec x s = exec y s) (hy : Reports faults s y) :
    Reports faults s x := by
  intro d hd
  rw [h] at hd ⊢
  exact hy d hd

theorem pure (a : α) : Reports faults s (Pure.pure a) := of_ok (exec_pure s a)

theorem throw {d : Diagnostic} (hd : d.IsExternal) :
    Reports faults s (MonadExcept.throw d : Analysis α) := of_error (exec_throw s d) hd

theorem throw_bind {d : Diagnostic} (hd : d.IsExternal) {f : α → Analysis β} :
    Reports faults s ((MonadExcept.throw d : Analysis α) >>= f) :=
  of_error (exec_throw_bind s d f) hd

theorem ofExcept {r : Except Diagnostic α} (h : FailsOnly r Diagnostic.IsExternal) :
    Reports faults s (MonadExcept.ofExcept r : Analysis α) :=
  of_failsOnly ((exec_ofExcept s r).symm ▸ h)

theorem evaluate (node : Node) : Reports faults s (Analysis.evaluate node) :=
  of_failsOnly ((exec_evaluate s node).symm ▸ failsOnly_evaluate _ node)

theorem onTable {change : Declaring α}
    (h : FailsOnly (change.exec s.table).1 Diagnostic.IsExternal) :
    Reports faults s (Analysis.onTable change) := of_failsOnly h

theorem modifyTable (f : SymbolTable → SymbolTable) : Reports faults s (Analysis.modifyTable f) :=
  of_ok (exec_modifyTable s f)

theorem bind {x : Analysis α} {f : α → Analysis β} (hx : Reports faults s x)
    (hf : ∀ a, (exec x s).1 = .ok a → Reports faults (exec x s).2 (f a)) :
    Reports faults s (x >>= f) := by
  intro d hd
  cases hr : (exec x s).1 with
  | error e =>
    have hbind := exec_bind_error hr f
    rw [hbind] at hd ⊢
    cases hd
    exact hx d hr
  | ok a =>
    have hbind := exec_bind_ok hr f
    rw [hbind] at hd ⊢
    exact hf a hr d hd

theorem map {x : Analysis α} (hx : Reports faults s x) (g : α → β) :
    Reports faults s (x >>= fun a => Pure.pure (g a)) := hx.bind fun _ _ => .pure _

theorem discard {x : Analysis α} (hx : Reports faults s x) : Reports faults s (do let _ ← x) :=
  hx.map fun _ => ()

theorem get_bind {f : Session → Analysis β} (h : Reports faults s (f s)) :
    Reports faults s (get >>= f) := .congr (exec_get_bind s f) h

theorem symbol_bind {id : SymbolId} {f : Symbol → Analysis β}
    (h : Reports faults s (f (s.table.symbol id))) : Reports faults s (symbol id >>= f) :=
  .congr (exec_symbol_bind s id f) h

theorem scope_bind {id : ScopeId} {f : Scope → Analysis β}
    (h : Reports faults s (f (s.table.scope id))) : Reports faults s (scope id >>= f) :=
  .congr (exec_scope_bind s id f) h

theorem ownScope_bind {id : SymbolId} {own : ScopeId} {span : Span} {f : ScopeId → Analysis β}
    (hown : (s.table.symbol id).scope = some own) (h : Reports faults s (f own)) :
    Reports faults s (ownScope id span >>= f) := by
  rw [ownScope, bind_assoc]
  refine .symbol_bind ?_
  rw [hown]
  exact h

theorem forM {f : β → Analysis Unit} : ∀ {xs : List β} {s : Session},
    (∀ x ∈ xs, ∀ s, Reports faults s (f x)) → Reports faults s (xs.forM f)
  | [], _, _ => pure ()
  | x :: _, s, h => bind (h x List.mem_cons_self s) fun _ _ =>
    forM fun y hy => h y (List.mem_cons_of_mem x hy)

theorem inScope {x : Analysis α} {scope : ScopeId}
    (h : Reports .ofResolution { s with current := scope } x) :
    Reports .ofResolution s (Analysis.inScope scope x) := fun d hd => (h d hd).of_table rfl

end Reports

/-! ### Types and instances -/

def SymbolTable.KeepsTemplates (t u : SymbolTable) : Prop :=
  ∀ id, (u.symbol id).entity.template? = (t.symbol id).entity.template?

namespace SymbolTable.KeepsTemplates

variable {t u v : SymbolTable}

theorem trans (htu : t.KeepsTemplates u) (huv : u.KeepsTemplates v) : t.KeepsTemplates v :=
  fun id => (huv id).trans (htu id)

theorem modifySymbol {id : SymbolId} {f : Symbol → Symbol}
    (h : (f (t.symbol id)).entity.template? = (t.symbol id).entity.template?) :
    t.KeepsTemplates (t.modifySymbol id f) := by
  intro j
  rw [symbol_modifySymbol]
  split
  · rename_i hj
    obtain ⟨rfl, _⟩ := hj
    exact h
  · rfl

theorem pushContainer {key : String} {x : Symbol} {kind : ScopeKind}
    (hx : x.entity.template? = none) : t.KeepsTemplates (t.pushContainer key x kind) := by
  intro id
  by_cases hid : t.HasSymbol id
  · rw [symbol_pushContainer_old hid]
  · rw [symbol_eq_default hid]
    by_cases hnew : id = t.nextSymbol
    · rw [hnew, symbol_pushContainer_new]
      exact hx
    · rw [symbol_eq_default (mt hasSymbol_pushContainer.mp (not_or.mpr ⟨hid, hnew⟩))]

theorem of_builds (h : t.Builds u) : t.KeepsTemplates u := by
  cases h with
  | remember id type => exact .modifySymbol rfl
  | modifyClass id f =>
    refine .modifySymbol ?_
    split
    · rename_i hentity
      rw [hentity]
      rfl
    · rfl
  | markDefined id => exact .modifySymbol rfl
  | declareInstance => exact .pushContainer rfl

theorem symm (h : t.KeepsTemplates u) : u.KeepsTemplates t := fun id => (h id).symm

theorem entity (h : t.KeepsTemplates u) {id : SymbolId} {data : TemplateData}
    (hdata : (u.symbol id).entity = .template data) : (t.symbol id).entity = .template data := by
  have heq := h id
  rw [hdata] at heq
  cases hentity : (t.symbol id).entity with
  | template data' =>
    rw [hentity] at heq
    cases heq
    rfl
  | _ =>
    rw [hentity] at heq
    cases heq

end SymbolTable.KeepsTemplates

theorem SymbolTable.KeepsTemplates.simulation (s : Session) :
    Simulation (fun u v => v = u ∧ s.table.KeepsTemplates u.table) s.MayReport :=
  .ofInvariant (fun h _ => h) (fun h _ hbuilds => h.trans (.of_builds hbuilds))
    (fun _ => .external) fun h _ _ hdata _ hfails => .substitution (h.entity hdata) hfails

theorem SymbolTable.KeepsTemplates.instantiate (s : Session) :
    Instantiator.Simulates (fun u v => v = u ∧ s.table.KeepsTemplates u.table) s.MayReport
      Session.instantiate Session.instantiate :=
  (simulation s).instantiate fun h => by rw [h.1]

theorem Reports.of_simulates {x : Analysis α}
    (h : Simulates (fun u v => v = u ∧ s.table.KeepsTemplates u.table) s.MayReport x x s s) :
    Reports .ofResolution s x := by
  intro d hd
  cases h.failsOnly d hd with
  | external hexternal => exact .external hexternal
  | substitution entity fails => exact .substitution (h.related.2.symm.entity entity) fails

section Resolution

variable (s)

theorem reports_resolveNode (node : Node) :
    Reports .ofResolution s (resolveNode Session.instantiate node) :=
  .of_simulates ((SymbolTable.KeepsTemplates.simulation s).resolveNode
    (SymbolTable.KeepsTemplates.instantiate s) node ⟨rfl, fun _ => rfl⟩)

theorem reports_resolveType (specifiers : Specifiers) (declarator : Declarator) (span : Span) :
    Reports .ofResolution s (resolveType Session.instantiate specifiers declarator span) :=
  .of_simulates ((SymbolTable.KeepsTemplates.simulation s).resolveType
    (SymbolTable.KeepsTemplates.instantiate s) ⟨rfl, fun _ => rfl⟩ specifiers declarator span)

theorem reports_resolveClass (node : Node) :
    Reports .ofResolution s (resolveClass Session.instantiate node) :=
  .of_simulates ((SymbolTable.KeepsTemplates.simulation s).resolveClass
    (SymbolTable.KeepsTemplates.instantiate s) ⟨rfl, fun _ => rfl⟩ node)

theorem reports_registerBase (derived : SymbolId) (base : BaseSpecifier) :
    Reports .ofResolution s (registerBase Session.instantiate derived base) :=
  .of_simulates ((SymbolTable.KeepsTemplates.simulation s).registerBase
    (SymbolTable.KeepsTemplates.instantiate s) ⟨rfl, fun _ => rfl⟩ derived base)

theorem reports_bindArguments (template : SymbolId) (supplied : List Node) (span : Span) :
    Reports .ofResolution s (bindArguments template supplied span) :=
  Reports.map (.of_simulates ((SymbolTable.KeepsTemplates.simulation s).bindSources
    (SymbolTable.KeepsTemplates.instantiate s) ⟨rfl, fun _ => rfl⟩ template supplied span)) _

theorem reports_instantiate (template : SymbolId) (arguments : List Node) (span : Span) :
    Reports .ofResolution s (Session.instantiate template arguments span) :=
  .of_simulates
    (SymbolTable.KeepsTemplates.instantiate s ⟨rfl, fun _ => rfl⟩ template arguments span)

end Resolution

end TemplateAnalysis
