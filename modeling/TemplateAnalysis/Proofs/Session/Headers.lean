import TemplateAnalysis.Proofs.Session.Depth
import TemplateAnalysis.Proofs.SymbolTable.Headers

/-!
# Steps that leave template headers alone

`LeavesHeaders s x` says that a step, whether or not it succeeds, keeps the templates with
their parameters, the headers, and the cursor. There is one rule for each way in which steps
are put together; resolving a type and making an instance are such steps.
-/

namespace TemplateAnalysis

open Session Analysis

variable {α β : Type} {s : Session}

structure Session.KeepsHeaders (s u : Session) : Prop where
  table : s.table.KeepsHeaders u.table
  current : u.current = s.current

/-- A step leaves template headers and the cursor alone. -/
def LeavesHeaders (s : Session) (x : Analysis α) : Prop := s.KeepsHeaders (exec x s).2

/-- A step leaves template headers alone, and may move the cursor. -/
def LeavesTemplates (s : Session) (x : Analysis α) : Prop :=
  s.table.KeepsHeaders (exec x s).2.table

/-- Whether declarations do not go into an open header. -/
def Session.IsOutside (s : Session) : Prop := (s.table.scope s.current).isOpenHeader = false

namespace Session.KeepsHeaders

variable {u v : Session}

theorem refl (s : Session) : s.KeepsHeaders s := ⟨.refl _, rfl⟩

theorem trans (hsu : s.KeepsHeaders u) (huv : u.KeepsHeaders v) : s.KeepsHeaders v :=
  ⟨hsu.table.trans huv.table, huv.current.trans hsu.current⟩

theorem isOutside (h : s.KeepsHeaders u) (hs : s.IsOutside) : u.IsOutside := by
  rw [IsOutside, h.current]
  exact (h.table.isOpenHeader _).trans hs

end Session.KeepsHeaders

/-! ### Rules -/

theorem exec_bind_cases (x : Analysis α) (f : α → Analysis β) (s : Session) :
    (exec (x >>= f) s).2 = (exec x s).2 ∨
      ∃ a, (exec x s).1 = .ok a ∧ exec (x >>= f) s = exec (f a) (exec x s).2 := by
  cases h : (exec x s).1 with
  | error d => exact .inl (congrArg Prod.snd (exec_bind_error h f))
  | ok a => exact .inr ⟨a, rfl, exec_bind_ok h f⟩

namespace LeavesHeaders

theorem of_exec {x : Analysis α} {r : Except Diagnostic α} {u : Session} (h : exec x s = (r, u))
    (hu : s.KeepsHeaders u) : LeavesHeaders s x := by
  rw [LeavesHeaders, h]
  exact hu

theorem congr {x : Analysis α} {y : Analysis β} {u : Session} (h : (exec x s).2 = (exec y u).2)
    (hy : LeavesHeaders u y) (hsu : s.KeepsHeaders u) : LeavesHeaders s x := by
  rw [LeavesHeaders, h]
  exact hsu.trans hy

theorem pure (a : α) : LeavesHeaders s (Pure.pure a) := .refl s

theorem throw (d : Diagnostic) : LeavesHeaders s (MonadExcept.throw d : Analysis α) := .refl s

theorem ofExcept (r : Except Diagnostic α) :
    LeavesHeaders s (MonadExcept.ofExcept r : Analysis α) := of_exec (exec_ofExcept s r) (.refl s)

theorem bind {x : Analysis α} {f : α → Analysis β} (hx : LeavesHeaders s x)
    (hf : ∀ a u, s.KeepsHeaders u → LeavesHeaders u (f a)) : LeavesHeaders s (x >>= f) := by
  rcases exec_bind_cases x f s with h | ⟨a, _, h⟩
  · exact congr h hx (.refl s)
  · exact congr (congrArg Prod.snd h) (hf a _ hx) hx

theorem get_bind {f : Session → Analysis β} (h : LeavesHeaders s (f s)) :
    LeavesHeaders s (get >>= f) := congr (congrArg Prod.snd (exec_get_bind s f)) h (.refl s)

theorem symbol_bind {id : SymbolId} {f : Symbol → Analysis β}
    (h : LeavesHeaders s (f (s.table.symbol id))) : LeavesHeaders s (symbol id >>= f) :=
  congr (congrArg Prod.snd (exec_symbol_bind s id f)) h (.refl s)

theorem throw_bind (d : Diagnostic) (f : α → Analysis β) :
    LeavesHeaders s ((MonadExcept.throw d : Analysis α) >>= f) :=
  of_exec (exec_throw_bind s d f) (.refl s)

theorem evaluate (node : Node) : LeavesHeaders s (Analysis.evaluate node) :=
  of_exec (exec_evaluate s node) (.refl s)

theorem modifyTable {f : SymbolTable → SymbolTable} (h : s.table.KeepsHeaders (f s.table)) :
    LeavesHeaders s (Analysis.modifyTable f) := ⟨h, rfl⟩

theorem changeTable {f : SymbolTable → α × SymbolTable}
    (h : s.table.KeepsHeaders (f s.table).2) : LeavesHeaders s (Analysis.changeTable f) :=
  ⟨h, rfl⟩

theorem onTable {change : Declaring α} (h : s.table.KeepsHeaders (change.exec s.table).2) :
    LeavesHeaders s (Analysis.onTable change) := ⟨h, rfl⟩

theorem inScope {x : Analysis α} {scope : ScopeId}
    (hx : LeavesHeaders { s with current := scope } x) :
    LeavesHeaders s (Analysis.inScope scope x) := ⟨hx.table, rfl⟩

theorem forM {f : β → Analysis Unit} : ∀ {xs : List β} {s : Session},
    (∀ x ∈ xs, ∀ u, LeavesHeaders u (f x)) → LeavesHeaders s (xs.forM f)
  | [], _, _ => pure ()
  | x :: _, _, h => bind (h x List.mem_cons_self _) fun _ _ _ =>
    forM fun y hy => h y (List.mem_cons_of_mem x hy)

end LeavesHeaders

namespace LeavesTemplates

theorem bind {x : Analysis α} {f : α → Analysis β} (hx : LeavesTemplates s x)
    (hf : ∀ a u, LeavesTemplates u (f a)) : LeavesTemplates s (x >>= f) := by
  rcases exec_bind_cases x f s with h | ⟨a, _, h⟩
  · rw [LeavesTemplates, h]
    exact hx
  · rw [LeavesTemplates, h]
    exact hx.trans (hf a _)

theorem enterScope (scope : ScopeId) : LeavesTemplates s (Session.enterScope scope) := .refl _

theorem scope_bind {id : ScopeId} {f : Scope → Analysis β}
    (h : LeavesTemplates s (f (s.table.scope id))) : LeavesTemplates s (scope id >>= f) := by
  rw [LeavesTemplates, exec_scope_bind]
  exact h

theorem symbol_bind {id : SymbolId} {f : Symbol → Analysis β}
    (h : LeavesTemplates s (f (s.table.symbol id))) : LeavesTemplates s (symbol id >>= f) := by
  rw [LeavesTemplates, exec_symbol_bind]
  exact h

theorem get_bind {f : Session → Analysis β} (h : LeavesTemplates s (f s)) :
    LeavesTemplates s (get >>= f) := by
  rw [LeavesTemplates, exec_get_bind]
  exact h

theorem ownScope_bind {id : SymbolId} {span : Span} {f : ScopeId → Analysis β}
    (h : ∀ own, LeavesTemplates s (f own)) : LeavesTemplates s (ownScope id span >>= f) := by
  rw [ownScope, bind_assoc]
  refine .symbol_bind ?_
  cases (s.table.symbol id).scope with
  | none => exact (LeavesHeaders.throw_bind _ _).table
  | some own => exact h own

end LeavesTemplates

/-! ### Types and instances -/

/-- The headers of a session stay what they are while a type is resolved or an instance is
made. -/
theorem Session.KeepsHeaders.simulation (s : Session) :
    Simulation (fun u v => v = u ∧ s.KeepsHeaders u) fun _ => True := by
  refine .ofInvariant (fun h _ => ⟨h.table, h.current⟩) (fun {u} h table hbuilds => ?_)
    (fun _ _ => trivial) fun _ _ _ _ _ _ => trivial
  refine ⟨h.table.trans ?_, h.current⟩
  cases hbuilds with
  | remember id type => exact .modifySymbol ⟨rfl, rfl, rfl⟩
  | modifyClass id f => exact .modifyClass _ id f
  | markDefined id => exact .markDefined _ id
  | declareInstance => exact .declareInstance _ _ _ _ _ _ _

theorem Session.KeepsHeaders.instantiate (s : Session) :
    Instantiator.Simulates (fun u v => v = u ∧ s.KeepsHeaders u) (fun _ => True)
      Session.instantiate Session.instantiate :=
  (simulation s).instantiate fun h => by rw [h.1]

theorem LeavesHeaders.of_simulates {x : Analysis α}
    (h : Simulates (fun u v => v = u ∧ s.KeepsHeaders u) (fun _ => True) x x s s) :
    LeavesHeaders s x := h.related.2

theorem leavesHeaders_typeOfSymbol (id : SymbolId) : LeavesHeaders s (typeOfSymbol id) :=
  .of_simulates ((KeepsHeaders.simulation s).typeOfSymbol ⟨rfl, .refl s⟩ id)

theorem leavesHeaders_resolveNode (node : Node) : LeavesHeaders s (resolveNode instantiate node) :=
  .of_simulates ((KeepsHeaders.simulation s).resolveNode (KeepsHeaders.instantiate s) node
    ⟨rfl, .refl s⟩)

theorem leavesHeaders_resolveType (specifiers : Specifiers) (declarator : Declarator)
    (span : Span) : LeavesHeaders s (resolveType instantiate specifiers declarator span) :=
  .of_simulates ((KeepsHeaders.simulation s).resolveType (KeepsHeaders.instantiate s)
    ⟨rfl, .refl s⟩ specifiers declarator span)

theorem leavesHeaders_resolveClass (node : Node) :
    LeavesHeaders s (resolveClass instantiate node) :=
  .of_simulates ((KeepsHeaders.simulation s).resolveClass (KeepsHeaders.instantiate s)
    ⟨rfl, .refl s⟩ node)

theorem leavesHeaders_registerBase (derived : SymbolId) (base : BaseSpecifier) :
    LeavesHeaders s (registerBase instantiate derived base) :=
  .of_simulates ((KeepsHeaders.simulation s).registerBase (KeepsHeaders.instantiate s)
    ⟨rfl, .refl s⟩ derived base)

theorem leavesHeaders_bindSources (template : SymbolId) (supplied : List Node) (span : Span) :
    LeavesHeaders s (bindSources instantiate template supplied span) :=
  .of_simulates ((KeepsHeaders.simulation s).bindSources (KeepsHeaders.instantiate s)
    ⟨rfl, .refl s⟩ template supplied span)

theorem leavesHeaders_instantiate (template : SymbolId) (arguments : List Node) (span : Span) :
    LeavesHeaders s (instantiate template arguments span) :=
  .of_simulates (KeepsHeaders.instantiate s ⟨rfl, .refl s⟩ template arguments span)

end TemplateAnalysis
