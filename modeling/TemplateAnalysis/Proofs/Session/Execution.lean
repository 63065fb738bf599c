import TemplateAnalysis.Session.Basic

/-!
# Running a step of a session

`exec step s` is what a step returns in the session `s`, with the session that it
leaves. A sequence of steps runs until one fails, and what came before stays.
-/

namespace TemplateAnalysis

def Declaring.exec {α : Type} (change : Declaring α) (t : SymbolTable) :
    Except Diagnostic α × SymbolTable :=
  change.run t

namespace Declaring

variable {α β : Type} (t : SymbolTable)

theorem exec_get_bind (f : SymbolTable → Declaring β) :
    Declaring.exec (get >>= f) t = exec (f t) t := rfl

theorem exec_modify_bind (change : SymbolTable → SymbolTable) (f : PUnit → Declaring β) :
    exec (modify change >>= f) t = exec (f ⟨⟩) (change t) := rfl

theorem exec_ofExcept_bind (r : Except Diagnostic α) (f : α → Declaring β) :
    exec (MonadExcept.ofExcept r >>= f) t =
      match r with
      | .ok a => exec (f a) t
      | .error d => (.error d, t) := by
  cases r <;> rfl

end Declaring

namespace Analysis

/-- What a step returns, with the session it leaves. -/
def exec {α : Type} (step : Analysis α) (s : Session) : Except Diagnostic α × Session :=
  step.run s

section Rules

variable {α β : Type} (s : Session)

@[simp] theorem exec_pure (a : α) : exec (pure a) s = (.ok a, s) := rfl

@[simp] theorem exec_throw (d : Diagnostic) : exec (throw d : Analysis α) s = (.error d, s) := rfl

theorem exec_bind (x : Analysis α) (f : α → Analysis β) :
    exec (x >>= f) s =
      match exec x s with
      | (.ok a, s') => exec (f a) s'
      | (.error d, s') => (.error d, s') := by
  simp only [exec, bind, ExceptT.run, ExceptT.bind, ExceptT.mk, StateT.bind]
  rcases (x : StateM Session (Except Diagnostic α)) s with ⟨_ | _, s'⟩ <;> rfl

/-- Both of two steps in sequence succeed, or the sequence does not. -/
theorem exec_bind_eq_ok {s v : Session} {x : Analysis α} {f : α → Analysis β} {b : β} :
    exec (x >>= f) s = (.ok b, v) ↔
      ∃ a u, exec x s = (.ok a, u) ∧ exec (f a) u = (.ok b, v) := by
  rw [exec_bind]
  rcases exec x s with ⟨d | a, u⟩
  · simp
  · constructor
    · exact fun h => ⟨a, u, rfl, h⟩
    · rintro ⟨a', u', heq, h⟩
      cases heq
      exact h

@[simp] theorem exec_get : exec get s = (.ok s, s) := rfl

@[simp] theorem exec_modify (f : Session → Session) : exec (modify f) s = (.ok (), f s) := rfl

@[simp] theorem exec_modifyTable (f : SymbolTable → SymbolTable) :
    exec (modifyTable f) s = (.ok (), { s with table := f s.table }) := rfl

@[simp] theorem exec_changeTable (f : SymbolTable → α × SymbolTable) :
    exec (changeTable f) s = (.ok (f s.table).1, { s with table := (f s.table).2 }) := rfl

@[simp] theorem exec_onTypes (f : TypeGraph → α × TypeGraph) :
    exec (onTypes f) s = (.ok (f s.types).1, { s with types := (f s.types).2 }) := rfl

@[simp] theorem exec_onTable (change : Declaring α) :
    exec (onTable change) s =
      ((change.exec s.table).1, { s with table := (change.exec s.table).2 }) := rfl

@[simp] theorem exec_symbol (id : SymbolId) : exec (symbol id) s = (.ok (s.table.symbol id), s) :=
  rfl

@[simp] theorem exec_scope (id : ScopeId) : exec (scope id) s = (.ok (s.table.scope id), s) := rfl

@[simp] theorem exec_ofExcept (r : Except Diagnostic α) :
    exec (ofExcept r : Analysis α) s = (r, s) := by
  cases r <;> rfl

@[simp] theorem exec_evaluate (node : Node) :
    exec (evaluate node) s = (s.table.evaluate node, s) := by
  rw [evaluate, exec_bind, exec_get]
  exact exec_ofExcept s _

@[simp] theorem exec_inScope (scope : ScopeId) (step : Analysis α) :
    exec (inScope scope step) s =
      ((exec step { s with current := scope }).1,
        { (exec step { s with current := scope }).2 with current := s.current }) := rfl

@[simp] theorem exec_nested (step : Analysis α) :
    exec (nested step) s =
      ((exec step { s with depth := s.depth + 1 }).1,
        { (exec step { s with depth := s.depth + 1 }).2 with
          depth := (exec step { s with depth := s.depth + 1 }).2.depth - 1 }) := rfl

theorem exec_tryCatch (x : Analysis α) (h : Diagnostic → Analysis α) :
    exec (tryCatch x h) s =
      match exec x s with
      | (.ok a, s') => (.ok a, s')
      | (.error d, s') => exec (h d) s' := by
  simp only [exec, tryCatch, tryCatchThe, MonadExceptOf.tryCatch, ExceptT.tryCatch, ExceptT.run,
    ExceptT.mk, bind, StateT.bind]
  rcases (x : StateM Session (Except Diagnostic α)) s with ⟨_ | _, s'⟩ <;> rfl

end Rules

end Analysis

end TemplateAnalysis
