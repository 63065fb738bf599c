import TemplateAnalysis.Proofs.Session.Completeness

/-!
# Rules for steps

`Leads s step post` says that a step, run in the session `s`, does nothing but
changes, keeps the classes that are complete, and if it succeeds completes the instances
that it has made and returns what satisfies `post`. `Steady s first second post` says in
addition that, once `first` has returned something, the symbols that there were have at
most got a type to remember, and `second` returns the same in every later session and
changes nothing. There is one rule for each way in which steps are put together.
-/

namespace TemplateAnalysis

open Session Analysis

variable {α β : Type} {s : Session}

/-- A step does changes only, and what it returns satisfies a property, in the session
that it leaves. -/
structure Leads (s : Session) (step : Analysis α) (post : α → Session → Prop) : Prop where
  changes : s.Changes (exec step s).2
  keeps : s.table.KeepsComplete (exec step s).2.table
  completes : ∀ a, (exec step s).1 = .ok a → s.Completes (exec step s).2
  result : ∀ a, (exec step s).1 = .ok a → post a (exec step s).2

/-- Some symbols stay as they are, but for the type that they remember. -/
def Session.Spares (s : Session) (spared : SymbolId → Prop) (u : Session) : Prop :=
  ∀ id, spared id → ∃ type, u.table.symbol id = { s.table.symbol id with type }

/-- A step leads somewhere and spares the symbols that there were, and what it has
returned, the second step returns in every later session without a change. -/
structure Steady (s : Session) (first second : Analysis α) (post : α → Session → Prop) : Prop
    extends Leads s first post where
  spares : ∀ a, (exec first s).1 = .ok a → s.Spares s.table.HasSymbol (exec first s).2
  again : ∀ a, (exec first s).1 = .ok a →
    ∀ u, u.Closed → (exec first s).2.Grows u → exec second u = (.ok a, u)

theorem exec_eq_of_ok {x : Analysis α} {a : α} (h : (exec x s).1 = .ok a) :
    exec x s = (.ok a, (exec x s).2) := Prod.ext h rfl

theorem exec_bind_ok {x : Analysis α} {a : α} (h : (exec x s).1 = .ok a) (f : α → Analysis β) :
    exec (x >>= f) s = exec (f a) (exec x s).2 := by
  rw [exec_bind]
  rcases hx : exec x s with ⟨r, s'⟩
  rw [hx] at h
  cases h
  rfl

theorem exec_bind_error {x : Analysis α} {d : Diagnostic} (h : (exec x s).1 = .error d)
    (f : α → Analysis β) : exec (x >>= f) s = (.error d, (exec x s).2) := by
  rw [exec_bind]
  rcases hx : exec x s with ⟨r, s'⟩
  rw [hx] at h
  cases h
  rfl

namespace Session.Spares

variable {spared spared' : SymbolId → Prop} {u v : Session}

theorem of_symbol_eq (h : ∀ id, spared id → u.table.symbol id = s.table.symbol id) :
    s.Spares spared u := fun id hid => ⟨_, h id hid⟩

theorem refl (s : Session) (spared : SymbolId → Prop) : s.Spares spared s :=
  of_symbol_eq fun _ _ => rfl

theorem trans (hsu : s.Spares spared u) (huv : u.Spares spared' v)
    (h : ∀ id, spared id → spared' id) : s.Spares spared v := by
  intro id hid
  obtain ⟨type, hu⟩ := hsu id hid
  obtain ⟨type', hv⟩ := huv id (h id hid)
  exact ⟨type', by rw [hv, hu]⟩

theorem mono (h : s.Spares spared u) (hspared : ∀ id, spared' id → spared id) :
    s.Spares spared' u := fun id hid => h id (hspared id hid)

theorem entity_eq (h : s.Spares spared u) {id : SymbolId} (hid : spared id) :
    (u.table.symbol id).entity = (s.table.symbol id).entity := by
  obtain ⟨type, hu⟩ := h id hid
  rw [hu]

theorem isDefined_eq (h : s.Spares spared u) {id : SymbolId} (hid : spared id) :
    (u.table.symbol id).isDefined = (s.table.symbol id).isDefined := by
  obtain ⟨type, hu⟩ := h id hid
  rw [hu]

end Session.Spares

theorem Session.Change.edit_of_eq {id : SymbolId} {f : Symbol → Symbol} {y : Symbol} {role : Role}
    (has : s.table.HasSymbol id) (hf : f (s.table.symbol id) = y)
    (hedit : Symbol.Edit s id (s.table.symbol id) role y) :
    s.Change role { s with table := s.table.modifySymbol id f } :=
  .edit id f has (hf ▸ hedit)

abbrev Session.PlainChanges : Session → Session → Prop :=
  Relation.ReflTransGen fun s u => s.Change .plain u

theorem Session.PlainChanges.changes {u : Session} (h : s.PlainChanges u) : s.Changes u :=
  Relation.ReflTransGen.mono (fun _ _ hchange => ⟨_, hchange⟩) _ _ h

theorem Session.PlainChanges.keepsClasses {u : Session} (h : s.PlainChanges u) :
    s.table.KeepsClasses u.table := by
  induction h with
  | refl => exact .refl _
  | tail _ hlast ih => exact ih.trans hlast.keepsClasses

namespace Leads

variable {post : α → Session → Prop} {next : β → Session → Prop}

/-- What a step that is known does, if it keeps the classes that are complete and makes
no instance. -/
theorem of_eq {x : Analysis α} {r : Except Diagnostic α} {u : Session} (h : exec x s = (r, u))
    (hchanges : s.Changes u) (hkeeps : s.table.KeepsClasses u.table)
    (hpost : ∀ a, r = .ok a → post a u) : Leads s x post := by
  refine ⟨?_, ?_, fun a ha => ?_, fun a ha => ?_⟩
  · rw [h]
    exact hchanges
  · rw [h]
    exact hkeeps.complete
  · rw [h]
    exact .of_keepsClasses hkeeps
  · rw [h] at ha ⊢
    exact hpost a ha

theorem changes_of_eq {x : Analysis α} {r : Except Diagnostic α} {u : Session}
    (h : exec x s = (r, u)) (hchanges : s.PlainChanges u) (hpost : ∀ a, r = .ok a → post a u) :
    Leads s x post := of_eq h hchanges.changes hchanges.keepsClasses hpost

theorem change {x : Analysis α} {a : α} {u : Session} (h : exec x s = (.ok a, u))
    (hchange : s.Change .plain u) (hpost : post a u) : Leads s x post :=
  changes_of_eq h (.single hchange) fun b hb => by
    cases hb
    exact hpost

theorem congr {x y : Analysis α} (h : exec x s = exec y s) (hy : Leads s y post) :
    Leads s x post :=
  ⟨h ▸ hy.changes, h ▸ hy.keeps, h ▸ hy.completes, h ▸ hy.result⟩

theorem mono {weaker : α → Session → Prop} {x : Analysis α} (hx : Leads s x post)
    (h : ∀ a u, post a u → weaker a u) : Leads s x weaker :=
  { hx with result := fun a ha => h a _ (hx.result a ha) }

theorem and {known : α → Prop} {x : Analysis α} (hx : Leads s x post)
    (h : ∀ a, (exec x s).1 = .ok a → known a) : Leads s x fun a u => known a ∧ post a u :=
  { hx with result := fun a ha => ⟨h a ha, hx.result a ha⟩ }

theorem run {x : Analysis α} (hx : Leads s x post) :
    Leads s x fun a u => exec x s = (.ok a, u) ∧ post a u :=
  { hx with result := fun a ha => ⟨exec_eq_of_ok ha, hx.result a ha⟩ }

theorem read {later : α → Session → Prop} {x : Analysis α} (hs : s.Closed) (hx : Leads s x post)
    (h : ∀ a u, post a u → u.Closed → s.Grows u → later a u) : Leads s x later := by
  obtain ⟨hclosed, hgrows⟩ := hx.changes.preserves hs
  exact { hx with result := fun a ha => h a _ (hx.result a ha) hclosed hgrows }

theorem pure {a : α} (h : post a s) : Leads s (Pure.pure a) post :=
  changes_of_eq (exec_pure s a) .refl fun b hb => by
    cases hb
    exact h

theorem throw (d : Diagnostic) : Leads s (MonadExcept.throw d : Analysis α) post :=
  changes_of_eq (exec_throw s d) .refl fun b hb => by cases hb

theorem bind {x : Analysis α} {f : α → Analysis β} (hs : s.Closed) (hx : Leads s x post)
    (hf : ∀ a u, post a u → u.Closed → s.Grows u → Leads u (f a) next) :
    Leads s (x >>= f) next := by
  obtain ⟨hclosed, hgrows⟩ := hx.changes.preserves hs
  cases hr : (exec x s).1 with
  | error d =>
    have hbind := exec_bind_error hr f
    refine ⟨hbind ▸ hx.changes, hbind ▸ hx.keeps, fun b hb => ?_, fun b hb => ?_⟩
    all_goals
      rw [hbind] at hb
      cases hb
  | ok a =>
    have hbind := exec_bind_ok hr f
    have hstep := hf a _ (hx.result a hr) hclosed hgrows
    refine ⟨hbind ▸ hx.changes.trans hstep.changes, hbind ▸ hx.keeps.trans hstep.keeps,
      fun b hb => ?_, fun b hb => ?_⟩
    · rw [hbind] at hb ⊢
      exact (hx.completes a hr).trans (hstep.completes b hb) hgrows
        (hstep.changes.preserves hclosed).2 hstep.keeps
    · rw [hbind] at hb ⊢
      exact hstep.result b hb

theorem mapFault {x : Analysis α} (f : Diagnostic → Diagnostic) (hx : Leads s x post) :
    Leads s (tryCatch x fun d => MonadExcept.throw (f d)) post := by
  have hcatch := exec_tryCatch s x fun d => MonadExcept.throw (f d)
  rcases hr : exec x s with ⟨r, u⟩
  rw [hr] at hcatch
  cases r with
  | ok a => exact .congr (hcatch.trans hr.symm) hx
  | error d =>
    have hchanges := hx.changes
    have hkeeps := hx.keeps
    rw [hr] at hchanges hkeeps
    refine ⟨hcatch ▸ hchanges, hcatch ▸ hkeeps, fun b hb => ?_, fun b hb => ?_⟩
    all_goals
      rw [hcatch] at hb
      cases hb

/-- Steps for the elements of a list, one after the other. What holds after some of them
is the invariant for these. -/
theorem forM {xs : List β} {f : β → Analysis Unit} (invariant : List β → Session → Prop)
    (hs : s.Closed) (hstart : invariant [] s)
    (h : ∀ done, ∀ x ∈ xs, ∀ u, u.Closed → s.Grows u → invariant done u →
      Leads u (f x) fun _ v => invariant (done ++ [x]) v) :
    Leads s (xs.forM f) fun _ u => invariant xs u := by
  have hrest : ∀ (rest done : List β) (u : Session), (∀ x ∈ rest, x ∈ xs) → u.Closed →
      s.Grows u → invariant done u →
      Leads u (rest.forM f) fun _ v => invariant (done ++ rest) v := by
    intro rest
    induction rest with
    | nil =>
      intro done u _ _ _ hdone
      rw [List.append_nil]
      exact .pure hdone
    | cons x rest ih =>
      intro done u hmem hu hgrows hdone
      have hx := h done x (hmem x List.mem_cons_self) u hu hgrows hdone
      refine Leads.bind hu hx fun _ v hv hclosed hgrows' => ?_
      have := ih (done ++ [x]) v (fun y hy => hmem y (List.mem_cons_of_mem _ hy)) hclosed
        (hgrows.trans hgrows') hv
      rwa [List.append_assoc, List.singleton_append] at this
  exact hrest xs [] s (fun _ h => h) hs (.refl s) hstart

end Leads

/-! ### Reading the session -/

section Reading

variable {post : β → Session → Prop}

theorem exec_get_bind (s : Session) (f : Session → Analysis β) :
    exec (get >>= f) s = exec (f s) s := by rw [exec_bind, exec_get]

theorem exec_symbol_bind (s : Session) (id : SymbolId) (f : Symbol → Analysis β) :
    exec (symbol id >>= f) s = exec (f (s.table.symbol id)) s := by rw [exec_bind, exec_symbol]

theorem exec_scope_bind (s : Session) (id : ScopeId) (f : Scope → Analysis β) :
    exec (scope id >>= f) s = exec (f (s.table.scope id)) s := by rw [exec_bind, exec_scope]

theorem exec_throw_bind (s : Session) (d : Diagnostic) (f : α → Analysis β) :
    exec ((throw d : Analysis α) >>= f) s = (.error d, s) := by rw [exec_bind, exec_throw]

theorem exec_ofExcept_bind (s : Session) {r : Except Diagnostic α} {a : α} (h : r = .ok a)
    (f : α → Analysis β) : exec ((ofExcept r : Analysis α) >>= f) s = exec (f a) s := by
  rw [exec_bind, exec_ofExcept, h]

namespace Leads

theorem get_bind {f : Session → Analysis β} (h : Leads s (f s) post) :
    Leads s (get >>= f) post := .congr (exec_get_bind s f) h

theorem symbol_bind {id : SymbolId} {f : Symbol → Analysis β}
    (h : Leads s (f (s.table.symbol id)) post) : Leads s (symbol id >>= f) post :=
  .congr (exec_symbol_bind s id f) h

theorem scope_bind {id : ScopeId} {f : Scope → Analysis β}
    (h : Leads s (f (s.table.scope id)) post) : Leads s (scope id >>= f) post :=
  .congr (exec_scope_bind s id f) h

theorem throw_bind (d : Diagnostic) (f : α → Analysis β) :
    Leads s ((MonadExcept.throw d : Analysis α) >>= f) post :=
  .congr ((exec_throw_bind s d f).trans (exec_throw s d).symm) (.throw d)

theorem ofExcept_bind {r : Except Diagnostic α} {f : α → Analysis β}
    (h : ∀ a, r = .ok a → Leads s (f a) post) :
    Leads s ((ofExcept r : Analysis α) >>= f) post := by
  cases hr : r with
  | error d =>
    refine .congr (y := MonadExcept.throw d) ?_ (.throw d)
    rw [exec_bind, exec_ofExcept, exec_throw]
  | ok a => exact .congr (exec_ofExcept_bind s rfl f) (h a hr)

theorem evaluate_bind {node : Node} {f : Constant → Analysis β}
    (h : ∀ c, s.table.evaluate node = .ok c → Leads s (f c) post) :
    Leads s (evaluate node >>= f) post := by
  refine .congr (y := ofExcept (s.table.evaluate node) >>= f) ?_ (.ofExcept_bind h)
  rw [exec_bind, exec_bind, exec_evaluate, exec_ofExcept]

end Leads

end Reading

/-! ### Steps that return the same again -/

namespace Steady

variable {post : α → Session → Prop} {next : β → Session → Prop}

/-- Steps that do the same, the second one in every later session, may be exchanged. -/
theorem congr {first second first' second' : Analysis α} (h : Steady s first' second' post)
    (hfirst : exec first s = exec first' s)
    (hsecond : ∀ u, u.Closed → s.Grows u → exec second u = exec second' u) (hs : s.Closed) :
    Steady s first second post where
  toLeads := .congr hfirst h.toLeads
  spares a ha := by
    rw [hfirst] at ha ⊢
    exact h.spares a ha
  again a ha u hu hgrows := by
    rw [hfirst] at ha hgrows
    rw [hsecond u hu ((h.changes.preserves hs).2.trans hgrows)]
    exact h.again a ha u hu hgrows

theorem leads {first second : Analysis α} (h : Steady s first second post) :
    Leads s first fun a u => post a u ∧ s.Spares s.table.HasSymbol u ∧
      ∀ v, v.Closed → u.Grows v → exec second v = (.ok a, v) :=
  { h.toLeads with result := fun a ha => ⟨h.result a ha, h.spares a ha, h.again a ha⟩ }

theorem mono {weaker : α → Session → Prop} {first second : Analysis α}
    (h : Steady s first second post) (hpost : ∀ a u, post a u → weaker a u) :
    Steady s first second weaker := { h with toLeads := h.toLeads.mono hpost }

theorem pure {a : α} (h : post a s) : Steady s (Pure.pure a) (Pure.pure a) post where
  toLeads := .pure h
  spares _ _ := .refl s _
  again b hb u _ _ := by
    cases hb
    rfl

/-- A step that fails has returned nothing, so the second one does not matter. -/
theorem throw (d : Diagnostic) (second : Analysis α) :
    Steady s (MonadExcept.throw d) second post where
  toLeads := .throw d
  spares b hb := by cases hb
  again b hb := by cases hb

theorem error {first : Analysis α} {d : Diagnostic} (h : exec first s = (.error d, s))
    (second : Analysis α) : Steady s first second post where
  toLeads := .congr (h.trans (exec_throw s d).symm) (.throw d)
  spares a ha := by
    rw [h] at ha
    cases ha
  again a ha := by
    rw [h] at ha
    cases ha

theorem throw_bind (d : Diagnostic) (f : α → Analysis β) (second : Analysis β) :
    Steady s ((MonadExcept.throw d : Analysis α) >>= f) second next :=
  .error (exec_throw_bind s d f) second

theorem mapFault {first second : Analysis α} (f : Diagnostic → Diagnostic)
    (h : Steady s first second post) :
    Steady s (tryCatch first fun d => MonadExcept.throw (f d))
      (tryCatch second fun d => MonadExcept.throw (f d)) post := by
  have hok : ∀ {x : Analysis α} {a : α} {u v : Session}, exec x u = (.ok a, v) →
      exec (tryCatch x fun d => MonadExcept.throw (f d)) u = (.ok a, v) := by
    intro x a u v hx
    rw [exec_tryCatch, hx]
  have hfirst : ∀ a, (exec (tryCatch first fun d => MonadExcept.throw (f d)) s).1 = .ok a →
      exec (tryCatch first fun d => MonadExcept.throw (f d)) s = exec first s := by
    intro a ha
    rcases hr : exec first s with ⟨b | b, u⟩
    · rw [exec_tryCatch, hr] at ha
      cases ha
    · exact hok hr
  refine ⟨h.toLeads.mapFault f, fun a ha => ?_, fun a ha u hu hgrows => ?_⟩
  · have heq := hfirst a ha
    rw [heq] at ha ⊢
    exact h.spares a ha
  · have heq := hfirst a ha
    rw [heq] at ha hgrows
    exact hok (h.again a ha u hu hgrows)

theorem bind {first second : Analysis α} {f g : α → Analysis β} (hs : s.Closed)
    (hx : Steady s first second post)
    (hf : ∀ a u, post a u → u.Closed → s.Grows u → Steady u (f a) (g a) next) :
    Steady s (first >>= f) (second >>= g) next where
  toLeads := .bind hs hx.toLeads fun a u ha hu hgrows => (hf a u ha hu hgrows).toLeads
  spares b hb := by
    obtain ⟨hclosed, hgrows⟩ := hx.changes.preserves hs
    cases hr : (exec first s).1 with
    | error d =>
      rw [exec_bind_error hr f] at hb
      cases hb
    | ok a =>
      rw [exec_bind_ok hr f] at hb ⊢
      have hstep := hf a _ (hx.result a hr) hclosed hgrows
      exact (hx.spares a hr).trans (hstep.spares b hb) fun id hid => hgrows.table.hasSymbol id hid
  again b hb v hv hgrows := by
    obtain ⟨hclosed, hgrows'⟩ := hx.changes.preserves hs
    cases hr : (exec first s).1 with
    | error d =>
      rw [exec_bind_error hr f] at hb
      cases hb
    | ok a =>
      rw [exec_bind_ok hr f] at hb hgrows
      have hstep := hf a _ (hx.result a hr) hclosed hgrows'
      have hlater := (hstep.changes.preserves hclosed).2.trans hgrows
      rw [exec_bind, hx.again a hr v hv hlater]
      exact hstep.again b hb v hv hgrows

end Steady

end TemplateAnalysis
