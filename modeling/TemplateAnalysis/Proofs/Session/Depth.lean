import TemplateAnalysis.Proofs.Session.Simulation

/-!
# The depth of an instantiation

A session counts the instances that are being made. Only asking for an instance reads the
count, and then only for what the limit leaves; so within a given rest a resolution does
the same at every depth, and leaves the depth as it was. Instantiation therefore obeys the
equation that it is understood by: at the limit it fails, and below the limit it makes one
instance, with the instances that this one needs made one level deeper.
-/

namespace TemplateAnalysis

open Session Analysis

variable {α : Type}

/-- Two sessions at two depths that agree in everything else. -/
structure Session.AtDepths (m n : Nat) (s u : Session) : Prop where
  depth : s.depth = m
  eq : u = { s with depth := n }

theorem Analysis.ext_exec {x y : Analysis α} (h : ∀ s, exec x s = exec y s) : x = y := funext h

theorem simulation_atDepths (m n : Nat) : Simulation (AtDepths m n) fun _ => True where
  table_eq h := by rw [h.eq]
  types_eq h := by rw [h.eq]
  config_eq h := by rw [h.eq]
  withTypes h types := ⟨h.depth, by rw [h.eq]⟩
  withTable h _ _ := ⟨h.depth, by rw [h.eq]⟩
  external _ _ := trivial
  substitution _ _ _ _ _ _ := trivial

/-- Instantiation within a given rest does the same at every depth, and restores it. -/
theorem atDepths_instantiateWithin : ∀ left m n : Nat,
    Instantiator.Simulates (AtDepths m n) (fun _ => True) (instantiateWithin left)
      (instantiateWithin left)
  | 0, m, n, s, u, h, template, _, span => by
    refine .get_bind ?_
    rw [(simulation_atDepths m n).table_eq h, (simulation_atDepths m n).config_eq h]
    exact .throw h trivial
  | left + 1, m, n, s, u, h, template, arguments, span => by
    have hinner := (simulation_atDepths (m + 1) (n + 1)).instantiateStep
      (atDepths_instantiateWithin left (m + 1) (n + 1))
      (s := { s with depth := s.depth + 1 }) (u := { u with depth := u.depth + 1 })
      ⟨congrArg (· + 1) h.depth, by rw [h.eq]⟩ template arguments span
    refine ⟨hinner.result, ⟨?_, ?_⟩, hinner.failsOnly⟩
    · exact congrArg (· - 1) hinner.related.depth
    · rw [instantiateWithin, exec_nested, exec_nested, hinner.related.eq]
      rfl

theorem nested_eq {x : Analysis α}
    (h : ∀ s, Simulates (AtDepths s.depth (s.depth + 1)) (fun _ => True) x x s
      { s with depth := s.depth + 1 }) : nested x = x := by
  refine Analysis.ext_exec fun s => ?_
  obtain ⟨hresult, ⟨hdepth, heq⟩, _⟩ := h s
  rw [exec_nested, hresult, heq]
  exact Prod.ext rfl (by rw [← hdepth]; rfl)

theorem instantiateWithin_succ (left : Nat) :
    instantiateWithin (left + 1) = instantiateStep (instantiateWithin left) := by
  funext template arguments span
  exact nested_eq fun s => (simulation_atDepths _ _).instantiateStep
    (atDepths_instantiateWithin left _ _) ⟨rfl, rfl⟩ template arguments span

variable {R : Session → Session → Prop} {faults : Diagnostic → Prop}

/-- Instantiation within a given rest does the same in related sessions. -/
theorem Simulation.instantiateWithin (hsim : Simulation R faults) : ∀ left : Nat,
    Instantiator.Simulates R faults (Session.instantiateWithin left)
      (Session.instantiateWithin left)
  | 0, s, u, h, template, _, span => by
    refine .get_bind ?_
    rw [hsim.table_eq h, hsim.config_eq h]
    exact .throw h (hsim.external _ (by rfl))
  | left + 1, s, u, h, template, arguments, span => by
    rw [instantiateWithin_succ]
    exact hsim.instantiateStep (hsim.instantiateWithin left) h template arguments span

theorem Simulation.instantiate (hsim : Simulation R faults)
    (hdepth : ∀ {s u}, R s u → u.depth = s.depth) :
    Instantiator.Simulates R faults Session.instantiate Session.instantiate := by
  intro s u h template arguments span
  refine .get_bind ?_
  rw [hsim.config_eq h, hdepth h]
  exact hsim.instantiateWithin _ h template arguments span

/-- Instantiation fails at the limit, and makes one instance below it, with the instances
that this one needs made one level deeper. -/
theorem exec_instantiate (template : SymbolId) (arguments : List Node) (span : Span)
    (s : Session) :
    exec (instantiate template arguments span) s =
      if s.config.maxDepth ≤ s.depth then
        (.error ⟨.depthExceeded (s.table.symbol template).name s.config.maxDepth, span⟩, s)
      else exec (nested (instantiateStep instantiate template arguments span)) s := by
  rw [instantiate, exec_get_bind]
  split
  · rename_i hdepth
    rw [Nat.sub_eq_zero_of_le hdepth]
    exact exec_get_bind s _
  · obtain ⟨left, hleft⟩ : ∃ left, s.config.maxDepth - s.depth = left + 1 :=
      ⟨s.config.maxDepth - s.depth - 1, by omega⟩
    rw [hleft, Session.instantiateWithin, exec_nested, exec_nested]
    -- One level deeper the same rest is left wherever an instance is asked for.
    have hrest : Simulation (fun s u => u = s ∧ s.config.maxDepth - s.depth = left)
        fun _ => True :=
      .ofInvariant (fun h _ => h) (fun h _ _ => h) (fun _ _ => trivial)
        fun _ _ _ _ _ _ => trivial
    have hinst : Instantiator.Simulates (fun s u => u = s ∧ s.config.maxDepth - s.depth = left)
        (fun _ => True) (Session.instantiateWithin left) instantiate := by
      rintro v w ⟨rfl, hv⟩ template arguments span
      refine .congr rfl ?_ (hrest.instantiateWithin left ⟨rfl, hv⟩ template arguments span)
      rw [instantiate, exec_get_bind, hv]
    obtain ⟨hresult, ⟨heq, _⟩, _⟩ := hrest.instantiateStep hinst
      (s := { s with depth := s.depth + 1 })
      ⟨rfl, show s.config.maxDepth - (s.depth + 1) = left by omega⟩ template arguments span
    rw [hresult, heq]

end TemplateAnalysis
