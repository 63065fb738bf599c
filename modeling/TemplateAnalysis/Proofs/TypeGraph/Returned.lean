import TemplateAnalysis.Proofs.TypeGraph.Operations
import TemplateAnalysis.Proofs.TypeGraph.Run

/-!
# Types that operations have returned

`Returned` says that an operation has returned a type somewhere in a run that ends with a
graph. The graph still returns this type, and adds none. So what operations have returned in
one run, in whatever order they were asked for and whatever else was asked for between them,
may be compared in the graph that the run ends with, and there by the trees of the types.
-/

namespace TemplateAnalysis.TypeGraph

/-- Whether an operation has returned a type at some point of a run from the empty graph that
ends with this graph. -/
def Returned (g : TypeGraph) (op : Operation) (id : TypeId) : Prop :=
  ∃ f f', Run empty f ∧ op.IsOn f ∧ op.apply f = .ok (id, f') ∧ Run f' g

/-- Whether operations, each on the type that the one before has returned, lead from a type to
another one. -/
def ReturnedAlong (g : TypeGraph) : List (TypeId → Operation) → TypeId → TypeId → Prop
  | [], t, x => g.Has t ∧ x = t
  | op :: ops, t, x => ∃ y, g.Returned (op t) y ∧ g.ReturnedAlong ops y x

variable {g : TypeGraph} {op : Operation} {t x : TypeId}

/-- What a graph returns without adding a type counts as returned. -/
theorem returned_of_apply (hrun : Run empty g) (hop : op.IsOn g) (h : op.apply g = .ok (x, g)) :
    g.Returned op x := ⟨g, g, hrun, hop, h, .refl⟩

theorem exists_returned {result : TypeId × TypeGraph} (hrun : Run empty g) (hop : op.IsOn g)
    (h : op.apply g = .ok result) : ∃ f x, Run g f ∧ f.Returned op x :=
  ⟨op.after g, result.1, Run.refl.step op hop, g, op.after g, hrun, hop,
    by rw [Operation.after, h], .refl⟩

namespace Returned

theorem canonical (h : g.Returned op x) : g.Canonical := by
  obtain ⟨f, f', hrun, hop, happly, hlater⟩ := h
  have hf' : (op.after f).Canonical := (Operation.after_canonical (hrun.canonical .empty).1 hop).1
  rw [Operation.after, happly] at hf'
  exact (hlater.canonical hf').1

theorem isOn (h : g.Returned op x) : op.IsOn g := by
  obtain ⟨f, f', hrun, hop, happly, hlater⟩ := h
  obtain ⟨hf', hkept⟩ := Operation.after_canonical (hrun.canonical .empty).1 hop
  rw [Operation.after, happly] at hf' hkept
  exact fun o ho => (hkept.trans (hlater.canonical hf').2).has (hop o ho)

theorem apply_eq (h : g.Returned op x) : op.apply g = .ok (x, g) := by
  have hg := h.canonical
  obtain ⟨f, f', hrun, hop, happly, hlater⟩ := h
  have hf := (hrun.canonical .empty).1
  have hf' := (Operation.after_canonical hf hop).1
  rw [Operation.after, happly] at hf'
  exact Operation.apply_again hf hop happly hg (hlater.canonical hf').2

theorem has (h : g.Returned op x) : g.Has x :=
  Operation.has_of_apply h.canonical h.isOn h.apply_eq

theorem has_operand (h : g.Returned op x) (hop : op.operands = [t]) : g.Has t :=
  h.isOn t (hop ▸ List.mem_cons_self)

/-! ### Trees of what was returned -/

theorem tree_eq {result : TypeId × TypeGraph} {tree : TypeTree} (h : g.Returned op x)
    (happly : op.apply g = .ok result) (htree : result.2.tree result.1 = tree) :
    g.tree x = tree := by
  cases happly.symm.trans h.apply_eq
  exact htree

theorem tree_qualify {q : Qualifiers} (h : g.Returned (.qualify t q) x) :
    g.tree x = (g.tree t).qualify q :=
  h.tree_eq rfl (TypeGraph.tree_qualify h.canonical (h.has_operand rfl) q)

theorem tree_unqualified (h : g.Returned (.unqualified t) x) :
    g.tree x = (g.tree t).unqualified :=
  h.tree_eq rfl (TypeGraph.tree_unqualified h.canonical (h.has_operand rfl))

theorem tree_array {bound : Option UInt64} (h : g.Returned (.array t bound) x) :
    g.tree x = .array (g.tree t) bound :=
  h.tree_eq rfl (TypeGraph.tree_array h.canonical (h.has_operand rfl) bound)

theorem tree_lvalueReference (h : g.Returned (.lvalueReference t) x) :
    g.tree x = (g.tree t).toLvalueReference :=
  h.tree_eq rfl (TypeGraph.tree_lvalueReference h.canonical (h.has_operand rfl))

theorem tree_rvalueReference (h : g.Returned (.rvalueReference t) x) :
    g.tree x = (g.tree t).toRvalueReference :=
  h.tree_eq rfl (TypeGraph.tree_rvalueReference h.canonical (h.has_operand rfl))

theorem eq_of_tree {other : Operation} {y : TypeId} (hx : g.Returned op x)
    (hy : g.Returned other y) (h : g.tree x = g.tree y) : x = y :=
  tree_injective hx.canonical hx.has hy.has h

end Returned

theorem ReturnedAlong.has {ops : List (TypeId → Operation)} (h : g.ReturnedAlong ops t x) :
    g.Has x := by
  induction ops generalizing t with
  | nil =>
    obtain ⟨ht, rfl⟩ := h
    exact ht
  | cons op ops ih =>
    obtain ⟨y, _, hrest⟩ := h
    exact ih hrest

end TemplateAnalysis.TypeGraph
