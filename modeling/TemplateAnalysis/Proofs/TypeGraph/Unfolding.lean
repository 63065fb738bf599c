import TemplateAnalysis.Proofs.TypeGraph.Canonical

/-!
# Types and the trees they unfold to

On a canonical graph the depth that `tree` unfolds to is deep enough, so that the
tree of a type is its label over the trees of its operands. The tree of a type
does not change as the graph grows, and two types with the same tree are one type:
the graph shares all equal subtrees.
-/

namespace TemplateAnalysis

/-- Applied operators agree only if the operators do, up to the parameters. -/
theorem TypeOp.apply_inj {tree : TypeId → TypeTree} {x y : TypeTree} {op op' : TypeOp}
    (h : op.apply tree x = op'.apply tree y)
    (hparameters : op.parameters.map tree = op'.parameters.map tree →
      op.parameters = op'.parameters) :
    x = y ∧ op = op' := by
  cases op <;> cases op' <;> simp_all [TypeOp.apply, TypeOp.parameters]

theorem TypeOp.apply_congr {tree tree' : TypeId → TypeTree} {x x' : TypeTree} {op : TypeOp}
    (hx : x = x') (h : ∀ p ∈ op.parameters, tree p = tree' p) :
    op.apply tree x = op.apply tree' x' := by
  cases op with
  | function parameters variadic q =>
    simp only [TypeOp.apply, hx, TypeTree.function.injEq, true_and, and_true]
    exact List.map_congr_left h
  | pointer _ | lvalueReference | rvalueReference | array _ => simp [TypeOp.apply, hx]

theorem TypeOp.apply_ne_base {tree : TypeId → TypeTree} {x : TypeTree} {op : TypeOp}
    {key : BaseKey} : op.apply tree x ≠ .base key := by
  cases op <;> simp [TypeOp.apply]

theorem map_injective_of_mem {α β : Type} {f : α → β} :
    ∀ {xs ys : List α}, (∀ x ∈ xs, ∀ y ∈ ys, f x = f y → x = y) →
      xs.map f = ys.map f → xs = ys
  | [], [], _, _ => rfl
  | x :: xs, y :: ys, hinj, h => by
    simp only [List.map_cons, List.cons.injEq] at h
    have hxy : x = y := hinj x (by simp) y (by simp) h.1
    have hrest : xs = ys := map_injective_of_mem
      (fun a ha b hb => hinj a (by simp [ha]) b (by simp [hb])) h.2
    rw [hxy, hrest]

namespace TypeGraph

variable {g : TypeGraph}

/-- Unfolding deeper than the number of a type changes nothing. -/
theorem treeWithin_eq_tree (hg : g.Canonical) :
    ∀ (depth : Nat) (id : TypeId), g.Has id → id.index < depth →
      g.treeWithin depth id = g.tree id := by
  intro depth
  induction depth using Nat.strongRecOn with
  | ind depth ih =>
    intro id hid hlt
    obtain ⟨depth, rfl⟩ : ∃ n, depth = n + 1 := ⟨depth - 1, by omega⟩
    obtain ⟨l, hl, heq⟩ := exists_label? hid
    rw [tree, treeWithin, treeWithin, heq]
    rcases l with key | ⟨operand, op⟩
    · rfl
    · -- Both depths bound the operands, which stand before the type.
      have hboth : ∀ o ∈ (TypeLabel.derived operand op).operands,
          g.treeWithin depth o = g.treeWithin id.index o := by
        intro o ho
        have ho' : o.index < id.index := hg.operand_lt hl o ho
        have hhas : g.Has o := hg.has_operand hl ho
        rw [ih depth (by omega) o hhas (by omega), ih id.index (by omega) o hhas ho']
      exact TypeOp.apply_congr (hboth operand (by simp [TypeLabel.operands]))
        fun p hp => hboth p (by simp [TypeLabel.operands, hp])

theorem tree_of_base {id : TypeId} {key : BaseKey} (h : g.label? id = some (.base key)) :
    g.tree id = .base key := by
  rw [tree, treeWithin, label_eq_of_label? h]

theorem tree_of_derived (hg : g.Canonical) {id operand : TypeId} {op : TypeOp}
    (h : g.label? id = some (.derived operand op)) :
    g.tree id = op.apply g.tree (g.tree operand) := by
  have hoperands : ∀ o ∈ (TypeLabel.derived operand op).operands,
      g.treeWithin id.index o = g.tree o := fun o ho =>
    treeWithin_eq_tree hg _ o (hg.has_operand h ho) (hg.operand_lt h o ho)
  rw [tree, treeWithin, label_eq_of_label? h]
  exact TypeOp.apply_congr (hoperands operand (by simp [TypeLabel.operands]))
    fun p hp => hoperands p (by simp [TypeLabel.operands, hp])

/-- Types with the same tree are one type. -/
theorem tree_injective (hg : g.Canonical) {a b : TypeId} (ha : g.Has a) (hb : g.Has b)
    (h : g.tree a = g.tree b) : a = b := by
  obtain ⟨n, hn⟩ : ∃ n, a.index = n := ⟨_, rfl⟩
  induction n using Nat.strongRecOn generalizing a b with
  | ind n ih =>
    obtain ⟨l, hl, _⟩ := exists_label? ha
    obtain ⟨m, hm, _⟩ := exists_label? hb
    suffices hlm : l = m from hg.label_unique hl (hlm ▸ hm)
    rcases l with key | ⟨operand, op⟩ <;> rcases m with key' | ⟨operand', op'⟩
    · rw [tree_of_base hl, tree_of_base hm] at h
      rw [TypeTree.base.inj h]
    · rw [tree_of_base hl, tree_of_derived hg hm] at h
      exact absurd h.symm TypeOp.apply_ne_base
    · rw [tree_of_derived hg hl, tree_of_base hm] at h
      exact absurd h TypeOp.apply_ne_base
    · -- The operands of `a` stand before it, so the induction applies to them.
      have hsub : ∀ o ∈ (TypeLabel.derived operand op).operands,
          ∀ o' ∈ (TypeLabel.derived operand' op').operands, g.tree o = g.tree o' → o = o' :=
        fun o ho o' ho' heq => ih o.index (by have := hg.operand_lt hl o ho; omega)
          (hg.has_operand hl ho) (hg.has_operand hm ho') heq rfl
      rw [tree_of_derived hg hl, tree_of_derived hg hm] at h
      obtain ⟨hoperand, hop⟩ := TypeOp.apply_inj h <| map_injective_of_mem
        fun p hp p' hp' => hsub p (by simp [TypeLabel.operands, hp]) p'
          (by simp [TypeLabel.operands, hp'])
      rw [hop, hsub operand (by simp [TypeLabel.operands]) operand'
        (by simp [TypeLabel.operands]) hoperand]

theorem Prefix.tree_eq {h : TypeGraph} (hp : g.Prefix h) (hg : g.Canonical) (hh : h.Canonical)
    {id : TypeId} (hid : g.Has id) : h.tree id = g.tree id := by
  obtain ⟨n, hn⟩ : ∃ n, id.index = n := ⟨_, rfl⟩
  induction n using Nat.strongRecOn generalizing id with
  | ind n ih =>
    obtain ⟨l, hl, _⟩ := exists_label? hid
    rcases l with key | ⟨operand, op⟩
    · rw [tree_of_base hl, tree_of_base (hp id _ hl)]
    · have hsub : ∀ o ∈ (TypeLabel.derived operand op).operands, h.tree o = g.tree o :=
        fun o ho => ih o.index (by have := hg.operand_lt hl o ho; omega)
          (hg.has_operand hl ho) rfl
      rw [tree_of_derived hg hl, tree_of_derived hh (hp id _ hl)]
      exact TypeOp.apply_congr (hsub operand (by simp [TypeLabel.operands]))
        fun p hp => hsub p (by simp [TypeLabel.operands, hp])

end TypeGraph

end TemplateAnalysis
