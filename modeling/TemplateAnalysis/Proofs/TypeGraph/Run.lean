import TemplateAnalysis.Proofs.TypeGraph.Symbols

/-!
# Sequences of graph operations

`Operation` lists what can be asked of a graph, and `Run` is a sequence of
operations, each applied to types of the graph that it meets. Every graph that a
run from the empty one ends with is canonical, its types are in bijection with
the trees they unfold to, and the rest of the run changes none of them.
-/

namespace TemplateAnalysis.TypeGraph

inductive Operation where
  | base (key : BaseKey)
  | primitive (type : Primitive) (qualifiers : Qualifiers)
  | symbolType (symbol : SymbolId) (qualifiers : Qualifiers)
  | ofKeywords (keywords : KeywordSet)
  | pointer (target : TypeId) (qualifiers : Qualifiers)
  | lvalueReference (id : TypeId)
  | rvalueReference (id : TypeId)
  | array (element : TypeId) (bound : Option UInt64)
  | function (result : TypeId) (parameters : List TypeId) (variadic : Bool)
      (qualifiers : Qualifiers)
  | qualify (id : TypeId) (qualifiers : Qualifiers)
  | unqualified (id : TypeId)
  | adjusted (id : TypeId)
deriving DecidableEq

namespace Operation

def operands : Operation → List TypeId
  | base _ | primitive _ _ | symbolType _ _ | ofKeywords _ => []
  | pointer id _ | lvalueReference id | rvalueReference id | array id _ | qualify id _
  | unqualified id | adjusted id => [id]
  | function result parameters _ _ => result :: parameters

/-- The type that an operation returns, with the graph it leaves. Only keywords may
name no type. -/
def apply : Operation → TypeGraph → Except KeywordFault (TypeId × TypeGraph)
  | base key, g => .ok (g.base key)
  | primitive type q, g => .ok (g.primitive type q)
  | symbolType symbol q, g => .ok (g.symbolType symbol q)
  | ofKeywords keywords, g => g.ofKeywords keywords
  | pointer target q, g => .ok (g.pointer target q)
  | lvalueReference id, g => .ok (g.lvalueReference id)
  | rvalueReference id, g => .ok (g.rvalueReference id)
  | array element bound, g => .ok (g.array element bound)
  | function result parameters variadic q, g => .ok (g.function result parameters variadic q)
  | qualify id q, g => .ok (g.qualify id q)
  | unqualified id, g => .ok (g.unqualified id)
  | adjusted id, g => .ok (g.adjusted id)

def after (op : Operation) (g : TypeGraph) : TypeGraph :=
  match op.apply g with
  | .ok (_, h) => h
  | .error _ => g

def IsOn (op : Operation) (g : TypeGraph) : Prop := ∀ o ∈ op.operands, g.Has o

/-- An operation that is given no type may be asked for in every graph. -/
theorem isOn_of_operands_nil {g : TypeGraph} {op : Operation} (hop : op.operands = []) :
    op.IsOn g := by
  intro o ho
  rw [hop] at ho
  cases ho

theorem isOn_of_operands {g : TypeGraph} {op : Operation} {t : TypeId} (hop : op.operands = [t])
    (ht : g.Has t) : op.IsOn g := by
  intro o ho
  rw [hop, List.mem_singleton] at ho
  exact ho ▸ ht

def symbols : Operation → List SymbolId
  | base key => key.symbols
  | symbolType symbol _ => [symbol]
  | _ => []

/-- The labels that an operation may add to a graph. -/
def Adds (g : TypeGraph) : Operation → TypeLabel → Prop
  | base key, l => l = .base key
  | primitive type q, l => l = .base (.primitive type q)
  | symbolType symbol q, l => l = .base (.symbol symbol q)
  | ofKeywords _, l => ∃ type q, l = .base (.primitive type q)
  | function result parameters variadic q, l =>
    l = .derived result (.function parameters variadic q)
  | _, l => g.Derivable l

/-- An operation on types of a graph either finds that its keywords name no type, or
is settled. -/
theorem settled_of_isOn {g : TypeGraph} (hg : g.Canonical) {op : Operation} (hop : op.IsOn g) :
    (∃ fault, ∀ h, op.apply h = .error fault) ∨
      ∃ f, (∀ h, op.apply h = .ok (f h)) ∧ Settled (op.Adds g) g f := by
  cases op with
  | base key => exact .inr ⟨_, fun _ => rfl, settled_base hg key⟩
  | primitive type q => exact .inr ⟨_, fun _ => rfl, settled_base hg _⟩
  | symbolType symbol q => exact .inr ⟨_, fun _ => rfl, settled_base hg _⟩
  | ofKeywords keywords =>
    cases hk : Primitive.ofKeywords keywords with
    | error fault =>
      exact .inl ⟨fault, fun h => by simp [apply, TypeGraph.ofKeywords, hk, Except.map]⟩
    | ok p =>
      refine .inr ⟨fun g => g.primitive p keywords.qualifiers, fun h => ?_,
        (settled_base hg _).mono fun _ hl => ⟨_, _, hl⟩⟩
      simp [apply, TypeGraph.ofKeywords, hk, Except.map]
  | pointer target q =>
    exact .inr ⟨_, fun _ => rfl, settled_pointer hg (hop target (by simp [operands])) q⟩
  | lvalueReference id =>
    exact .inr ⟨_, fun _ => rfl, settled_lvalueReference hg (hop id (by simp [operands]))⟩
  | rvalueReference id =>
    exact .inr ⟨_, fun _ => rfl, settled_rvalueReference hg (hop id (by simp [operands]))⟩
  | array element bound =>
    exact .inr ⟨_, fun _ => rfl, settled_array hg (hop element (by simp [operands])) bound⟩
  | function result parameters variadic q =>
    refine .inr ⟨_, fun _ => rfl, settled_function hg ?_ ?_ variadic q⟩
    · exact hop result (by simp [operands])
    · exact fun p hp => hop p (by simp [operands, hp])
  | qualify id q =>
    exact .inr ⟨_, fun _ => rfl, settled_qualify hg (hop id (by simp [operands])) q⟩
  | unqualified id =>
    exact .inr ⟨_, fun _ => rfl, settled_unqualified hg (hop id (by simp [operands]))⟩
  | adjusted id =>
    exact .inr ⟨_, fun _ => rfl, settled_adjusted hg (hop id (by simp [operands]))⟩

theorem label?_after {g : TypeGraph} (hg : g.Canonical) {op : Operation} (hop : op.IsOn g)
    {id : TypeId} {l : TypeLabel} (h : (op.after g).label? id = some l) :
    g.label? id = some l ∨ op.Adds g l := by
  rcases settled_of_isOn hg hop with ⟨fault, hfault⟩ | ⟨f, hf, hsettled⟩
  · rw [after, hfault g] at h
    exact .inl h
  · rw [after, hf g] at h
    exact hsettled.old_or_added id l h

/-- The user-defined types of a graph are those it had and those that an operation
was given. -/
theorem base_symbol_after {g : TypeGraph} (hg : g.Canonical) {op : Operation} (hop : op.IsOn g)
    {known : SymbolId → Prop}
    (hold : ∀ id s q, g.label? id = some (.base (.symbol s q)) → known s)
    (hnew : ∀ s ∈ op.symbols, known s) {id : TypeId} {s : SymbolId} {q : Qualifiers}
    (h : (op.after g).label? id = some (.base (.symbol s q))) : known s := by
  have hderivable : g.Derivable (.base (.symbol s q)) → known s := by
    rintro ⟨old, own, hlabel⟩
    exact hold old s own hlabel
  rcases label?_after hg hop h with h | h
  · exact hold id s q h
  · cases op with
    | base key =>
      cases h
      exact hnew s (by simp [symbols, BaseKey.symbols])
    | symbolType symbol own =>
      cases h
      exact hnew s (by simp [symbols])
    | primitive _ _ | function _ _ _ _ => cases h
    | ofKeywords keywords =>
      obtain ⟨_, _, h⟩ := h
      cases h
    | _ => exact hderivable h

theorem after_canonical {g : TypeGraph} (hg : g.Canonical) {op : Operation} (hop : op.IsOn g) :
    (op.after g).Canonical ∧ g.Prefix (op.after g) := by
  rcases settled_of_isOn hg hop with ⟨fault, hfault⟩ | ⟨f, hf, hsettled⟩
  · rw [after, hfault g]
    exact ⟨hg, .refl g⟩
  · rw [after, hf g]
    exact ⟨hsettled.canonical, hsettled.isPrefix⟩

/-- What an operation has returned, it returns on every later graph, which it leaves
as it is. -/
theorem apply_again {g g' h : TypeGraph} (hg : g.Canonical) {op : Operation} (hop : op.IsOn g)
    {id : TypeId} (happly : op.apply g = .ok (id, g')) (hh : h.Canonical) (hp : g'.Prefix h) :
    op.apply h = .ok (id, h) := by
  rcases settled_of_isOn hg hop with ⟨fault, hfault⟩ | ⟨f, hf, hsettled⟩
  · rw [hfault g] at happly
    cases happly
  · rw [hf g, Except.ok.injEq] at happly
    rw [← show (f g).2 = g' from congrArg Prod.snd happly] at hp
    rw [hf h, hsettled.again h hh hp, show (f g).1 = id from congrArg Prod.fst happly]

theorem has_of_apply {g g' : TypeGraph} (hg : g.Canonical) {op : Operation} (hop : op.IsOn g)
    {id : TypeId} (happly : op.apply g = .ok (id, g')) : g'.Has id := by
  rcases settled_of_isOn hg hop with ⟨fault, hfault⟩ | ⟨f, hf, hsettled⟩
  · cases (hfault g).symm.trans happly
  · have hhas := hsettled.has
    rwa [Except.ok.inj ((hf g).symm.trans happly)] at hhas

end Operation

inductive Run (g : TypeGraph) : TypeGraph → Prop
  | refl : Run g g
  | step {h : TypeGraph} (run : Run g h) (op : Operation) (isOn : op.IsOn h) : Run g (op.after h)

theorem Run.canonical {g h : TypeGraph} (hrun : Run g h) (hg : g.Canonical) :
    h.Canonical ∧ g.Prefix h := by
  induction hrun with
  | refl => exact ⟨hg, .refl g⟩
  | step _ op hop ih =>
    obtain ⟨hcanonical, hprefix⟩ := Operation.after_canonical ih.1 hop
    exact ⟨hcanonical, ih.2.trans hprefix⟩

/-- In a run from the empty graph every type has a label of its own, over earlier types;
types are the same exactly when they unfold to the same tree; the rest of the run
changes no type; and an operation, repeated at any later point, returns the type it
has returned and adds none. -/
theorem canonical_of_run {g : TypeGraph} (hrun : Run empty g) :
    g.Canonical ∧
    (∀ a b, g.Has a → g.Has b → (a = b ↔ g.tree a = g.tree b)) ∧
    (∀ h, Run g h → g.Prefix h) ∧
    ∀ (op : Operation) (id : TypeId) (g' : TypeGraph), op.IsOn g → op.apply g = .ok (id, g') →
      ∀ h, Run g' h → op.apply h = .ok (id, h) := by
  have hg : g.Canonical := (hrun.canonical .empty).1
  refine ⟨hg, fun a b ha hb => ⟨fun h => h ▸ rfl, tree_injective hg ha hb⟩,
    fun h hh => (hh.canonical hg).2, fun op id g' hop happly h hh => ?_⟩
  have hg' : g'.Canonical := by
    have hafter := (Operation.after_canonical hg hop).1
    rwa [Operation.after, happly] at hafter
  obtain ⟨hcanonical, hprefix⟩ := hh.canonical hg'
  exact Operation.apply_again hg hop happly hcanonical hprefix

/-- A run that forms `int` and the pointer to it: two types, which are not the same,
and forming the pointer again returns the second. -/
theorem canonical_of_pointer_run :
    ∃ g : TypeGraph, g.size = 2 ∧ Run empty g ∧ g.Canonical ∧ g.tree ⟨0⟩ ≠ g.tree ⟨1⟩ ∧
      (Operation.pointer ⟨0⟩ .none).apply g = .ok (⟨1⟩, g) := by
  let int := Operation.primitive .int .none
  let pointer := Operation.pointer ⟨0⟩ .none
  have hint : Run empty (int.after empty) := Run.refl.step int (Operation.isOn_of_operands_nil rfl)
  have hpointer : pointer.IsOn (int.after empty) := by
    simp only [Operation.IsOn, pointer, Operation.operands, List.mem_singleton, forall_eq]
    decide
  have hrun : Run empty (pointer.after (int.after empty)) := hint.step pointer hpointer
  obtain ⟨hcanonical, hsame, _⟩ := canonical_of_run hrun
  refine ⟨_, by decide, hrun, hcanonical, fun h => ?_, ?_⟩
  · have heq := (hsame ⟨0⟩ ⟨1⟩ (by decide) (by decide)).mpr h
    cases heq
  · exact (canonical_of_run hint).2.2.2 pointer ⟨1⟩ _ hpointer rfl _ .refl

end TemplateAnalysis.TypeGraph
