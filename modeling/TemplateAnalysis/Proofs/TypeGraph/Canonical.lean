import Mathlib.Tactic.Common
import TemplateAnalysis.TypeGraph.Tree

/-!
# One type for each label

`TypeGraph.Canonical` ties the three parts of a graph together: no label occurs
twice, a label refers to earlier types only, the index holds exactly the base
types, and the edges lead exactly to the derived types. An operation that is
`Settled` on a canonical graph keeps all of this, changes no label that is there,
and returns the same type, without adding another, whenever it is repeated on a
later graph. Every operation of the graph is settled; `base` and `derive` are the
two that create a type, and the others are read off them.
-/

namespace TemplateAnalysis

def TypeOp.parameters : TypeOp → List TypeId
  | function parameters _ _ => parameters
  | _ => []

def TypeLabel.operands : TypeLabel → List TypeId
  | base _ => []
  | derived operand op => operand :: op.parameters

namespace TypeGraph

def label? (g : TypeGraph) (id : TypeId) : Option TypeLabel := g.labels[id.index]?

def Has (g : TypeGraph) (id : TypeId) : Prop := id.index < g.size

instance (g : TypeGraph) (id : TypeId) : Decidable (g.Has id) :=
  inferInstanceAs (Decidable (id.index < g.size))

/-- Every type of the first graph is in the second, under the same label. -/
def Prefix (g h : TypeGraph) : Prop := ∀ id l, g.label? id = some l → h.label? id = some l

/-- Equal labels are one type, labels refer to earlier types, and the index and the
edges find exactly the types that are there. -/
structure Canonical (g : TypeGraph) : Prop where
  operand_lt : ∀ {id l}, g.label? id = some l → ∀ o ∈ l.operands, o.index < id.index
  label_unique : ∀ {a b l}, g.label? a = some l → g.label? b = some l → a = b
  mem_bases_iff : ∀ key id, (key, id) ∈ g.bases ↔ g.label? id = some (.base key)
  mem_edges_iff : ∀ e, e ∈ g.edges ↔ g.label? e.result = some (.derived e.operand e.op)

theorem label?_eq_none_iff {g : TypeGraph} {id : TypeId} : g.label? id = none ↔ ¬ g.Has id := by
  simp [label?, Has, size]

theorem has_of_label? {g : TypeGraph} {id : TypeId} {l : TypeLabel} (h : g.label? id = some l) :
    g.Has id := by
  by_contra hn
  rw [label?_eq_none_iff.mpr hn] at h
  cases h

theorem exists_label? {g : TypeGraph} {id : TypeId} (h : g.Has id) :
    ∃ l, g.label? id = some l ∧ g.label id = l := by
  have hs : g.label? id = some g.labels[id.index] := Array.getElem?_eq_getElem h
  exact ⟨_, hs, by rw [label, show g.labels[id.index]? = _ from hs, Option.getD_some]⟩

theorem label_eq_of_label? {g : TypeGraph} {id : TypeId} {l : TypeLabel}
    (h : g.label? id = some l) : g.label id = l := by
  rw [label, show g.labels[id.index]? = some l from h, Option.getD_some]

theorem label?_eq_of_label {g : TypeGraph} {id : TypeId} {l : TypeLabel} (hid : g.Has id)
    (h : g.label id = l) : g.label? id = some l := by
  obtain ⟨m, hm, hml⟩ := exists_label? hid
  rw [hm, ← hml, h]

theorem label_of_symbol? {g : TypeGraph} {id : TypeId} {y : SymbolId} (h : g.symbol? id = some y) :
    ∃ q, g.label id = .base (.symbol y q) := by
  rw [symbol?] at h
  split at h
  · cases h
    exact ⟨_, ‹_›⟩
  · cases h

namespace Prefix

theorem refl (g : TypeGraph) : g.Prefix g := fun _ _ h => h

theorem trans {f g h : TypeGraph} (hfg : f.Prefix g) (hgh : g.Prefix h) : f.Prefix h :=
  fun id l hl => hgh id l (hfg id l hl)

theorem has {g h : TypeGraph} (hp : g.Prefix h) {id : TypeId} (hid : g.Has id) : h.Has id := by
  obtain ⟨l, hl, _⟩ := exists_label? hid
  exact has_of_label? (hp id l hl)

theorem label_eq {g h : TypeGraph} (hp : g.Prefix h) {id : TypeId} (hid : g.Has id) :
    h.label id = g.label id := by
  obtain ⟨l, hl, rfl⟩ := exists_label? hid
  exact label_eq_of_label? (hp id _ hl)

end Prefix

theorem Canonical.empty : TypeGraph.empty.Canonical where
  operand_lt h := by simp [label?, TypeGraph.empty] at h
  label_unique h := by simp [label?, TypeGraph.empty] at h
  mem_bases_iff key id := by simp [label?, TypeGraph.empty]
  mem_edges_iff e := by simp [label?, TypeGraph.empty]

/-! ### Creating a type -/

section Push

variable {g h : TypeGraph} {l : TypeLabel}

theorem label?_push (hl : h.labels = g.labels.push l) (id : TypeId) :
    h.label? id = if id = ⟨g.size⟩ then some l else g.label? id := by
  obtain ⟨i⟩ := id
  simp only [label?, hl, size, Array.getElem?_push, TypeId.mk.injEq]

theorem label?_push_new (hl : h.labels = g.labels.push l) : h.label? ⟨g.size⟩ = some l := by
  rw [label?_push hl, if_pos rfl]

theorem prefix_push (hl : h.labels = g.labels.push l) : g.Prefix h := by
  intro id m hm
  have hlt : id.index < g.size := has_of_label? hm
  rw [label?_push hl, if_neg, hm]
  rintro rfl
  exact Nat.lt_irrefl _ hlt

theorem label?_push_iff (hl : h.labels = g.labels.push l) (id : TypeId) (m : TypeLabel) :
    h.label? id = some m ↔ g.label? id = some m ∨ (id = ⟨g.size⟩ ∧ m = l) := by
  constructor
  · intro hm
    rw [label?_push hl] at hm
    split at hm
    · exact .inr ⟨‹_›, (Option.some.inj hm).symm⟩
    · exact .inl hm
  · rintro (hm | ⟨rfl, rfl⟩)
    · exact prefix_push hl id m hm
    · exact label?_push_new hl

/-- A new label on earlier types keeps a graph canonical, once the index and the
edges are brought up to date. -/
theorem Canonical.push (hg : g.Canonical) (hl : h.labels = g.labels.push l)
    (hnew : ∀ id, g.label? id ≠ some l) (hoperands : ∀ o ∈ l.operands, g.Has o)
    (hbases : ∀ key id, (key, id) ∈ h.bases ↔
      (key, id) ∈ g.bases ∨ (id = ⟨g.size⟩ ∧ l = .base key))
    (hedges : ∀ e, e ∈ h.edges ↔
      e ∈ g.edges ∨ (e.result = ⟨g.size⟩ ∧ l = .derived e.operand e.op)) :
    h.Canonical where
  operand_lt {id m} hm o ho := by
    rcases (label?_push_iff hl id m).mp hm with hm | ⟨rfl, rfl⟩
    · exact hg.operand_lt hm o ho
    · exact hoperands o ho
  label_unique {a b m} ha hb := by
    rcases (label?_push_iff hl a m).mp ha with ha | ⟨rfl, rfl⟩ <;>
      rcases (label?_push_iff hl b m).mp hb with hb | ⟨rfl, hm⟩
    · exact hg.label_unique ha hb
    · exact absurd (hm ▸ ha) (hnew a)
    · exact absurd hb (hnew b)
    · rfl
  mem_bases_iff key id := by
    rw [hbases, hg.mem_bases_iff, label?_push_iff hl]
    exact or_congr_right (and_congr_right fun _ => eq_comm)
  mem_edges_iff e := by
    rw [hedges, hg.mem_edges_iff, label?_push_iff hl]
    exact or_congr_right (and_congr_right fun _ => eq_comm)

end Push

/-! ### Finding a type -/

theorem base_eq_of_label? {g : TypeGraph} (hg : g.Canonical) {key : BaseKey} {id : TypeId}
    (h : g.label? id = some (.base key)) : g.base key = (id, g) := by
  unfold base
  cases hf : g.bases.lookup key with
  | none =>
    have hnone := List.lookup_eq_none_iff.mp hf _ ((hg.mem_bases_iff key id).mpr h)
    simp at hnone
  | some id' =>
    obtain ⟨before, after, heq, _⟩ := List.lookup_eq_some_iff.mp hf
    have hmem : (key, id') ∈ g.bases := by simp [heq]
    have hid : id' = id := hg.label_unique ((hg.mem_bases_iff key id').mp hmem) h
    simp [hid]

theorem label?_ne_of_lookup_none {g : TypeGraph} (hg : g.Canonical) {key : BaseKey}
    (h : g.bases.lookup key = none) (id : TypeId) : g.label? id ≠ some (.base key) := by
  intro hl
  have hnone := List.lookup_eq_none_iff.mp h _ ((hg.mem_bases_iff key id).mpr hl)
  simp at hnone

theorem label?_of_lookup_some {g : TypeGraph} (hg : g.Canonical) {key : BaseKey} {id : TypeId}
    (h : g.bases.lookup key = some id) : g.label? id = some (.base key) := by
  obtain ⟨before, after, heq, _⟩ := List.lookup_eq_some_iff.mp h
  exact (hg.mem_bases_iff key id).mp (by simp [heq])

theorem label?_of_edge? {g : TypeGraph} (hg : g.Canonical) {operand : TypeId} {op : TypeOp}
    {e : TypeEdge} (h : g.edge? operand op = some e) :
    g.label? e.result = some (.derived operand op) := by
  have hmem := (hg.mem_edges_iff e).mp (List.mem_of_find?_eq_some h)
  have hsame := List.find?_some h
  simp only [Bool.and_eq_true, beq_iff_eq] at hsame
  rw [hmem, hsame.1, hsame.2]

theorem label?_ne_of_edge?_none {g : TypeGraph} (hg : g.Canonical) {operand : TypeId} {op : TypeOp}
    (h : g.edge? operand op = none) (id : TypeId) : g.label? id ≠ some (.derived operand op) := by
  intro hl
  have hmem : (⟨operand, op, id⟩ : TypeEdge) ∈ g.edges := (hg.mem_edges_iff _).mpr hl
  have hno := List.find?_eq_none.mp h _ hmem
  simp at hno

theorem derive_eq_of_label? {g : TypeGraph} (hg : g.Canonical) {operand : TypeId} {op : TypeOp}
    {id : TypeId} (h : g.label? id = some (.derived operand op)) :
    g.derive operand op = (id, g) := by
  unfold derive
  cases hf : g.edge? operand op with
  | none => exact absurd h (label?_ne_of_edge?_none hg hf id)
  | some e =>
    have hid : e.result = id := hg.label_unique (label?_of_edge? hg hf) h
    simp [hid]

/-! ### Settled operations -/

/-- An operation that keeps a graph canonical, only adds types, of the labels `adds`,
and returns the same type again on every later graph. -/
structure Settled (adds : TypeLabel → Prop) (g : TypeGraph)
    (f : TypeGraph → TypeId × TypeGraph) : Prop where
  canonical : (f g).2.Canonical
  isPrefix : g.Prefix (f g).2
  has : (f g).2.Has (f g).1
  again : ∀ h, h.Canonical → (f g).2.Prefix h → f h = ((f g).1, h)
  old_or_added : ∀ id l, (f g).2.label? id = some l → g.label? id = some l ∨ adds l

namespace Settled

variable {adds : TypeLabel → Prop} {g : TypeGraph} {f : TypeGraph → TypeId × TypeGraph}

theorem mono {more : TypeLabel → Prop} (hs : Settled adds g f) (h : ∀ l, adds l → more l) :
    Settled more g f :=
  { hs with old_or_added := fun id l hl => (hs.old_or_added id l hl).imp_right (h l) }

theorem congr {f' : TypeGraph → TypeId × TypeGraph} (hs : Settled adds g f)
    (h : ∀ g', g.Prefix g' → f' g' = f g') : Settled adds g f' := by
  have hg : f' g = f g := h g (.refl g)
  refine ⟨?_, ?_, ?_, ?_, ?_⟩
  · rw [hg]; exact hs.canonical
  · rw [hg]; exact hs.isPrefix
  · rw [hg]; exact hs.has
  · intro g' hg' hp
    rw [hg] at hp ⊢
    rw [h g' (hs.isPrefix.trans hp)]
    exact hs.again g' hg' hp
  · rw [hg]; exact hs.old_or_added

theorem keep (hg : g.Canonical) {id : TypeId} (hid : g.Has id) :
    Settled adds g fun g => (id, g) where
  canonical := hg
  isPrefix := .refl g
  has := hid
  again _ _ _ := rfl
  old_or_added _ _ hl := .inl hl

end Settled

section Operations

variable {g : TypeGraph}

/-- One settled operation after another is settled. -/
theorem Settled.bind {adds more : TypeLabel → Prop} {f : TypeGraph → TypeId × TypeGraph}
    {k : TypeId → TypeGraph → TypeId × TypeGraph} (hf : Settled adds g f)
    (hk : Settled more (f g).2 (k (f g).1)) :
    Settled (fun l => adds l ∨ more l) g fun g => k (f g).1 (f g).2 where
  canonical := hk.canonical
  isPrefix := hf.isPrefix.trans hk.isPrefix
  has := hk.has
  again h hh hp := by
    rw [hf.again h hh (hk.isPrefix.trans hp)]
    exact hk.again h hh hp
  old_or_added id l hl := by
    rcases hk.old_or_added id l hl with hl | hl
    · exact (hf.old_or_added id l hl).imp_right .inl
    · exact .inr (.inr hl)

/-- What forming a base type gives: a canonical graph that has one more label at most. -/
theorem base_spec (hg : g.Canonical) (key : BaseKey) :
    (g.base key).2.Canonical ∧ g.Prefix (g.base key).2 ∧
      (g.base key).2.label? (g.base key).1 = some (.base key) ∧
      ∀ id l, (g.base key).2.label? id = some l → g.label? id = some l ∨ l = .base key := by
  unfold base
  cases hf : g.bases.lookup key with
  | some id => exact ⟨hg, .refl g, label?_of_lookup_some hg hf, fun _ _ hl => .inl hl⟩
  | none =>
    refine ⟨?_, prefix_push rfl, label?_push_new rfl, fun id l hl => ?_⟩
    · refine hg.push (l := .base key) rfl (label?_ne_of_lookup_none hg hf) ?_ ?_ ?_
      · simp [TypeLabel.operands]
      · intro key' id
        simp only [List.mem_cons, Prod.mk.injEq, TypeLabel.base.injEq]
        tauto
      · simp
    · exact ((label?_push_iff rfl id l).mp hl).imp_right And.right

theorem settled_base (hg : g.Canonical) (key : BaseKey) :
    Settled (· = .base key) g (·.base key) := by
  obtain ⟨hcanonical, hprefix, hlabel, hadded⟩ := base_spec hg key
  exact ⟨hcanonical, hprefix, has_of_label? hlabel,
    fun h hh hp => base_eq_of_label? hh (hp _ _ hlabel), hadded⟩

/-- What applying an operator gives: a canonical graph that has one more label at most. -/
theorem derive_spec (hg : g.Canonical) {operand : TypeId} (op : TypeOp)
    (hoperand : g.Has operand) (hparameters : ∀ p ∈ op.parameters, g.Has p) :
    (g.derive operand op).2.Canonical ∧ g.Prefix (g.derive operand op).2 ∧
      (g.derive operand op).2.label? (g.derive operand op).1 = some (.derived operand op) ∧
      ∀ id l, (g.derive operand op).2.label? id = some l →
        g.label? id = some l ∨ l = .derived operand op := by
  unfold derive
  cases hf : g.edge? operand op with
  | some e => exact ⟨hg, .refl g, label?_of_edge? hg hf, fun _ _ hl => .inl hl⟩
  | none =>
    refine ⟨?_, prefix_push rfl, label?_push_new rfl, fun id l hl => ?_⟩
    · refine hg.push (l := .derived operand op) rfl (label?_ne_of_edge?_none hg hf) ?_ ?_ ?_
      · simpa [TypeLabel.operands] using ⟨hoperand, hparameters⟩
      · simp
      · rintro ⟨o, p, r⟩
        simp only [List.mem_cons, TypeEdge.mk.injEq, TypeLabel.derived.injEq]
        tauto
    · exact ((label?_push_iff rfl id l).mp hl).imp_right And.right

theorem settled_derive (hg : g.Canonical) {operand : TypeId} {op : TypeOp}
    (hoperand : g.Has operand) (hparameters : ∀ p ∈ op.parameters, g.Has p) :
    Settled (· = .derived operand op) g (·.derive operand op) := by
  obtain ⟨hcanonical, hprefix, hlabel, hadded⟩ := derive_spec hg op hoperand hparameters
  exact ⟨hcanonical, hprefix, has_of_label? hlabel,
    fun h hh hp => derive_eq_of_label? hh (hp _ _ hlabel), hadded⟩

/-! ### The operations of the graph -/

/-- The labels that the operators without parameters may add: a base that is there
under other qualifiers, and everything derived but functions. -/
def Derivable (g : TypeGraph) : TypeLabel → Prop
  | .base key => ∃ id own, g.label? id = some (.base (key.withQualifiers own))
  | .derived _ (.function _ _ _) => False
  | .derived _ _ => True

theorem derivable_withQualifiers {id : TypeId} {key : BaseKey}
    (h : g.label? id = some (.base key)) (q : Qualifiers) :
    g.Derivable (.base (key.withQualifiers q)) := by
  refine ⟨id, key.qualifiers, ?_⟩
  rw [h]
  cases key <;> rfl

theorem settled_requalified (hg : g.Canonical) {id : TypeId} {key : BaseKey}
    (h : g.label? id = some (.base key)) (q : Qualifiers) :
    Settled g.Derivable g (·.base (key.withQualifiers q)) :=
  (settled_base hg _).mono fun _ hl => hl ▸ derivable_withQualifiers h q

theorem Canonical.has_operand (hg : g.Canonical) {id : TypeId} {l : TypeLabel}
    (h : g.label? id = some l) {o : TypeId} (ho : o ∈ l.operands) : g.Has o :=
  Nat.lt_trans (hg.operand_lt h o ho) (has_of_label? h)

theorem settled_pointer (hg : g.Canonical) {target : TypeId} (h : g.Has target)
    (q : Qualifiers) : Settled g.Derivable g (·.pointer target q) :=
  (settled_derive hg h (by simp [TypeOp.parameters])).mono fun _ hl => hl ▸ trivial

theorem settled_array (hg : g.Canonical) {element : TypeId} (h : g.Has element)
    (bound : Option UInt64) : Settled g.Derivable g (·.array element bound) :=
  (settled_derive hg h (by simp [TypeOp.parameters])).mono fun _ hl => hl ▸ trivial

theorem settled_function (hg : g.Canonical) {result : TypeId} {parameters : List TypeId}
    (hresult : g.Has result) (hparameters : ∀ p ∈ parameters, g.Has p) (variadic : Bool)
    (q : Qualifiers) :
    Settled (· = .derived result (.function parameters variadic q)) g
      (·.function result parameters variadic q) :=
  settled_derive hg hresult hparameters

theorem settled_lvalueReference (hg : g.Canonical) {id : TypeId} (hid : g.Has id) :
    Settled g.Derivable g (·.lvalueReference id) := by
  -- The reference is formed to the referee, which a reference has already.
  suffices h : ∃ referee, g.Has referee ∧
      ∀ g', g.Prefix g' → g'.lvalueReference id = g'.derive referee .lvalueReference by
    obtain ⟨referee, hreferee, hsame⟩ := h
    refine Settled.congr ?_ hsame
    exact (settled_derive hg hreferee (by simp [TypeOp.parameters])).mono fun _ hl => hl ▸ trivial
  obtain ⟨l, hl, heq⟩ := exists_label? hid
  have hsame : ∀ g', g.Prefix g' → g'.label id = l := fun g' hp => heq ▸ hp.label_eq hid
  rcases l with key | ⟨operand, op⟩
  · exact ⟨id, hid, fun g' hp => by simp [lvalueReference, hsame g' hp]⟩
  · have hoperand : g.Has operand := hg.has_operand hl (by simp [TypeLabel.operands])
    cases op with
    | lvalueReference | rvalueReference =>
      exact ⟨operand, hoperand, fun g' hp => by simp [lvalueReference, hsame g' hp]⟩
    | pointer _ | array _ | function _ _ _ =>
      exact ⟨id, hid, fun g' hp => by simp [lvalueReference, hsame g' hp]⟩

theorem Prefix.isReference_eq {h : TypeGraph} (hp : g.Prefix h) {id : TypeId} (hid : g.Has id) :
    h.isReference id = g.isReference id := by
  simp only [isReference, op?, hp.label_eq hid]

theorem Prefix.primitive?_eq {h : TypeGraph} (hp : g.Prefix h) {id : TypeId} (hid : g.Has id) :
    h.primitive? id = g.primitive? id := by
  rw [primitive?, primitive?, hp.label_eq hid]

theorem Prefix.isVoid_eq {h : TypeGraph} (hp : g.Prefix h) {id : TypeId} (hid : g.Has id) :
    h.isVoid id = g.isVoid id := by
  rw [isVoid, isVoid, hp.primitive?_eq hid]

theorem Prefix.isArray_eq {h : TypeGraph} (hp : g.Prefix h) {id : TypeId} (hid : g.Has id) :
    h.isArray id = g.isArray id := by
  rw [isArray, isArray, op?, op?, hp.label_eq hid]

theorem Prefix.isFunction_eq {h : TypeGraph} (hp : g.Prefix h) {id : TypeId} (hid : g.Has id) :
    h.isFunction id = g.isFunction id := by
  rw [isFunction, isFunction, op?, op?, hp.label_eq hid]

theorem settled_rvalueReference (hg : g.Canonical) {id : TypeId} (hid : g.Has id) :
    Settled g.Derivable g (·.rvalueReference id) := by
  by_cases hr : g.isReference id = true
  · refine (Settled.keep hg hid).congr fun g' hp => ?_
    rw [rvalueReference, hp.isReference_eq hid, if_pos hr]
  · have hderive : Settled g.Derivable g (·.derive id .rvalueReference) :=
      (settled_derive hg hid (by simp [TypeOp.parameters])).mono fun _ hl => hl ▸ trivial
    refine hderive.congr fun g' hp => ?_
    rw [rvalueReference, hp.isReference_eq hid, if_neg hr]

theorem settled_qualifyWithin (q : Qualifiers) (depth : Nat) {id : TypeId} (hg : g.Canonical)
    (hid : g.Has id) : Settled g.Derivable g (qualifyWithin depth · id q) := by
  induction depth generalizing id with
  | zero => exact Settled.keep hg hid
  | succ depth ih =>
    obtain ⟨l, hl, heq⟩ := exists_label? hid
    have hsame : ∀ g', g.Prefix g' → g'.label id = l := fun g' hp => heq ▸ hp.label_eq hid
    rcases l with key | ⟨operand, op⟩
    · exact (settled_requalified hg hl (key.qualifiers.union q)).congr fun g' hp => by
        simp [qualifyWithin, hsame g' hp]
    · have hoperand : g.Has operand := hg.has_operand hl (by simp [TypeLabel.operands])
      cases op with
      | pointer own =>
        exact (settled_pointer hg hoperand (own.union q)).congr fun g' hp => by
          simp [qualifyWithin, hsame g' hp]
      | array bound =>
        have helement := ih hoperand
        have hparameters : ∀ p ∈ (TypeOp.array bound).parameters,
            (qualifyWithin depth g operand q).2.Has p := by simp [TypeOp.parameters]
        have harray := settled_derive helement.canonical helement.has hparameters
        refine ((helement.bind (k := fun e g => g.array e bound) harray).mono
          fun l hl => ?_).congr fun g' hp => ?_
        · rcases hl with hl | rfl
          · exact hl
          · trivial
        · simp [qualifyWithin, hsame g' hp]
      | lvalueReference | rvalueReference | function _ _ _ =>
        exact (Settled.keep hg hid).congr fun g' hp => by simp [qualifyWithin, hsame g' hp]

theorem settled_qualify (hg : g.Canonical) {id : TypeId} (hid : g.Has id) (q : Qualifiers) :
    Settled g.Derivable g (·.qualify id q) := by
  by_cases hq : q.isNone = true
  · exact (Settled.keep hg hid).congr fun g' _ => by rw [qualify, if_pos hq]
  · exact (settled_qualifyWithin q _ hg hid).congr fun g' _ => by rw [qualify, if_neg hq]

theorem settled_unqualified (hg : g.Canonical) {id : TypeId} (hid : g.Has id) :
    Settled g.Derivable g (·.unqualified id) := by
  obtain ⟨l, hl, heq⟩ := exists_label? hid
  have hsame : ∀ g', g.Prefix g' → g'.label id = l := fun g' hp => heq ▸ hp.label_eq hid
  have hkeep : Settled g.Derivable g fun g => (id, g) := Settled.keep hg hid
  rcases l with key | ⟨operand, op⟩
  · by_cases hq : key.qualifiers.isNone = true
    · exact hkeep.congr fun g' hp => by simp [unqualified, hsame g' hp, hq]
    · exact (settled_requalified hg hl .none).congr fun g' hp => by
        simp [unqualified, hsame g' hp, hq]
  · have hoperand : g.Has operand := hg.has_operand hl (by simp [TypeLabel.operands])
    cases op with
    | pointer q =>
      by_cases hq : q.isNone = true
      · exact hkeep.congr fun g' hp => by simp [unqualified, hsame g' hp, hq]
      · exact (settled_pointer hg hoperand .none).congr fun g' hp => by
          simp [unqualified, hsame g' hp, hq]
    | lvalueReference | rvalueReference | array _ | function _ _ _ =>
      exact hkeep.congr fun g' hp => by simp [unqualified, hsame g' hp]

theorem settled_adjusted (hg : g.Canonical) {id : TypeId} (hid : g.Has id) :
    Settled g.Derivable g (·.adjusted id) := by
  obtain ⟨l, hl, heq⟩ := exists_label? hid
  have hsame : ∀ g', g.Prefix g' → g'.label id = l := fun g' hp => heq ▸ hp.label_eq hid
  have hunqualified := settled_unqualified hg hid
  rcases l with key | ⟨operand, op⟩
  · exact hunqualified.congr fun g' hp => by simp [adjusted, hsame g' hp]
  · have hoperand : g.Has operand := hg.has_operand hl (by simp [TypeLabel.operands])
    cases op with
    | array bound =>
      exact (settled_pointer hg hoperand .none).congr fun g' hp => by simp [adjusted, hsame g' hp]
    | function _ _ _ =>
      exact (settled_pointer hg hid .none).congr fun g' hp => by simp [adjusted, hsame g' hp]
    | pointer _ | lvalueReference | rvalueReference =>
      exact hunqualified.congr fun g' hp => by simp [adjusted, hsame g' hp]

end Operations

end TypeGraph

end TemplateAnalysis
