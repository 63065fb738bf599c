import TemplateAnalysis.Proofs.Session.Codes
import TemplateAnalysis.Proofs.Session.Runs

/-!
# Types are told by their encodings

An analysis forms functions over adjusted parameters only. So where the names of the
user-defined types of a session tell these apart, the encoding of a type tells the
type, and the encodings of a list of types, one behind the other, tell the list.
-/

namespace TemplateAnalysis

/-! ### Functions have adjusted parameters -/

def TypeGraph.HasParameters (g : TypeGraph) : Prop :=
  ∀ id result ps variadic q, g.label? id = some (.derived result (.function ps variadic q)) →
    ∀ p ∈ ps, ∃ l, g.label? p = some l ∧ l.IsParameter

namespace TypeGraph.HasParameters

variable {g : TypeGraph}

theorem empty : TypeGraph.empty.HasParameters := fun id _ _ _ _ h => by
  rw [label?_eq_none_iff.mpr (Nat.not_lt_zero _)] at h
  cases h

/-- A checked operation adds no other functions. -/
theorem after (h : g.HasParameters) (hg : g.Canonical) {op : Operation} (hop : op.IsOn g)
    (hformed : op.IsFormed g) : (op.after g).HasParameters := by
  intro id result ps variadic q hlabel p hp
  have hlater : (∃ l, g.label? p = some l ∧ l.IsParameter) →
      ∃ l, (op.after g).label? p = some l ∧ l.IsParameter := fun ⟨l, hl, hparameter⟩ =>
    ⟨l, (Operation.after_canonical hg hop).2 p l hl, hparameter⟩
  rcases Operation.label?_after hg hop hlabel with hold | hnew
  · exact hlater (h id result ps variadic q hold p hp)
  · cases op with
    | function result' ps' variadic' q' =>
      cases hnew
      exact hlater (hformed.2 p hp)
    | ofKeywords keywords =>
      obtain ⟨_, _, hbase⟩ := hnew
      cases hbase
    | base _ | primitive _ _ | symbolType _ _ => cases hnew
    | _ => exact hnew.elim

theorem isParameter_tree (hg : g.Canonical) {id : TypeId} {l : TypeLabel}
    (hl : g.label? id = some l) (h : l.IsParameter) : (g.tree id).IsParameter := by
  cases l with
  | base key =>
    rw [tree_of_base hl]
    exact h
  | derived operand op =>
    rw [tree_of_derived hg hl]
    cases op <;> exact h

theorem isAdjusted_tree (h : g.HasParameters) (hg : g.Canonical) {id : TypeId} (hid : g.Has id) :
    (g.tree id).IsAdjusted := by
  obtain ⟨n, hn⟩ : ∃ n, id.index = n := ⟨_, rfl⟩
  induction n using Nat.strongRecOn generalizing id with
  | ind n ih =>
    obtain ⟨l, hl, _⟩ := exists_label? hid
    rcases l with key | ⟨operand, op⟩
    · rw [tree_of_base hl]
      trivial
    · have hsub : ∀ o ∈ (TypeLabel.derived operand op).operands, (g.tree o).IsAdjusted :=
        fun o ho => ih o.index (by have := hg.operand_lt hl o ho; omega) (hg.has_operand hl ho) rfl
      have hoperand := hsub operand (by simp [TypeLabel.operands])
      rw [tree_of_derived hg hl]
      cases op with
      | function ps variadic q =>
        refine ⟨hoperand, TypeTree.areParameters_iff.mpr fun t ht => ?_⟩
        obtain ⟨p, hp, rfl⟩ := List.mem_map.mp ht
        obtain ⟨m, hm, hparameter⟩ := h id operand ps variadic q hl p hp
        exact ⟨isParameter_tree hg hm hparameter,
          hsub p (by simp [TypeLabel.operands, TypeOp.parameters, hp])⟩
      | _ => exact hoperand

end TypeGraph.HasParameters

namespace Session

open Token

variable {s u : Session}

theorem Change.hasParameters {role : Role} (hs : s.Closed) (h : s.Change role u)
    (hparameters : s.types.HasParameters) : u.types.HasParameters := by
  cases h with
  | form op isOn known formed => exact hparameters.after hs.types isOn formed
  | _ => exact hparameters

theorem CheckedRun.hasParameters (h : s.CheckedRun u) (hs : s.Closed)
    (hparameters : s.types.HasParameters) : u.types.HasParameters :=
  (h.changes hs).invariant (fun s => s.types.HasParameters) hs
    (fun _ _ hv hchange h => hchange.hasParameters hv h) hparameters

theorem Run.isCoded {config : Config} (h : (start config).Run s) (hnames : s.HasIdentifiers) :
    s.IsCoded :=
  h.invariant (fun s => s.HasIdentifiers → s.IsCoded) (.start config)
    (fun _ _ hv hchange hcoded hnames =>
      hchange.isCoded hv hnames (hcoded (hnames.of_grows (hchange.grows hv))))
    (fun _ _ hcoded => hcoded) (fun _ => isCoded_start config) hnames

/-! ### Decoding -/

def IsUserType (s : Session) (id : SymbolId) : Prop :=
  (s.table.symbol id).kind = .classType ∨ (s.table.symbol id).kind = .enumeration

/-- Whether everything in a type that is not fundamental is a class or an enumeration. -/
def IsOverUserTypes (s : Session) (id : TypeId) : Prop :=
  ∀ y ∈ (s.types.tree id).symbols, s.IsUserType y

/-- Whether classes and enumerations have different nested names. -/
def HasDistinctNames (s : Session) : Prop :=
  ∀ y z, s.table.HasSymbol y → s.table.HasSymbol z → s.IsUserType y → s.IsUserType z →
    s.table.nestedName y = s.table.nestedName z → y = z

theorem IsUserType.ne_function {id : SymbolId} (h : s.IsUserType id) :
    (s.table.symbol id).kind ≠ .function := by
  rcases h with h | h <;> simp [h]

/-- Two types are the same, but for user-defined types with one name and for parameter
lists that are encoded as `void`. -/
def Resembles (s : Session) (a b : TypeId) : Prop :=
  (s.types.tree a).Alike (fun y z => s.table.nestedName y = s.table.nestedName z) (s.types.tree b)

theorem Resembles.refl (s : Session) (a : TypeId) : s.Resembles a a := by
  refine TypeTree.Alike.refl ?_ _
  exact fun _ => rfl

/-- Types whose trees have the same tokens resemble each other. -/
theorem resembles_of_sameCode (hs : s.Closed) {codes : SymbolId → List Token}
    (hcoded : s.table.Coded codes) {a b : TypeId} (ha : s.types.Has a) (hb : s.types.Has b)
    (h : (s.types.tree a).Alike (TypeTree.SameCode (s.table.nestedCode codes)) (s.types.tree b)) :
    s.Resembles a b :=
  h.mono fun y hy z hz hsame => String.toList_inj.mp (by
    rw [hcoded.toList_nestedName hs.linked (hs.symbols_tree ha y hy),
      hcoded.toList_nestedName hs.linked (hs.symbols_tree hb z hz), hsame])

/-- Where names are distinct and parameters adjusted, only equal types resemble. -/
theorem Resembles.eq {a b : TypeId} (h : s.Resembles a b) (hs : s.Closed)
    (hparameters : s.types.HasParameters) (hdistinct : s.HasDistinctNames)
    (ha : s.types.Has a ∧ s.IsOverUserTypes a) (hb : s.types.Has b ∧ s.IsOverUserTypes b) :
    a = b := by
  have hequal := TypeTree.Alike.mono h fun y hy z hz hsame =>
    hdistinct y z (hs.symbols_tree ha.1 y hy) (hs.symbols_tree hb.1 z hz) (ha.2 y hy) (hb.2 z hz)
      hsame
  exact TypeGraph.tree_injective hs.types ha.1 hb.1
    (hequal.eq (hparameters.isAdjusted_tree hs.types ha.1)
      (hparameters.isAdjusted_tree hs.types hb.1))

structure Decodable (s : Session) (codes : SymbolId → List Token) : Prop where
  closed : s.Closed
  coded : s.table.Coded codes
  parameters : s.types.HasParameters
  distinct : s.HasDistinctNames

namespace Decodable

variable {codes : SymbolId → List Token}

theorem isUnit (hs : s.Decodable codes) {id : TypeId} (hid : s.types.Has id)
    (hover : s.IsOverUserTypes id) :
    ∀ y ∈ (s.types.tree id).symbols, IsUnit (s.table.nestedCode codes y) := fun y hy =>
  hs.coded.isUnit_nestedCode hs.closed.linked (hs.closed.symbols_tree hid y hy)
    (hover y hy).ne_function

theorem encodings_trees (s : Session) (ids : List TypeId) :
    TypeTree.encodings s.table.nestedName (ids.map s.types.tree) =
      ids.map (s.table.typeEncoding s.types) := by
  induction ids with
  | nil => rfl
  | cons id ids ih => exact congrArg (_ :: ·) ih

theorem forall_symbols {property : SymbolId → Prop} {ids : List TypeId}
    (h : ∀ id ∈ ids, ∀ y ∈ (s.types.tree id).symbols, property y) :
    ∀ y ∈ TypeTree.symbolsOfList (ids.map s.types.tree), property y := by
  intro y hy
  obtain ⟨t, ht, hy⟩ := TypeTree.mem_symbolsOfList.mp hy
  obtain ⟨id, hid, rfl⟩ := List.mem_map.mp ht
  exact h id hid y hy

theorem isUnit_trees (hs : s.Decodable codes) {ids : List TypeId}
    (hids : ∀ id ∈ ids, s.types.Has id ∧ s.IsOverUserTypes id) :
    ∀ y ∈ TypeTree.symbolsOfList (ids.map s.types.tree), IsUnit (s.table.nestedCode codes y) :=
  forall_symbols fun id hid => hs.isUnit (hids id hid).1 (hids id hid).2

theorem isCode_trees (hs : s.Decodable codes) {ids : List TypeId}
    (hids : ∀ id ∈ ids, s.types.Has id ∧ s.IsOverUserTypes id) :
    IsCode (TypeTree.tokensOfList (s.table.nestedCode codes) (ids.map s.types.tree)) :=
  TypeTree.isCode_tokensOfList _ (forall_symbols fun id hid y hy =>
    hs.coded.isCode_nestedCode hs.closed.linked (hs.closed.symbols_tree (hids id hid).1 y hy))

theorem eq_of_alikeLists (hs : s.Decodable codes) : ∀ {as bs : List TypeId},
    (∀ a ∈ as, s.types.Has a ∧ s.IsOverUserTypes a) →
    (∀ b ∈ bs, s.types.Has b ∧ s.IsOverUserTypes b) →
    TypeTree.AlikeLists (TypeTree.SameCode (s.table.nestedCode codes)) (as.map s.types.tree)
      (bs.map s.types.tree) → as = bs
  | [], [], _, _, _ => rfl
  | [], _ :: _, _, _, h => by cases h
  | _ :: _, [], _, _, h => by cases h
  | a :: as, b :: bs, has, hbs, .cons hhead htail => by
    obtain ⟨ha, has⟩ := List.forall_mem_cons.mp has
    obtain ⟨hb, hbs⟩ := List.forall_mem_cons.mp hbs
    have hresembles := resembles_of_sameCode hs.closed hs.coded ha.1 hb.1 hhead
    rw [hresembles.eq hs.closed hs.parameters hs.distinct ha hb, hs.eq_of_alikeLists has hbs htail]

theorem eq_of_encodings (hs : s.Decodable codes) {as bs : List TypeId}
    (has : ∀ a ∈ as, s.types.Has a ∧ s.IsOverUserTypes a)
    (hbs : ∀ b ∈ bs, s.types.Has b ∧ s.IsOverUserTypes b)
    (h : String.join (as.map (s.table.typeEncoding s.types)) =
      String.join (bs.map (s.table.typeEncoding s.types))) : as = bs := by
  have hspelled : ∀ {ids : List TypeId}, (∀ id ∈ ids, s.types.Has id ∧ s.IsOverUserTypes id) →
      (String.join (ids.map (s.table.typeEncoding s.types))).toList =
        spell (TypeTree.tokensOfList (s.table.nestedCode codes) (ids.map s.types.tree)) := by
    intro ids hids
    rw [← encodings_trees]
    exact TypeTree.toList_encodings _ (forall_symbols fun id hid y hy =>
      hs.coded.toList_nestedName hs.closed.linked (hs.closed.symbols_tree (hids id hid).1 y hy))
  have htokens := spell_injective (hs.isCode_trees has).sound (hs.isCode_trees hbs).sound
    ((hspelled has).symm.trans ((congrArg String.toList h).trans (hspelled hbs)))
  -- A closing bracket behind both lists is where they end.
  obtain ⟨halike, _⟩ := TypeTree.tokensOfList_cancel _ _ (hs.isUnit_trees has)
    (hs.isUnit_trees hbs) TypeTree.isStop_close TypeTree.isStop_close
    (congrArg (· ++ [letter 'E']) htokens)
  exact hs.eq_of_alikeLists has hbs halike

theorem parameters_over (hs : s.Decodable codes) {id result : TypeId} {ps : List TypeId}
    {variadic : Bool} {q : Qualifiers}
    (hid : s.types.label? id = some (.derived result (.function ps variadic q)))
    (hover : s.IsOverUserTypes id) : ∀ p ∈ ps, s.types.Has p ∧ s.IsOverUserTypes p := by
  intro p hp
  refine ⟨hs.closed.types.has_operand hid (by simp [TypeLabel.operands, TypeOp.parameters, hp]),
    fun y hy => hover y ?_⟩
  rw [TypeGraph.tree_of_derived hs.closed.types hid]
  exact List.mem_append_right _
    (TypeTree.mem_symbolsOfList.mpr ⟨_, List.mem_map_of_mem hp, hy⟩)

/-- The signature of a function type is the text of the tokens of its parameters. -/
theorem toList_signature (hs : s.Decodable codes) {id result : TypeId} {ps : List TypeId}
    {variadic : Bool} {q : Qualifiers}
    (hid : s.types.label? id = some (.derived result (.function ps variadic q))) :
    ∃ signature, s.table.signature? s.types id = some signature ∧
      signature.toList = spell (TypeTree.signatureTokens (s.table.nestedCode codes)
        (ps.map s.types.tree) variadic q) := by
  have htree := TypeGraph.tree_of_derived hs.closed.types hid
  have hsignature : ∃ signature, s.table.signature? s.types id = some signature := by
    rw [SymbolTable.signature?, htree]
    exact ⟨_, rfl⟩
  obtain ⟨signature, hsome⟩ := hsignature
  obtain ⟨result', ps', variadic', q', heq, hspelled⟩ := TypeTree.signature?_eq_some hsome
    fun y hy => hs.coded.toList_nestedName hs.closed.linked
      (hs.closed.symbols_tree (TypeGraph.has_of_label? hid) y hy)
  rw [htree] at heq
  cases heq
  exact ⟨signature, hsome, hspelled⟩

/-- Functions with one signature have the same parameters and the same qualifiers. -/
theorem eq_of_signatures (hs : s.Decodable codes) {a b result result' : TypeId}
    {ps qs : List TypeId} {variadic variadic' : Bool} {q q' : Qualifiers}
    (ha : s.types.label? a = some (.derived result (.function ps variadic q)))
    (hb : s.types.label? b = some (.derived result' (.function qs variadic' q')))
    (hovera : s.IsOverUserTypes a) (hoverb : s.IsOverUserTypes b)
    (h : s.table.signature? s.types a = s.table.signature? s.types b) :
    ps = qs ∧ variadic = variadic' ∧ q = q' := by
  obtain ⟨signature, hsome, hspelled⟩ := hs.toList_signature ha
  obtain ⟨signature', hsome', hspelled'⟩ := hs.toList_signature hb
  obtain rfl : signature = signature' := Option.some.inj (hsome.symm.trans (h.trans hsome'))
  have hps := hs.parameters_over ha hovera
  have hqs := hs.parameters_over hb hoverb
  have hparameters : ∀ {id result : TypeId} {ps : List TypeId} {variadic : Bool} {q : Qualifiers},
      s.types.label? id = some (.derived result (.function ps variadic q)) →
      TypeTree.AreParameters (ps.map s.types.tree) := by
    intro id result ps variadic q hid
    have hadjusted := hs.parameters.isAdjusted_tree hs.closed.types (TypeGraph.has_of_label? hid)
    rw [TypeGraph.tree_of_derived hs.closed.types hid] at hadjusted
    exact hadjusted.2
  have hcode : ∀ {ids : List TypeId} (variadic : Bool) (q : Qualifiers),
      (∀ id ∈ ids, s.types.Has id ∧ s.IsOverUserTypes id) →
      IsCode (TypeTree.signatureTokens (s.table.nestedCode codes) (ids.map s.types.tree)
        variadic q) := fun variadic q hids =>
    (TypeTree.isCode_qualifiers q).append (TypeTree.isCode_parameterListTokens _
      (hs.isCode_trees hids) variadic)
  have htokens := spell_injective (hcode variadic q hps).sound (hcode variadic' q' hqs).sound
    (hspelled.symm.trans hspelled')
  obtain ⟨halike, hvariadic, hqualifiers⟩ := TypeTree.signature_cancel (hs.isUnit_trees hps)
    (hs.isUnit_trees hqs) (hparameters ha) (hparameters hb) htokens
  exact ⟨hs.eq_of_alikeLists hps hqs halike, hvariadic, hqualifiers⟩

end Decodable

/-- In an analysis of declarations that are named by identifiers, whose classes and
enumerations have different nested names, a list of types over these is told by its
encodings, one behind the other. In particular the encoding of a type tells the type,
and the signature of a function type its parameters and qualifiers. -/
theorem encoding_injective {config : Config} (hrun : (start config).CheckedRun s)
    (hnames : s.HasIdentifiers) (hdistinct : s.HasDistinctNames) :
    (∀ as bs : List TypeId, (∀ a ∈ as, s.types.Has a ∧ s.IsOverUserTypes a) →
      (∀ b ∈ bs, s.types.Has b ∧ s.IsOverUserTypes b) →
      String.join (as.map (s.table.typeEncoding s.types)) =
        String.join (bs.map (s.table.typeEncoding s.types)) → as = bs) ∧
    (∀ a b, s.types.Has a → s.types.Has b → s.IsOverUserTypes a → s.IsOverUserTypes b →
      s.table.typeEncoding s.types a = s.table.typeEncoding s.types b → a = b) ∧
    ∀ a b result result' ps qs variadic variadic' q q',
      s.types.label? a = some (.derived result (.function ps variadic q)) →
      s.types.label? b = some (.derived result' (.function qs variadic' q')) →
      s.IsOverUserTypes a → s.IsOverUserTypes b →
      s.table.signature? s.types a = s.table.signature? s.types b →
        ps = qs ∧ variadic = variadic' ∧ q = q' := by
  have hstart := Closed.start config
  obtain ⟨codes, hcoded⟩ := hrun.run.isCoded hnames
  have hs : s.Decodable codes :=
    { closed := (hrun.run.preserves hstart).1
      coded := hcoded
      parameters := hrun.hasParameters hstart .empty
      distinct := hdistinct }
  have hlists : ∀ as bs : List TypeId, (∀ a ∈ as, s.types.Has a ∧ s.IsOverUserTypes a) →
      (∀ b ∈ bs, s.types.Has b ∧ s.IsOverUserTypes b) →
      String.join (as.map (s.table.typeEncoding s.types)) =
        String.join (bs.map (s.table.typeEncoding s.types)) → as = bs :=
    fun _ _ has hbs h => hs.eq_of_encodings has hbs h
  refine ⟨hlists, ?_, ?_⟩
  · intro a b ha hb hovera hoverb h
    have hsingle : [a] = [b] := hlists [a] [b] (by simp [ha, hovera]) (by simp [hb, hoverb])
      (by rw [List.map_singleton, List.map_singleton, h])
    exact (List.cons.inj hsingle).1
  · intro a b _ _ _ _ _ _ _ _ ha hb hovera hoverb h
    exact hs.eq_of_signatures ha hb hovera hoverb h

/-- Classes `A` and `AA`, whose types are told apart also in lists. -/
theorem encoding_injective_of_two_classes :
    let first := (Operation.declareClass "A" .structKey .synthesized).after (start .standard)
    let second := (Operation.declareClass "AA" .structKey .synthesized).after first
    let third := (Operation.typeOfSymbol ⟨0⟩).after second
    let s := (Operation.typeOfSymbol ⟨1⟩).after third
    let encoding := s.table.typeEncoding s.types
    s.types.size = 2 ∧
      String.join ([⟨0⟩, ⟨1⟩].map encoding) ≠ String.join ([⟨1⟩, ⟨0⟩].map encoding) := by
  intro first second third s encoding
  have hfirst : 0 < second.table.symbolCount := by decide +kernel
  have hsecond : 1 < third.table.symbolCount := by decide +kernel
  have hclasses : (start .standard).CheckedRun second :=
    (CheckedRun.refl.step _ .of_handles_nil id).step _ .of_handles_nil id
  have hrun : (start .standard).CheckedRun s :=
    (hclasses.step (.typeOfSymbol ⟨0⟩) (.of_symbol hfirst) id).step
      (.typeOfSymbol ⟨1⟩) (.of_symbol hsecond) id
  have hsymbols : ∀ id, s.table.HasSymbol id → id = ⟨0⟩ ∨ id = ⟨1⟩ := by
    rintro ⟨i⟩ hi
    have hcount : s.table.symbolCount = 2 := by decide +kernel
    have hlt : i < 2 := lt_of_lt_of_eq hi hcount
    rcases (show i = 0 ∨ i = 1 by omega) with rfl | rfl <;> simp
  have hnames : s.HasIdentifiers := by
    intro id hid _
    rcases hsymbols id hid with rfl | rfl
    · have hname : (s.table.symbol ⟨0⟩).name = "A" := by decide +kernel
      rw [hname]
      exact ⟨'A', [], by simp, by decide⟩
    · have hname : (s.table.symbol ⟨1⟩).name = "AA" := by decide +kernel
      rw [hname]
      exact ⟨'A', ['A'], by simp, by decide⟩
  have hdistinct : s.HasDistinctNames := by
    have hne : s.table.nestedName ⟨0⟩ ≠ s.table.nestedName ⟨1⟩ := by decide +kernel
    intro y z hy hz _ _ h
    rcases hsymbols y hy with rfl | rfl <;> rcases hsymbols z hz with rfl | rfl
    · rfl
    · exact absurd h hne
    · exact absurd h.symm hne
    · rfl
  have hA : s.types.Has ⟨0⟩ ∧ s.IsOverUserTypes ⟨0⟩ := by
    have hsize : 0 < s.types.size := by decide +kernel
    have hkind : ∀ y ∈ (s.types.tree ⟨0⟩).symbols, (s.table.symbol y).kind = .classType := by
      decide +kernel
    exact ⟨hsize, fun y hy => .inl (hkind y hy)⟩
  have hAA : s.types.Has ⟨1⟩ ∧ s.IsOverUserTypes ⟨1⟩ := by
    have hsize : 1 < s.types.size := by decide +kernel
    have hkind : ∀ y ∈ (s.types.tree ⟨1⟩).symbols, (s.table.symbol y).kind = .classType := by
      decide +kernel
    exact ⟨hsize, fun y hy => .inl (hkind y hy)⟩
  have hsize : s.types.size = 2 := by decide +kernel
  refine ⟨hsize, fun h => ?_⟩
  have hlists := (encoding_injective hrun hnames hdistinct).1 [⟨0⟩, ⟨1⟩] [⟨1⟩, ⟨0⟩]
    (List.forall_mem_cons.mpr ⟨hA, List.forall_mem_singleton.mpr hAA⟩)
    (List.forall_mem_cons.mpr ⟨hAA, List.forall_mem_singleton.mpr hA⟩) h
  cases hlists

end Session

end TemplateAnalysis
