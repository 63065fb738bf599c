import TemplateAnalysis.Proofs.Session.StructuralTypes
import TemplateAnalysis.Proofs.Session.Success
import TemplateAnalysis.Proofs.TypeGraph.WellFormed

/-!
# Qualifiers on arrays

Keywords that specify no type add their qualifiers to what is named beside them. Beside the
name of a typedef for an array they add them to the elements, below all the arrays that the
typedef was declared with. That is the type that the declaration has with the keywords among
its own, however the elements are specified and whatever the bounds are.
-/

namespace TemplateAnalysis

open Session Analysis

variable {inst inst' : Instantiator} {s u v : Session} {tree : TypeTree} {id x : TypeId}
  {k c : KeywordSet}

/-! ### Keywords -/

namespace KeywordSet

theorem qualifiers_union (k c : KeywordSet) :
    (k.union c).qualifiers = k.qualifiers.union c.qualifiers := by
  simp [qualifiers, Qualifiers.union]

/-- Keywords that specify no type leave those that do as they are. -/
theorem inter_typeSpecifiers_union (hc : c.specifiesType = false) :
    (k.union c).inter typeSpecifiers = k.inter typeSpecifiers := by
  rw [specifiesType, Bool.not_eq_false', isEmpty_iff] at hc
  refine ext_contains fun x => ?_
  have hx := hc x
  rw [contains_inter] at hx
  rw [contains_inter, contains_inter, contains_union, Bool.and_or_distrib_right, hx, Bool.or_false]

theorem specifiesType_union (hc : c.specifiesType = false) :
    (k.union c).specifiesType = k.specifiesType := by
  rw [specifiesType, inter_typeSpecifiers_union hc, specifiesType]

end KeywordSet

theorem Primitive.ofKeywords_union (hc : c.specifiesType = false) :
    Primitive.ofKeywords (k.union c) = Primitive.ofKeywords k :=
  ofKeywords_congr (KeywordSet.inter_typeSpecifiers_union hc)

/-! ### Elements -/

/-- Specifiers that have been resolved give, with more keywords, the type with the qualifiers
of these. -/
theorem forms_resolveSpecifiers_union (hinst : inst.Steady s inst') (hs : s.Closed)
    {span span' : Span} {named : Option Node}
    (hknown : AllKnown s.Known (Specifiers.mk k named).handles) (hc : c.specifiesType = false)
    (h : exec (resolveSpecifiers inst span ⟨k, named⟩) s = (.ok x, u)) :
    ∃ tree, u.Closed ∧ s.Grows u ∧ u.Unfolds tree x ∧
      u.Forms (resolveSpecifiers inst' span' ⟨k.union c, named⟩) (tree.qualify c.qualifiers) := by
  cases named with
  | none =>
    rw [resolveSpecifiers] at h ⊢
    cases hk : Primitive.ofKeywords k with
    | error fault =>
      rw [exec_keywordType, hk] at h
      cases h
    | ok p =>
      obtain ⟨hu, hgrows, hx⟩ := (forms_keywordType hk span).of_exec hs h
      have hform := forms_keywordType (s := u)
        ((Primitive.ofKeywords_union (k := k) hc).trans hk) span'
      rw [KeywordSet.qualifiers_union] at hform
      exact ⟨_, hu, hgrows, hx, hform⟩
  | some node =>
    rw [resolveSpecifiers] at h ⊢
    rw [KeywordSet.specifiesType_union hc]
    split at h
    · rw [exec_throw_bind] at h
      cases h
    · rename_i hk
      obtain ⟨type, v, hnode, h⟩ := exec_bind_eq_ok.mp h
      have hsteady := steady_resolveNode node hinst hs hknown
      obtain ⟨hv, hgrows, hhas⟩ := hsteady.preserves hs hnode
      have hform := hsteady.forms hnode hv hhas
      obtain ⟨hu, hlater, hx⟩ := (forms_qualify ⟨hhas, rfl⟩ hv k.qualifiers).of_exec hv h
      refine ⟨_, hu, hgrows.trans hlater, hx, ?_⟩
      rw [if_neg hk, TypeTree.qualify_qualify, ← KeywordSet.qualifiers_union]
      exact (hform.later hlater).bind fun type' w hw _ htype' => forms_qualify htype' hw _

/-! ### Arrays -/

def DeclaratorPart.isArrayOrName : DeclaratorPart → Bool
  | array _ _ | name _ _ => true
  | _ => false

def Session.writtenBound : Option Node → Analysis (Option UInt64)
  | none => return none
  | some expression => do return some (← arrayBound expression)

theorem exec_applyPart_array (current : TypeId) (bound : Option Node) (span : Span) (s : Session) :
    exec (applyPart inst current (.array bound span)) s =
      exec (do
        rejectType (arrayFault? · current) span
        let n ← writtenBound bound
        onTypes (·.array current n)) s := by
  cases bound with
  | none => rw [applyPart, writtenBound, pure_bind]
  | some expression =>
    rw [applyPart, writtenBound]
    simp only [bind_assoc, pure_bind]

theorem steady_writtenBound (hs : s.Closed) (bound : Option Node) :
    Steady s (writtenBound bound) (writtenBound bound) fun _ u => u = s := by
  cases bound with
  | none => exact Steady.pure rfl
  | some expression =>
    exact (steady_arrayBound expression).bind hs fun _ _ hu _ _ => Steady.pure hu

theorem Session.Unfolds.arrayFault?_eq_none (h : s.Unfolds tree id) (hs : s.Closed)
    (helement : tree.isElement = true) : arrayFault? s.types id = none := by
  rw [← Option.isNone_iff_eq_none, isNone_arrayFault? hs.types h.1, h.2, helement]

/-- A part that has made an array of one type makes an array with the same bound of any other
that there are arrays of. -/
theorem forms_applyPart_array (inst' : Instantiator) {written : Option Node} {span : Span}
    (hs : s.Closed) (hid : s.Unfolds tree id)
    (h : exec (applyPart inst id (.array written span)) s = (.ok x, u)) :
    ∃ bound, u.Closed ∧ s.Grows u ∧ u.Unfolds (.array tree bound) x ∧
      ∀ (v : Session) (other : TypeTree) (y : TypeId), v.Closed → s.Grows v → v.Unfolds other y →
        other.isElement = tree.isElement →
          v.Forms (applyPart inst' y (.array written span)) (.array other bound) := by
  rw [exec_applyPart_array] at h
  obtain ⟨hnone, hrest⟩ := exec_rejectType_bind_eq_ok h
  have helement : tree.isElement = true := by
    rw [← hid.2, ← isNone_arrayFault? hs.types hid.1, hnone]
    rfl
  obtain ⟨bound, w, hbound, harray⟩ := exec_bind_eq_ok.mp hrest
  have hsteady := steady_writtenBound hs written
  obtain ⟨-, -, rfl⟩ := hsteady.preserves hs hbound
  obtain ⟨hu, hgrows, hx⟩ := (forms_array hid hs bound).of_exec hs harray
  refine ⟨bound, hu, hgrows, hx, fun v other y hv hlater hy hother => ?_⟩
  have hform : v.Forms (do
      rejectType (arrayFault? · y) span
      let n ← writtenBound written
      onTypes (·.array y n)) (.array other bound) := by
    refine Session.Attains.checked (((hsteady.attains hbound).later hlater).bind
      fun n w hw hgrows hn => ?_) fun w hw hgrows =>
        (hy.grows hv hw hgrows).arrayFault?_eq_none hw (hother.trans helement)
    exact hn ▸ forms_array (hy.grows hv hw hgrows) hw n
  exact hform.congr fun w _ _ => exec_applyPart_array y written span w

/-- A declarator that has made arrays of one type, one of the other, makes arrays with the same
bounds of any other type that there are arrays of. -/
theorem forms_applyParts_array (inst' : Instantiator) {parts : Declarator}
    (hparts : ∀ part ∈ parts, part.isArrayOrName = true) (hs : s.Closed)
    (hid : s.Unfolds tree id) (h : exec (applyParts inst id parts) s = (.ok x, u)) :
    ∃ bounds : List (Option UInt64), u.Closed ∧ s.Grows u ∧
      u.Unfolds (bounds.foldl .array tree) x ∧
      ∀ (v : Session) (other : TypeTree) (y : TypeId), v.Closed → u.Grows v → v.Unfolds other y →
        other.isElement = tree.isElement →
          v.Forms (applyParts inst' y parts) (bounds.foldl .array other) := by
  induction parts generalizing s tree id with
  | nil =>
    cases h
    refine ⟨[], hs, .refl _, hid, fun v other y hv _ hy _ => ?_⟩
    exact .pure fun w hw hgrows => hy.grows hv hw hgrows
  | cons part parts ih =>
    rw [applyParts] at h
    obtain ⟨y, w, hpart, hrest⟩ := exec_bind_eq_ok.mp h
    have hlast := fun p hp => hparts p (List.mem_cons_of_mem part hp)
    have hfirst := hparts part List.mem_cons_self
    cases part with
    | name text span =>
      cases hpart
      obtain ⟨bounds, hu, hgrows, hx, hforms⟩ := ih hlast hs hid hrest
      refine ⟨bounds, hu, hgrows, hx, fun v other z hv huv hz hother => ?_⟩
      rw [applyParts, applyPart, pure_bind]
      exact hforms v other z hv huv hz hother
    | array written span =>
      obtain ⟨bound, hw, hgrows, hy, hforms⟩ := forms_applyPart_array inst' hs hid hpart
      obtain ⟨bounds, hu, hlater, hx, hforms'⟩ := ih hlast hw hy hrest
      refine ⟨bound :: bounds, hu, hgrows.trans hlater, hx, fun v other z hv huv hz hother => ?_⟩
      rw [applyParts]
      exact (hforms v other z hv ((hgrows.trans hlater).trans huv) hz hother).bind
        fun z' v' hv' hvv' hz' => hforms' v' _ z' hv' (huv.trans hvv') hz' rfl
    | _ => cases hfirst

theorem TypeTree.isElement_qualify (t : TypeTree) (q : Qualifiers) :
    (t.qualify q).isElement = t.isElement := by
  obtain ⟨hreference, hfunction, hvoid⟩ := t.shape_qualify q
  rw [isElement, isElement, hreference, hfunction, hvoid]

/-- Arrays that have been declared are formed with more keywords, and have the qualifiers of
these on their elements. -/
theorem forms_resolveType_union (hs : s.Closed) {named : Option Node} {arrays : Declarator}
    {span : Span} (hspecifiers : AllKnown s.Known (Specifiers.mk k named).handles)
    (harrays : ∀ part ∈ arrays, part.isArrayOrName = true) (hc : c.specifiesType = false)
    (h : exec (resolveType instantiate ⟨k, named⟩ arrays span) s = (.ok x, u)) (span' : Span) :
    ∃ tree, u.Closed ∧ s.Grows u ∧ u.Unfolds tree x ∧
      u.Forms (resolveType instantiate ⟨k.union c, named⟩ arrays span')
        (tree.qualify c.qualifiers) := by
  obtain ⟨id, w, hbase, hparts⟩ := exec_bind_eq_ok.mp h
  obtain ⟨tree, hw, hgrows, hid, hform⟩ :=
    forms_resolveSpecifiers_union (steady_instantiate s) hs hspecifiers hc hbase
  obtain ⟨bounds, hu, hlater, hx, hforms⟩ :=
    forms_applyParts_array instantiate harrays hw hid hparts
  refine ⟨_, hu, hgrows.trans hlater, hx, ?_⟩
  rw [TypeTree.qualify_foldl_array]
  exact (hform.later hlater).bind fun y v hv huv hy =>
    hforms v _ y hv huv hy (TypeTree.isElement_qualify tree _)

/-! ### Typedefs -/

theorem entity_of_declare (hs : s.IsOutside) {name : String} {span : Span} {entity : Entity}
    {declared : Declared} {kind : SymbolKind}
    (h : exec (onTable (SymbolTable.declare s.current name kind (.singleton kind) span entity)) s =
      (.ok declared, u)) (hnew : declared.isNew = true) :
    (u.table.symbol declared.symbol).entity = entity := by
  rw [exec_onTable, SymbolTable.exec_declare, hs.isOpenHeader_eq, if_neg Bool.false_ne_true] at h
  cases hdeclare : s.table.declareEntity s.current name kind (.singleton kind) span entity with
  | error d =>
    rw [hdeclare] at h
    cases h
  | ok result =>
    rw [hdeclare] at h
    cases h
    rcases declareEntity_cases hdeclare with ⟨_, hold, _, _⟩ | ⟨_, _, _, _, heq⟩
    · rw [hold] at hnew
      cases hnew
    · obtain ⟨own, hsymbol⟩ := s.table.symbol_introduce_new s.current name entity span
      obtain ⟨hsame, htable⟩ := Prod.mk.inj heq
      simp only [hsame, htable, hsymbol]

/-- Outside of headers a typedef is declared for the type that its specifiers and its declarator
resolve to. -/
theorem typedef_of_declareTypedef (hs : s.Closed) (hout : s.IsOutside) {name : String}
    {specifiers : Specifiers} {declarator : Declarator} {span : Span} {y : SymbolId}
    (hspecifiers : AllKnown s.Known specifiers.handles)
    (hdeclarator : AllKnown s.Known (handlesOfParts declarator))
    (h : exec (declareTypedef name specifiers declarator span) s = (.ok y, u)) :
    ∃ target w, exec (resolveType instantiate specifiers declarator span) s = (.ok target, w) ∧
      u.Closed ∧ w.Grows u ∧ u.table.HasSymbol y ∧
      (u.table.symbol y).entity = .typedef target := by
  rw [declareTypedef, hout.exec_inHeader_bind, if_neg Bool.false_ne_true] at h
  obtain ⟨target, w, hresolve, hrest⟩ := exec_bind_eq_ok.mp h
  have houtside := leavesHeaders_resolveType (s := s) specifiers declarator span
  rw [LeavesHeaders, hresolve] at houtside
  obtain ⟨hw, _, htarget⟩ := (steady_resolveType (steady_instantiate s) hs hspecifiers hdeclarator
    span).preserves hs hresolve
  rw [exec_get_bind] at hrest
  obtain ⟨declared, v, hdeclare, hrest⟩ := exec_bind_eq_ok.mp hrest
  have hleads : Leads w (onTable (SymbolTable.declare w.current name .typedef
      (.singleton .typedef) span (.typedef target))) fun declared u =>
        declared.IsKnown (w.table.scope w.current).isOpenHeader .typedef u :=
    leads_declare hw name .typedef span (fun _ _ _ => trivial) (AllKnown.nil.cons htarget) trivial
  obtain ⟨hv, hgrows⟩ := hleads.changes.preserves hw
  have hknown := hleads.result declared (by rw [hdeclare])
  have hnew := entity_of_declare (houtside.isOutside hout) hdeclare
  rw [hdeclare] at hv hgrows hknown
  rw [exec_symbol_bind] at hrest
  refine ⟨target, w, hresolve, ?_⟩
  cases hisNew : declared.isNew with
  | true =>
    rw [hisNew] at hrest
    cases hrest
    exact ⟨hv, hgrows, hknown.has, hnew hisNew⟩
  | false =>
    rw [hisNew] at hrest
    cases hentity : (v.table.symbol declared.symbol).entity with
    | typedef existing =>
      simp only [hentity] at hrest
      split at hrest
      · rename_i hsame
        cases hrest
        exact ⟨hv, hgrows, hknown.has, hsame ▸ hentity⟩
      · cases hrest
    | _ =>
      simp only [hentity] at hrest
      cases hrest

/-- The name of a typedef beside keywords that specify no type stands for what the typedef was
declared for, with the qualifiers of the keywords. -/
theorem forms_resolveType_typedef (hs : s.Closed) {y : SymbolId} (hy : s.table.HasSymbol y)
    (hentity : (s.table.symbol y).entity = .typedef x) (hx : s.Unfolds tree x)
    (hc : c.specifiesType = false) (text : String) (nameSpan span : Span) :
    s.Forms (resolveType instantiate ⟨c, some (.name text y nameSpan)⟩ [] span)
      (tree.qualify c.qualifiers) := by
  have hexec : exec (namedType text y nameSpan) s = (.ok x, s) := by rw [exec_namedType, hentity]
  have hnamed := (steady_namedType hs text hy nameSpan).forms hexec hs hx.1
  rw [hx.2] at hnamed
  have hspecifiers : s.Forms (resolveSpecifiers instantiate span
      ⟨c, some (.name text y nameSpan)⟩) (tree.qualify c.qualifiers) := by
    rw [resolveSpecifiers, hc, if_neg Bool.false_ne_true, resolveNode]
    exact hnamed.bind fun type u hu _ htype => forms_qualify htype hu c.qualifiers
  exact hspecifiers.bind fun type u hu _ htype =>
    .pure fun v hv hgrows => htype.grows hu hv hgrows

/-! ### Runs -/

namespace Session

variable {config : Config}

/-- Whether a step succeeds wherever a session goes on to, and a second step returns from then on
what the first one has returned. -/
def SameAfter (s : Session) (first second : Analysis TypeId) : Prop :=
  ∀ v, s.Run v → ∃ id w, exec first v = (.ok id, w) ∧
    ∀ w', w.Run w' → ∃ w'', exec second w' = (.ok id, w'')

/-- Steps that form the same tree return the same type. -/
theorem Attains.sameAfter {first second : Analysis TypeId} (h : s.Forms first tree)
    (h' : s.Forms second tree) (hs : s.Closed) : s.SameAfter first second := by
  intro v hv
  obtain ⟨hclosed, hgrows⟩ := hv.preserves hs
  obtain ⟨id, w, hexec, hw, hlater, hid⟩ := h v hclosed hgrows
  refine ⟨id, w, hexec, fun w' hw' => ?_⟩
  obtain ⟨hclosed', hgrows'⟩ := hw'.preserves hw
  obtain ⟨other, w'', hexec', hw'', hlater'', hother⟩ :=
    h' w' hclosed' ((hgrows.trans hlater).trans hgrows')
  have hsame := hother.eq (hid.grows hw hw'' (hgrows'.trans hlater'')) hw''
  exact ⟨w'', hsame ▸ hexec'⟩

/-- Qualifiers are added to types as to sets, and for arrays of any rank to the elements, unless
these are references or functions. Keywords beside the name of a typedef for arrays give the
type that they give among the keywords of its declaration, whichever is asked for first. -/
theorem qualifiers_add_up {g : TypeGraph} (hg : TypeGraph.Run .empty g)
    (hs : (start config).Run s) (hout : s.IsOutside) :
    g.QualifiesBySets ∧
    ∀ {u : Session} {name : String} {k c : KeywordSet} {named : Option Node} {arrays : Declarator}
      {span : Span} {y : SymbolId},
      (Operation.declareTypedef name ⟨k, named⟩ arrays span).IsOn s →
      exec (declareTypedef name ⟨k, named⟩ arrays span) s = (.ok y, u) →
      (∀ part ∈ arrays, part.isArrayOrName = true) → c.specifiesType = false →
      ∀ (text : String) (nameSpan span' span'' : Span),
        let onTypedef := resolveType instantiate ⟨c, some (.name text y nameSpan)⟩ [] span'
        let onElement := resolveType instantiate ⟨k.union c, named⟩ arrays span''
        u.SameAfter onTypedef onElement ∧ u.SameAfter onElement onTypedef := by
  refine ⟨TypeGraph.qualifiesBySets hg, fun {u name k c named arrays span y} hcall h harrays hc
    text nameSpan span' span'' => ?_⟩
  have hclosed := hs.closed
  have hspecifiers := hcall.known.left
  obtain ⟨target, w, hresolve, hu, hgrows, hy, hentity⟩ :=
    typedef_of_declareTypedef hclosed hout hspecifiers hcall.known.right h
  obtain ⟨tree, hw, _, htarget, helement⟩ :=
    forms_resolveType_union hclosed hspecifiers harrays hc hresolve span''
  have htypedef := forms_resolveType_typedef hu hy hentity (htarget.grows hw hu hgrows) hc text
    nameSpan span'
  have helement := helement.later hgrows
  exact ⟨htypedef.sameAfter helement hu, helement.sameAfter htypedef hu⟩

/-- In a graph with `int[2]` the type `const int[2]` has the qualifiers of its elements; and
`const Grid` behind `typedef int Grid[2][3]` is `const int[2][3]`. -/
theorem qualifiers_add_up_grid :
    let const : Qualifiers := ⟨true, false⟩
    let array := (TypeGraph.Operation.array ⟨0⟩ (some 2)).after
      ((TypeGraph.Operation.primitive .int .none).after .empty)
    let g := (TypeGraph.Operation.qualify ⟨1⟩ const).after array
    let bound (n : Int64) : DeclaratorPart :=
      .array (some (.literal (.int n) .synthesized)) .synthesized
    let name := "Grid"
    let arrays : Declarator := [.name name .synthesized, bound 3, bound 2]
    let int := KeywordSet.singleton .int
    let declared := exec (declareTypedef name ⟨int, none⟩ arrays .synthesized) (start .standard)
    (g.tree ⟨3⟩).qualifiers = (g.tree ⟨1⟩).qualifiers.union const ∧
      declared.1 = .ok ⟨0⟩ ∧ ∃ id w w',
        exec (resolveType instantiate ⟨.singleton .const, some (.name name ⟨0⟩ .synthesized)⟩ []
          .synthesized) declared.2 = (.ok id, w) ∧
        exec (resolveType instantiate ⟨int.union (.singleton .const), none⟩ arrays .synthesized) w =
          (.ok id, w') := by
  intro const array g bound name arrays int declared
  have hint := TypeGraph.Run.refl.step (g := .empty) (.primitive .int .none)
    (TypeGraph.Operation.isOn_of_operands_nil rfl)
  have harray : TypeGraph.Run .empty array :=
    hint.step _ (TypeGraph.Operation.isOn_of_operands rfl (by decide +kernel))
  have hqualify : (TypeGraph.Operation.qualify ⟨1⟩ const).IsOn array :=
    TypeGraph.Operation.isOn_of_operands rfl (by decide +kernel)
  have hreturned : g.Returned (.qualify ⟨1⟩ const) ⟨3⟩ :=
    ⟨array, g, harray, hqualify, rfl, .refl⟩
  obtain ⟨hsets, hresolves⟩ :=
    qualifiers_add_up (harray.step _ hqualify) (.refl : (start .standard).Run _) rfl
  have hcall : (Operation.declareTypedef name ⟨int, none⟩ arrays .synthesized).IsOn
      (start .standard) := .of_handles_nil
  have hok : declared.1 = .ok ⟨0⟩ := by decide +kernel
  obtain ⟨htypedef, -⟩ := hresolves hcall (Prod.ext hok rfl) (by decide +kernel)
    (by decide +kernel : (KeywordSet.singleton .const).specifiesType = false) name .synthesized
    .synthesized .synthesized
  obtain ⟨id, w, hexec, hlater⟩ := htypedef _ .refl
  obtain ⟨w', hexec'⟩ := hlater w .refl
  exact ⟨hsets.qualifiers hreturned (by decide +kernel)
    (by decide +kernel), hok, id, w, w', hexec, hexec'⟩

end Session

end TemplateAnalysis
