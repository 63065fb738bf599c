import TemplateAnalysis.Proofs.Session.Runs
import TemplateAnalysis.Proofs.Session.StructuralTypes
import TemplateAnalysis.Proofs.Session.Success

/-!
# Qualifiers on arguments

A type argument loses its own qualifiers when it is bound. So arguments that differ in these
only are bound to one type, and give one instance, unless the type is an array: an array has
the qualifiers of its elements, and keeps them.
-/

namespace TemplateAnalysis

open Session Analysis

variable {inst inst' : Instantiator} {s u v : Session} {a b : Node} {x : TypeId}

/-- Whether two trees denote types in the same way, but for the qualifiers of these types: types
that have been resolved already, keywords that specify one fundamental type, pointers to the
same, or the same tree behind keywords that specify no type or in parentheses. -/
inductive Node.Requalifies (g : TypeGraph) : Node → Node → Prop
  | refl (node : Node) : Requalifies g node node
  | resolved {x y : TypeId} (hx : g.Has x) (hy : g.Has y)
      (same : (g.tree y).unqualified = (g.tree x).unqualified) (text text' : String)
      (span span' : Span) : Requalifies g (.resolvedType x text span) (.resolvedType y text' span')
  | keywords {k k' : KeywordSet} (same : Primitive.ofKeywords k' = Primitive.ofKeywords k)
      (span span' : Span) :
      Requalifies g (.typeId ⟨k, none⟩ [] span) (.typeId ⟨k', none⟩ [] span')
  | pointer (specifiers : Specifiers) (parts : Declarator) (q q' : Qualifiers)
      (span partSpan partSpan' : Span) :
      Requalifies g (.typeId specifiers (parts ++ [.pointer q partSpan]) span)
        (.typeId specifiers (parts ++ [.pointer q' partSpan']) span)
  | left {k : KeywordSet} {a b : Node} (span : Span) (unspecified : k.specifiesType = false)
      (rest : Requalifies g a b) : Requalifies g (.typeId ⟨k, some a⟩ [] span) b
  | right {k : KeywordSet} {a b : Node} (span : Span) (unspecified : k.specifiesType = false)
      (rest : Requalifies g a b) : Requalifies g a (.typeId ⟨k, some b⟩ [] span)
  | leftParen {a b : Node} (span : Span) (rest : Requalifies g a b) :
      Requalifies g (.paren a span) b
  | rightParen {a b : Node} (span : Span) (rest : Requalifies g a b) :
      Requalifies g a (.paren b span)

/-! ### Types -/

theorem resolveNode_typeId_nil (specifiers : Specifiers) (span : Span) :
    resolveNode inst (.typeId specifiers [] span) = resolveSpecifiers inst span specifiers := by
  rw [resolveNode]
  exact bind_pure _

theorem applyParts_append (current : TypeId) (parts rest : Declarator) :
    applyParts inst current (parts ++ rest) =
      applyParts inst current parts >>= fun type => applyParts inst type rest := by
  induction parts generalizing current with
  | nil => rw [List.nil_append, applyParts, pure_bind]
  | cons part parts ih => simp only [List.cons_append, applyParts, bind_assoc, ih]

theorem resolveNode_typeId_concat (specifiers : Specifiers) (parts : Declarator)
    (part : DeclaratorPart) (span : Span) :
    resolveNode inst (.typeId specifiers (parts ++ [part]) span) =
      resolveNode inst (.typeId specifiers parts span) >>= (applyPart inst · part) := by
  rw [resolveNode, resolveNode]
  simp only [bind_assoc, applyParts_append, applyParts, bind_pure]

theorem handlesOfParts_append (parts rest : Declarator) :
    handlesOfParts (parts ++ rest) = handlesOfParts parts ++ handlesOfParts rest := by
  induction parts with
  | nil => rfl
  | cons part parts ih =>
    rw [List.cons_append, handlesOfParts, handlesOfParts, ih, List.append_assoc]

/-- What is resolved behind keywords that specify no type is the type without the keywords, with
their qualifiers. -/
theorem exec_resolveNode_behind {k : KeywordSet} {span : Span} {node : Node}
    (hk : k.specifiesType = false) (s : Session) :
    exec (resolveNode inst (.typeId ⟨k, some node⟩ [] span)) s =
      exec (resolveNode inst node >>= fun type => onTypes (·.qualify type k.qualifiers)) s := by
  rw [resolveNode_typeId_nil, resolveSpecifiers, hk, if_neg Bool.false_ne_true]

/-- Where a pointer has been formed, one to the same with other qualifiers is formed as well. -/
theorem forms_resolveNode_pointer (hinst : inst.Steady s inst') (hs : s.Closed)
    {specifiers : Specifiers} {parts : Declarator} {q : Qualifiers} {span partSpan : Span}
    (hknown : AllKnown s.Known
      (Node.typeId specifiers (parts ++ [.pointer q partSpan]) span).handles)
    (hexec : exec (resolveNode inst (.typeId specifiers (parts ++ [.pointer q partSpan]) span)) s =
      (.ok x, u)) (q' : Qualifiers) (partSpan' : Span) :
    ∃ target, u.types.tree x = .pointer target q ∧
      u.Forms (resolveNode inst' (.typeId specifiers (parts ++ [.pointer q' partSpan']) span))
        (.pointer target q') := by
  rw [resolveNode_typeId_concat] at hexec ⊢
  obtain ⟨target, w, htarget, hpart⟩ := exec_bind_eq_ok.mp hexec
  have hprefix : AllKnown s.Known (Node.typeId specifiers parts span).handles := by
    refine hknown.left.append ?_
    have hparts := hknown.right
    rw [handlesOfParts_append] at hparts
    exact hparts.left
  have hsteady := steady_resolveNode (.typeId specifiers parts span) hinst hs hprefix
  obtain ⟨hw, _, hhas⟩ := hsteady.preserves hs htarget
  rw [applyPart] at hpart
  obtain ⟨hnone, hpointer⟩ := exec_rejectType_bind_eq_ok hpart
  have hpointee : (w.types.tree target).isPointee = true := by
    rw [← isNone_pointerFault? hw.types hhas, hnone]
    rfl
  obtain ⟨_, hwu, hformed⟩ := (forms_pointer ⟨hhas, rfl⟩ hw q).of_exec hw hpointer
  refine ⟨_, hformed.2, ((hsteady.forms htarget hw hhas).later hwu).bind fun y v hv _ hy => ?_⟩
  rw [applyPart]
  refine (forms_pointer hy hv q').checked fun z hz hgrows => ?_
  have hlater := hy.grows hv hz hgrows
  rw [← Option.isNone_iff_eq_none, isNone_pointerFault? hz.types hlater.1, hlater.2, hpointee]

theorem Node.Requalifies.later (h : a.Requalifies s.types b) (hs : s.Closed) (hu : u.Closed)
    (hgrows : s.Grows u) : a.Requalifies u.types b := by
  induction h with
  | resolved hx hy same text text' span span' =>
    have htree : ∀ {z}, s.types.Has z → u.types.tree z = s.types.tree z :=
      fun hz => hgrows.types.tree_eq hs.types hu.types hz
    exact .resolved (hgrows.types.has hx) (hgrows.types.has hy) (by rw [htree hx, htree hy, same])
      text text' span span'
  | refl node => exact .refl node
  | keywords same span span' => exact .keywords same span span'
  | pointer specifiers parts q q' span partSpan partSpan' =>
    exact .pointer specifiers parts q q' span partSpan partSpan'
  | left span unspecified _ ih => exact .left span unspecified ih
  | right span unspecified _ ih => exact .right span unspecified ih
  | leftParen span _ ih => exact .leftParen span ih
  | rightParen span _ ih => exact .rightParen span ih

/-- What a tree denotes that differs from a resolved one in qualifiers is a type that differs in
its own qualifiers only, if that is no array. -/
theorem Node.Requalifies.forms (h : a.Requalifies v.types b) (hinst : inst.Steady s inst')
    (hs : s.Closed) (hknown : AllKnown s.Known a.handles)
    (hexec : exec (resolveNode inst a) s = (.ok x, u)) (hv : v.Closed) (huv : u.Grows v)
    (harray : u.types.isArray x = false) :
    ∃ tree : TypeTree, tree.isArray = false ∧ tree.unqualified = (u.types.tree x).unqualified ∧
      v.Forms (resolveNode inst' b) tree := by
  obtain ⟨hu, hsu, hx⟩ := (steady_resolveNode a hinst hs hknown).preserves hs hexec
  rw [← TypeGraph.isArray_tree hu.types hx] at harray
  -- Keywords on the left are taken off a type that was resolved; those on the right are put on
  -- whatever type is denoted behind them, which need not be known yet.
  induction h generalizing x u with
  | refl node =>
    exact ⟨_, harray, rfl, ((steady_resolveNode node hinst hs hknown).forms hexec hu hx).later huv⟩
  | @resolved x' y _ hy same text text' span span' =>
    rw [resolveNode] at hexec ⊢
    cases hexec
    rw [← huv.types.tree_eq hu.types hv.types hx] at harray ⊢
    refine ⟨_, ?_, same, .pure fun w hw hgrows => Session.Unfolds.grows ⟨hy, rfl⟩ hv hw hgrows⟩
    rw [← TypeTree.isArray_unqualified, same, TypeTree.isArray_unqualified, harray]
  | @keywords k k' same span span' =>
    rw [resolveNode_typeId_nil, resolveSpecifiers] at hexec ⊢
    cases hk : Primitive.ofKeywords k with
    | error fault =>
      rw [exec_keywordType, hk] at hexec
      cases hexec
    | ok p =>
      obtain ⟨_, _, hbase⟩ := (forms_keywordType hk span).of_exec hs hexec
      refine ⟨_, ?_, ?_, forms_keywordType (same.trans hk) span'⟩
      · rfl
      · rw [hbase.2]
        rfl
  | pointer specifiers parts q q' span partSpan partSpan' =>
    obtain ⟨target, hpointer, hforms⟩ :=
      forms_resolveNode_pointer hinst hs hknown hexec q' partSpan'
    refine ⟨.pointer target q', rfl, ?_, hforms.later huv⟩
    rw [hpointer]
    rfl
  | @left k a b span unspecified rest ih =>
    rw [exec_resolveNode_behind unspecified] at hexec
    obtain ⟨y, w, hnode, hqualify⟩ := exec_bind_eq_ok.mp hexec
    have hnamed : AllKnown s.Known a.handles := hknown.left
    obtain ⟨hw, hsw, hy⟩ := (steady_resolveNode a hinst hs hnamed).preserves hs hnode
    obtain ⟨_, hwu, hformed⟩ := (forms_qualify ⟨hy, rfl⟩ hw k.qualifiers).of_exec hw hqualify
    rw [hformed.2, TypeTree.isArray_qualify] at harray
    obtain ⟨tree, hplain, hsame, hforms⟩ := ih hnamed hnode (hwu.trans huv) harray hw hsw hy
    refine ⟨tree, hplain, hsame.trans ?_, hforms⟩
    rw [hformed.2, (TypeTree.unqualified_qualify_iff _ _).mpr (.inl harray)]
  | @right k a b span unspecified rest ih =>
    obtain ⟨tree, hplain, hsame, hforms⟩ := ih hknown hexec huv harray hu hsu hx
    refine ⟨tree.qualify k.qualifiers, (tree.isArray_qualify _).trans hplain, ?_, ?_⟩
    · rw [(TypeTree.unqualified_qualify_iff _ _).mpr (.inl hplain), hsame]
    · refine Session.Attains.congr (hforms.bind fun y w hw _ hy => forms_qualify hy hw k.qualifiers)
        fun w _ _ => exec_resolveNode_behind unspecified w
  | leftParen span rest ih =>
    rw [resolveNode] at hexec
    exact ih hknown hexec huv harray hu hsu hx
  | rightParen span rest ih =>
    rw [resolveNode]
    exact ih hknown hexec huv harray hu hsu hx

/-- What resolves to a type is an argument that denotes one, and no pack expansion. -/
theorem isTypeArgument_of_resolveNode : ∀ (node : Node) {s u : Session} {x : TypeId},
    exec (resolveNode inst node) s = (.ok x, u) →
      isTypeArgument s.table node = true ∧ node.isExpansion = false
  | .paren inner _, _, _, _, h => by
    rw [resolveNode] at h
    exact ⟨(isTypeArgument_of_resolveNode inner h).1, rfl⟩
  | .name text id span, s, _, _, h => by
    rw [resolveNode, exec_namedType] at h
    rw [isTypeArgument]
    cases hentity : (s.table.symbol id).entity with
    | classType _ | enumeration _ | typedef _ => exact ⟨rfl, rfl⟩
    | _ =>
      rw [hentity] at h
      cases h
  | .typeId _ _ _, _, _, _, _ | .resolvedType _ _ _, _, _, _, _ | .templateId _ _ _ _, _, _, _, _ =>
    ⟨rfl, rfl⟩
  | .typeParameter _ _ _, _, _, _, h | .valueParameter _ _ _, _, _, _, h | .literal _ _, _, _, _, h
  | .unary _ _ _, _, _, _, h | .binary _ _ _ _, _, _, _, h | .conditional _ _ _ _, _, _, _, h
  | .packExpansion _ _, _, _, _, h | .base _, _, _, _, h | .member _, _, _, _, h
  | .staticAssert _, _, _, _, h | .classBody _, _, _, _, h => by cases h
termination_by structural node => node

/-! ### Arguments -/

/-- Whether an argument may be supplied for another one: it is that one, or differs from it in
the qualifiers of the type that this one denotes, which is no array. -/
def Session.Requalifies (s : Session) (a b : Node) : Prop :=
  b = a ∨ a.Requalifies s.types b ∧
    ∃ x, exec (resolveNode instantiate a) s = (.ok x, s) ∧ s.types.isArray x = false

theorem Session.Requalifies.later (h : s.Requalifies a b) (hs : s.Closed)
    (hknown : AllKnown s.Known a.handles) (hu : u.Closed) (hgrows : s.Grows u) :
    u.Requalifies a b := by
  refine h.imp_right fun ⟨hrequalifies, x, hx, harray⟩ =>
    ⟨hrequalifies.later hs hu hgrows, x, ?_, ?_⟩
  · have hsteady := steady_resolveNode a (steady_instantiate s) hs hknown
    exact hsteady.again x (by rw [hx]) u hu (by rwa [hx])
  · obtain ⟨_, _, hhas⟩ :=
      (steady_resolveNode a (steady_instantiate s) hs hknown).preserves hs hx
    exact (hgrows.types.isArray_eq hhas).trans harray

theorem forall₂_requalifies_later {as bs : List Node} (h : List.Forall₂ s.Requalifies as bs)
    (hs : s.Closed) (hknown : AllKnown s.Known (handlesOfNodes as)) (hu : u.Closed)
    (hgrows : s.Grows u) : List.Forall₂ u.Requalifies as bs := by
  induction h with
  | nil => exact .nil
  | cons hab _ ih => exact .cons (hab.later hs hknown.left hu hgrows) (ih hknown.right)

theorem Session.Requalifies.isExpansion_eq (h : s.Requalifies a b) (hs : s.Closed)
    (hknown : AllKnown s.Known a.handles) (ha : a.isExpansion = false) : b.isExpansion = false := by
  rcases h with rfl | ⟨hrequalifies, x, hx, harray⟩
  · exact ha
  · obtain ⟨_, _, _, hforms⟩ := hrequalifies.forms (steady_instantiate s) hs hknown hx hs
      (.refl s) harray
    obtain ⟨_, _, hb, _⟩ := hforms s hs (.refl s)
    exact (isTypeArgument_of_resolveNode b hb).2

/-- Two trees that differ in qualifiers of the type only are bound to one type. -/
theorem Node.Requalifies.attains_bindType (h : a.Requalifies v.types b)
    (hinst : inst.Steady s inst') (hs : s.Closed) (hknown : AllKnown s.Known a.handles)
    {bound : TemplateArgument} (hexec : exec (bindType inst a) s = (.ok bound, u))
    (hv : v.Closed) (huv : u.Grows v)
    (harray : ∀ x w, exec (resolveNode inst a) s = (.ok x, w) → w.Grows u →
      w.types.isArray x = false) :
    v.Attains (bindType inst' b) fun other _ => other = bound := by
  rw [bindType] at hexec ⊢
  obtain ⟨x, w, hx, hexec⟩ := exec_bind_eq_ok.mp hexec
  obtain ⟨y, w', hy, hexec⟩ := exec_bind_eq_ok.mp hexec
  rw [exec_get_bind] at hexec
  cases hexec
  obtain ⟨hw, _, hhas⟩ := (steady_resolveNode a hinst hs hknown).preserves hs hx
  obtain ⟨hu, hwu, hunqualified⟩ := (forms_unqualified ⟨hhas, rfl⟩ hw).of_exec hw hy
  obtain ⟨tree, _, hsame, hforms⟩ :=
    h.forms hinst hs hknown hx hv (hwu.trans huv) (harray x w hx hwu)
  refine hforms.bind fun z v' hv' hvv' hz => ?_
  refine (forms_unqualified hz hv').bind fun z' w' hw' hvw' hz' => ?_
  rw [hsame] at hz'
  have hlater := (huv.trans hvv').trans hvw'
  have hequal := hz'.eq (hunqualified.grows hu hw' hlater) hw'
  subst hequal
  refine .of_again (fun u' hu' hgrows => ?_) fun _ _ _ => rfl
  rw [exec_get_bind, hu.typeText_eq hu' (hlater.trans hgrows) hunqualified.1]
  rfl

/-- What an argument has been bound to, one that may be supplied for it is bound to as well. -/
theorem attains_bindOne (hinst : inst.Steady s inst') (hnames : inst.Steady s instantiate)
    (hs : s.Closed) {template : String} {p p' : TemplateParameter} (hp : p.Grows p') {index : Nat}
    (hknown : AllKnown s.Known a.handles) {bound : TemplateArgument}
    (hexec : exec (bindOne inst template p index a) s = (.ok bound, u)) (hv : v.Closed)
    (hgrows : u.Grows v) (hab : v.Requalifies a b) :
    v.Attains (bindOne inst' template p' index b) fun other _ => other = bound := by
  have hsteady := steady_bindOne hinst hs template hp index hknown
  obtain ⟨_, hsu, _⟩ := hsteady.preserves hs hexec
  rcases hab with rfl | ⟨hrequalifies, x, hx, harray⟩
  · exact (hsteady.attains hexec).later hgrows
  -- The argument denotes a type, so that it is bound for a type parameter.
  have hdenotes : isTypeArgument s.table a = true := by
    rw [← isTypeArgument_eq (hsu.trans hgrows).table a fun y hy => hknown (.symbol y) hy]
    exact (isTypeArgument_of_resolveNode a hx).1
  rw [bindOne, exec_get_bind, hdenotes] at hexec
  cases hkind : p.kind with
  | nonType =>
    rw [hkind] at hexec
    cases hexec
  | type =>
    rw [hkind] at hexec
    have htype : exec (bindType inst a) s = (.ok bound, u) := hexec
    have hplain : ∀ y w, exec (resolveNode inst a) s = (.ok y, w) → w.Grows u →
        w.types.isArray y = false := by
      intro y w hy hwu
      have hresolve := steady_resolveNode a hnames hs hknown
      obtain ⟨_, _, hhas⟩ := hresolve.preserves hs hy
      have hagain := hresolve.again y (by rw [hy]) v hv (by rw [hy]; exact hwu.trans hgrows)
      cases hagain.symm.trans hx
      rwa [(hwu.trans hgrows).types.isArray_eq hhas] at harray
    intro w hw hvw
    obtain ⟨other, w', hother, hrest⟩ :=
      hrequalifies.attains_bindType hinst hs hknown htype hv hgrows hplain w hw hvw
    refine ⟨other, w', ?_, hrest⟩
    obtain ⟨z, _, hz, _⟩ := exec_bind_eq_ok.mp hother
    rw [bindOne, exec_get_bind, (isTypeArgument_of_resolveNode b hz).1, hp.kind, hkind]
    exact hother

theorem attains_bindElements {template : String} {p p' : TemplateParameter} (hp : p.Grows p')
    {as bs : List Node} (hv : v.Closed) (hab : List.Forall₂ v.Requalifies as bs) :
    ∀ {s u : Session} {index : Nat} {bounds : List TemplateArgument}, inst.Steady s inst' →
      inst.Steady s instantiate → s.Closed → AllKnown s.Known (handlesOfNodes as) →
      exec (bindElements inst template p index as) s = (.ok bounds, u) → u.Grows v →
      v.Attains (bindElements inst' template p' index bs) fun others _ => others = bounds := by
  induction hab with
  | nil =>
    intro s u index bounds _ _ _ _ hexec _
    cases hexec
    exact .pure fun _ _ _ => rfl
  | @cons a b as bs hab _ ih =>
    intro s u index bounds hinst hnames hs hknown hexec hgrows
    rw [bindElements] at hexec ⊢
    obtain ⟨first, w, hfirst, hexec⟩ := exec_bind_eq_ok.mp hexec
    obtain ⟨rest, w', hrest, hexec⟩ := exec_bind_eq_ok.mp hexec
    cases hexec
    have hbind := steady_bindOne hinst hs template hp index hknown.left
    obtain ⟨hw, hsw, _⟩ := hbind.preserves hs hfirst
    have hlast := hsw.allKnown hknown.right
    obtain ⟨_, hwu, _⟩ := (steady_bindElements template hp (index + 1) as (hinst.later hsw) hw
      hlast).preserves hw hrest
    refine (attains_bindOne hinst hnames hs hp hknown.left hfirst hv (hwu.trans hgrows) hab).bind
      fun x v' _ hvv' hx => ?_
    refine ((ih (hinst.later hsw) (hnames.later hsw) hw hlast hrest hgrows).later hvv').bind
      fun xs _ _ _ hxs => .pure fun _ _ _ => ?_
    rw [hx, hxs]

/-- Where arguments are bound of which some may be supplied for others, for a template whose
parameters may have been given more defaults. -/
structure BindingSite.Requalified (v : Session) (site site' : BindingSite) : Prop where
  template : site'.template = site.template
  supplied : List.Forall₂ v.Requalifies site.supplied site'.supplied

theorem BindingSite.Requalified.argument {site site' : BindingSite} (h : site.Requalified v site')
    {p p' : TemplateParameter} (hp : p.Grows p') {index : Nat} {done : Arguments}
    (ha : site.argument index p done = .ok a) :
    ∃ b, site'.argument index p' done = .ok b ∧ v.Requalifies a b := by
  rw [BindingSite.argument] at ha ⊢
  have hlength := h.supplied.length_eq
  by_cases hindex : index < site.supplied.length
  · have hindex' : index < site'.supplied.length := hlength ▸ hindex
    rw [List.getElem?_eq_getElem hindex] at ha
    rw [List.getElem?_eq_getElem hindex']
    cases ha
    exact ⟨_, rfl, h.supplied.get hindex hindex'⟩
  · rw [List.getElem?_eq_none (Nat.le_of_not_lt hindex)] at ha
    rw [List.getElem?_eq_none (hlength ▸ Nat.le_of_not_lt hindex)]
    cases hdefault : p.defaultArgument with
    | none =>
      rw [hdefault] at ha
      cases ha
    | some pattern =>
      rw [hdefault] at ha
      rw [hp.defaultArgument pattern hdefault]
      exact ⟨a, ha, .inl rfl⟩

theorem attains_bindNext (hinst : inst.Steady s inst') (hnames : inst.Steady s instantiate)
    (hs : s.Closed) {site site' : BindingSite} (hsite : site.Requalified v site')
    {p p' : TemplateParameter} (hp : p.Grows p') {index : Nat} {done done' : Binding}
    (hdone' : done'.arguments = done.arguments)
    (hsupplied : AllKnown s.Known (handlesOfNodes site.supplied))
    (hdefault : AllKnown s.Known p.handles)
    (hdone : AllKnown s.Known (handlesOfArguments done.arguments)) {next : Binding}
    (hexec : exec (bindNext inst site index done p) s = (.ok next, u)) (hv : v.Closed)
    (hgrows : u.Grows v) :
    v.Attains (bindNext inst' site' index done' p') fun other _ =>
      other.arguments = next.arguments := by
  rw [bindNext] at hexec ⊢
  rw [hp.isPack, hsite.template, hp.kind, hdone']
  by_cases hpack : p.isPack = true
  · rw [if_pos hpack] at hexec ⊢
    obtain ⟨elements, w, helements, hexec⟩ := exec_bind_eq_ok.mp hexec
    cases hexec
    refine (attains_bindElements hp hv (List.forall₂_drop index hsite.supplied) hinst hnames hs
      (hsupplied.drop index) helements hgrows).bind fun others _ _ _ hothers =>
        .pure fun _ _ _ => ?_
    rw [hothers]
  · rw [if_neg hpack] at hexec ⊢
    obtain ⟨a, w, hargument, hexec⟩ := exec_bind_eq_ok.mp hexec
    obtain ⟨bound, w', hbound, hexec⟩ := exec_bind_eq_ok.mp hexec
    cases hexec
    rw [exec_ofExcept] at hargument
    obtain ⟨ha, rfl⟩ := Prod.mk.inj hargument
    obtain ⟨b, hb, hab⟩ := hsite.argument hp ha
    have hknown := BindingSite.argument_known hsupplied hdefault index hdone a ha
    have hone := attains_bindOne hinst hnames hs hp hknown hbound hv hgrows hab
    refine .congr (hone.bind fun x _ _ _ hx => .pure fun _ _ _ => ?_)
      fun w _ _ => exec_ofExcept_bind w hb _
    rw [hx]

theorem attains_bindFrom {site site' : BindingSite} (hsite : site.Requalified v site')
    (hv : v.Closed) {ps ps' : ParameterList} (hps : List.Forall₂ TemplateParameter.Grows ps ps') :
    ∀ {s u : Session} {index : Nat} {done done' bound : Binding}, inst.Steady s inst' →
      inst.Steady s instantiate → s.Closed → AllKnown s.Known (handlesOfNodes site.supplied) →
      AllKnown s.Known (ps.flatMap (·.handles)) →
      AllKnown s.Known (handlesOfArguments done.arguments) → done'.arguments = done.arguments →
      exec (bindFrom inst site index done ps) s = (.ok bound, u) → u.Grows v →
      v.Attains (bindFrom inst' site' index done' ps') fun other _ =>
        other.arguments = bound.arguments := by
  induction hps with
  | nil =>
    intro s u index done done' bound _ _ _ _ _ _ hdone' hexec _
    cases hexec
    exact .pure fun _ _ _ => hdone'
  | cons hp hps ih =>
    intro s u index done done' bound hinst hnames hs hsupplied hdefaults hdone hdone' hexec hgrows
    rw [bindFrom] at hexec ⊢
    obtain ⟨next, w, hnext, hrest⟩ := exec_bind_eq_ok.mp hexec
    obtain ⟨hw, hsw, hknown⟩ := (steady_bindNext hinst hs ⟨rfl, rfl⟩ hp index hsupplied
      hdefaults.left hdone).preserves hs hnext
    have hsupplied' := hsw.allKnown hsupplied
    have hdefaults' := hsw.allKnown hdefaults.right
    obtain ⟨_, hwu, _⟩ := (steady_bindFrom ⟨rfl, rfl⟩ hps (index + 1) (hinst.later hsw) hw
      hsupplied' hdefaults' hknown).preserves hw hrest
    refine (attains_bindNext hinst hnames hs hsite hp hdone' hsupplied hdefaults.left hdone hnext hv
      (hwu.trans hgrows)).bind fun next' v' _ hvv' hnext' => ?_
    exact (ih (hinst.later hsw) (hnames.later hsw) hw hsupplied' hdefaults' hknown hnext' hrest
      hgrows).later hvv'

theorem find?_isExpansion_of_requalified {as bs : List Node} (hv : v.Closed)
    (hknown : AllKnown v.Known (handlesOfNodes as)) (h : List.Forall₂ v.Requalifies as bs)
    (hnone : as.find? (·.isExpansion) = none) : bs.find? (·.isExpansion) = none := by
  induction h with
  | nil => rfl
  | cons hab _ ih =>
    rw [List.find?_eq_none, List.forall_mem_cons, Bool.not_eq_true] at hnone
    have hrest := ih hknown.right (List.find?_eq_none.mpr hnone.2)
    rw [List.find?_eq_none, List.forall_mem_cons, Bool.not_eq_true]
    exact ⟨hab.isExpansion_eq hv hknown.left hnone.1, List.find?_eq_none.mp hrest⟩

theorem bindingSite_requalified {target : Symbol} {supplied supplied' : List Node} {span : Span}
    {site : BindingSite} (hsite : bindingSite target supplied span = .ok site) (hv : v.Closed)
    (hknown : AllKnown v.Known (handlesOfNodes supplied))
    (hrequalified : List.Forall₂ v.Requalifies supplied supplied') :
    bindingSite target supplied' span = .ok { site with supplied := supplied' } := by
  unfold bindingSite at hsite ⊢
  split at hsite
  · split at hsite
    · cases hsite
    · rename_i hnone
      rw [find?_isExpansion_of_requalified hv hknown hrequalified hnone, ← hrequalified.length_eq]
      split at hsite
      · cases hsite
      · rename_i hcount
        cases hsite
        simp only [hcount, if_false]
  · cases hsite

/-- What arguments have been bound to for a template, those that are supplied for them are bound
to as well. -/
theorem attains_bindSources (hinst : inst.Steady s inst') (hnames : inst.Steady s instantiate)
    (hs : s.Closed) {template : SymbolId} (htemplate : s.table.HasSymbol template)
    {supplied supplied' : List Node} (hsupplied : AllKnown s.Known (handlesOfNodes supplied))
    {span : Span} {bound : Binding}
    (hexec : exec (bindSources inst template supplied span) s = (.ok bound, u)) (hv : v.Closed)
    (hgrows : u.Grows v) (hrequalified : List.Forall₂ v.Requalifies supplied supplied')
    (span' : Span) :
    v.Attains (bindSources inst' template supplied' span') fun other _ =>
      other.arguments = bound.arguments := by
  rw [bindSources, exec_symbol_bind] at hexec
  cases hsite : bindingSite (s.table.symbol template) supplied span with
  | error d =>
    rw [exec_bind, exec_ofExcept, hsite] at hexec
    cases hexec
  | ok site =>
    rw [exec_ofExcept_bind _ hsite] at hexec
    obtain ⟨rfl, hdefaults⟩ := bindingSite_known (hs.symbol template htemplate).known hsite
    have hfrom : Steady s (bindFrom inst site 0 ⟨[], []⟩ site.parameters)
        (bindFrom inst' site 0 ⟨[], []⟩ site.parameters)
        fun bound u => AllKnown u.Known (handlesOfArguments bound.arguments) :=
      steady_bindFrom ⟨rfl, rfl⟩ (TemplateParameter.Grows.refl_list _) 0 hinst hs hsupplied
        hdefaults AllKnown.nil
    have hsv := (hfrom.preserves hs hexec).2.1.trans hgrows
    intro w hw hvw
    -- Later the parameters may have been given more defaults.
    obtain ⟨site', hsite', hsites, hparameters⟩ :=
      bindingSite_later ((hsv.trans hvw).table.symbol template htemplate) hsite span'
    have hsite'' := bindingSite_requalified hsite' hv (hsv.allKnown hsupplied) hrequalified
    rw [bindSources, exec_symbol_bind, exec_ofExcept_bind _ hsite'']
    have hsupplies : site.Requalified v { site' with supplied := supplied' } :=
      ⟨hsites.template, hrequalified⟩
    exact attains_bindFrom hsupplies hv hparameters hinst hnames hs hsupplied hdefaults AllKnown.nil
      rfl hexec hgrows w hw hvw

/-! ### Instances -/

theorem exec_instanceFor_of_instance? {template : SymbolId} {target : Symbol}
    (htarget : target.Grows (s.table.symbol template)) {data : TemplateData} {bound : Binding}
    {i : SymbolId} (h : s.instance? template bound.arguments = some i) (span : Span) :
    exec (instanceFor inst template target data bound span) s = (.ok i, s) := by
  rw [Session.instance?, Session.keyFor, htarget.enclosing, htarget.mangled] at h
  simp only [instanceFor, exec_get_bind, h]
  exact exec_pure s i

/-- The instance for arguments is the one for those that are supplied for them. -/
theorem attains_instantiate (hs : s.Closed) {template : SymbolId}
    (htemplate : s.table.HasSymbol template) {supplied supplied' : List Node}
    (hsupplied : AllKnown s.Known (handlesOfNodes supplied)) {span : Span} {i : SymbolId}
    (hexec : exec (instantiate template supplied span) s = (.ok i, u)) (hv : v.Closed)
    (hgrows : u.Grows v) (hrequalified : List.Forall₂ v.Requalifies supplied supplied')
    (span' : Span) :
    v.Attains (instantiate template supplied' span') fun j _ => j = i := by
  have hmade := steady_instantiate s s (.refl s) hs template supplied span span htemplate hsupplied
  obtain ⟨hu, hsu, _⟩ := hmade.preserves hs hexec
  have hsv := hsu.trans hgrows
  rw [instantiate, exec_get_bind] at hexec
  cases hleft : s.config.maxDepth - s.depth with
  | zero =>
    rw [hleft] at hexec
    cases hexec
  | succ left =>
    have hwithin : ∀ w : Session, s.Grows w →
        (instantiateWithin left).Steady w (instantiateWithin left) ∧
          (instantiateWithin left).Steady w instantiate := by
      intro w hsw
      have hrest : left ≤ w.config.maxDepth - w.depth := by
        rw [hsw.config, hsw.depth, hleft]
        exact Nat.le_succ left
      exact ⟨steady_instantiateWithin (Nat.le_refl left) w hrest,
        (steady_instantiateWithin hrest w hrest).instantiate⟩
    rw [hleft, instantiateWithin_succ] at hexec
    have hleads := leads_instantiateStep (hwithin s (.refl s)).1 (hwithin s (.refl s)).2 hs
      htemplate hsupplied span span
    have hfinds := (hleads.result i (by rw [hexec])).1
    rw [hexec] at hfinds
    -- The arguments are bound again inside of an instantiation, without a change.
    obtain ⟨hkind, bound, hbound, hknown, hi⟩ :=
      hfinds.later hu hv hgrows (hsu.table.hasSymbol _ htemplate)
    have htemplate' := hsv.table.hasSymbol _ htemplate
    have hbinds := attains_bindSources (hwithin v hsv).1 (hwithin v hsv).2 hv htemplate'
      (hsv.allKnown hsupplied) (hbound v hv (.refl v)) hv (.refl v) hrequalified span'
    intro w hw hvw
    obtain ⟨data, hentity⟩ :=
      Symbol.exists_template ((hvw.table.symbol _ htemplate').kind_eq.trans hkind)
    obtain ⟨other, w', hother, hw', hww', hargs⟩ := hbinds w hw hvw
    have hfound := hv.instance?_eq hw' (hvw.trans hww') htemplate' hknown hi
    rw [← hargs] at hfound
    refine ⟨i, w', ?_, hw', hww', rfl⟩
    rw [instantiate, exec_get_bind, (hsv.trans hvw).config, (hsv.trans hvw).depth, hleft,
      instantiateWithin_succ, instantiateStep, exec_symbol_bind, hentity]
    exact exec_bind_eq_ok.mpr ⟨other, w', hother, exec_instanceFor_of_instance?
      (hww'.table.symbol _ (hvw.table.hasSymbol _ htemplate')) hfound span'⟩

/-! ### Runs -/

namespace Session

variable {config : Config}

/-- Taking qualifiers away leaves none, but those of the elements of an array, and undoes adding
them, but not for an array that this has changed. So in any session that operations reach,
arguments that have been bound for a template are bound to the same wherever they are supplied
with other qualifiers of the types that they denote, unless these are arrays; and where the
template has an instance for the ones, that is the instance for the others. -/
theorem arguments_lose_qualifiers {g : TypeGraph} (hg : TypeGraph.Run .empty g)
    (hs : (start config).Run s) :
    g.StripsQualifiers ∧
    ∀ {u : Session} {template : SymbolId} {supplied supplied' : List Node} {span : Span}
      {args : Arguments}, (Operation.bindArguments template supplied span).IsOn s →
      exec (bindArguments template supplied span) s = (.ok args, u) →
      List.Forall₂ u.Requalifies supplied supplied' → ∀ (span' : Span) (v : Session), u.Run v →
        (∃ w, exec (bindArguments template supplied' span') v = (.ok args, w)) ∧
        ∀ i w, exec (instantiate template supplied span) v = (.ok i, w) → ∀ w', w.Run w' →
          ∃ w'', exec (instantiate template supplied' span') w' = (.ok i, w'') := by
  refine ⟨TypeGraph.stripsQualifiers hg, fun {u template supplied supplied' span args} hcall h
    hrequalified span' v hv => ?_⟩
  have hclosed := hs.closed
  have htemplate := hcall.known.head
  have hsupplied := hcall.known.tail
  obtain ⟨hu, hsu, _⟩ :=
    (steady_bindArguments hclosed htemplate hsupplied span span).preserves hclosed h
  obtain ⟨hclosedv, huv⟩ := hv.preserves hu
  have hknown := hsu.allKnown hsupplied
  refine ⟨?_, fun i w hi w' hw' => ?_⟩
  · obtain ⟨bound, w, hbound, hrest⟩ := exec_bind_eq_ok.mp h
    cases hrest
    obtain ⟨other, w, hother, _, _, hargs⟩ := attains_bindSources (steady_instantiate s)
      (steady_instantiate s) hclosed htemplate hsupplied hbound hu (.refl u) hrequalified span'
      v hclosedv huv
    refine ⟨w, exec_bind_eq_ok.mpr ⟨other, w, hother, ?_⟩⟩
    rw [hargs]
    rfl
  · have hmade := steady_instantiate v v (.refl v) hclosedv template supplied span span
      (huv.table.hasSymbol _ (hsu.table.hasSymbol _ htemplate)) (huv.allKnown hknown)
    obtain ⟨hclosedw, hvw, _⟩ := hmade.preserves hclosedv hi
    obtain ⟨hclosed', hww'⟩ := hw'.preserves hclosedw
    have hlater := forall₂_requalifies_later hrequalified hu hknown hclosed'
      ((huv.trans hvw).trans hww')
    obtain ⟨j, w'', hj, _, _, rfl⟩ := attains_instantiate hclosedv
      (huv.table.hasSymbol _ (hsu.table.hasSymbol _ htemplate)) (huv.allKnown hknown) hi hclosed'
      hww' hlater span' w' hclosed' (.refl w')
    exact ⟨w'', hj⟩

/-- In a graph with `const int[2]`, taking the qualifiers of `const int` away gives `int`, but
the array keeps those of its elements; and for `template <typename T> struct Box;` the instance
`Box<int>` is `Box<const int>`. -/
theorem arguments_lose_qualifiers_box :
    let const : Qualifiers := ⟨true, false⟩
    let array := (TypeGraph.Operation.array ⟨0⟩ (some 2)).after
      ((TypeGraph.Operation.primitive .int .none).after .empty)
    let g := (TypeGraph.Operation.qualify ⟨1⟩ const).after array
    let s := (Operation.declareClass "Box" .structKey .synthesized).after
      ((Operation.beginTemplate [⟨"T", .type, none, false, none, .synthesized⟩]
        .synthesized).after (start .standard))
    let int : Node := .typeId ⟨.singleton .int, none⟩ [] .synthesized
    let constInt : Node := .typeId ⟨.singleton .const, some int⟩ [] .synthesized
    (g.Returned (.unqualified ⟨2⟩) ⟨0⟩ ∧ (g.tree ⟨0⟩).qualifiers = .none) ∧
      (g.Returned (.unqualified ⟨3⟩) ⟨3⟩ ∧ (g.tree ⟨3⟩).qualifiers ≠ .none) ∧
      ∃ args u i v w, exec (bindArguments ⟨1⟩ [int] .synthesized) s = (.ok args, u) ∧
        exec (instantiate ⟨1⟩ [int] .synthesized) u = (.ok i, v) ∧
        exec (instantiate ⟨1⟩ [constInt] .synthesized) v = (.ok i, w) := by
  intro const array g s int constInt
  have hint := TypeGraph.Run.refl.step (g := .empty) (.primitive .int .none)
    (TypeGraph.Operation.isOn_of_operands_nil rfl)
  have harray := hint.step (.array ⟨0⟩ (some 2))
    (TypeGraph.Operation.isOn_of_operands rfl (by decide +kernel))
  have hg : TypeGraph.Run .empty g :=
    harray.step (.qualify ⟨1⟩ const) (TypeGraph.Operation.isOn_of_operands rfl (by decide +kernel))
  have hconstInt : g.Returned (.unqualified ⟨2⟩) ⟨0⟩ :=
    TypeGraph.returned_of_apply hg
      (TypeGraph.Operation.isOn_of_operands rfl (by decide +kernel)) rfl
  have hconstArray : g.Returned (.unqualified ⟨3⟩) ⟨3⟩ :=
    TypeGraph.returned_of_apply hg
      (TypeGraph.Operation.isOn_of_operands rfl (by decide +kernel)) rfl
  have hrun : (start .standard).Run s :=
    (Run.refl.step _ .of_handles_nil).step _ .of_handles_nil
  obtain ⟨hstrips, hbinds⟩ := arguments_lose_qualifiers hg hrun
  have hplain := hstrips.qualifiers hconstInt
  have hkept := hstrips.qualifiers hconstArray
  rw [if_neg (by decide +kernel)] at hplain
  have hbox : s.table.HasSymbol ⟨1⟩ := by decide +kernel
  have hcall : (Operation.bindArguments ⟨1⟩ [int] .synthesized).IsOn s :=
    .of_symbol hbox
  have hbinds' : (exec (bindArguments ⟨1⟩ [int] .synthesized) s).1.isOk = true := by decide +kernel
  have hmakes : (exec (instantiate ⟨1⟩ [int] .synthesized)
      (exec (bindArguments ⟨1⟩ [int] .synthesized) s).2).1.isOk = true := by decide +kernel
  have hknows : (exec (bindArguments ⟨1⟩ [int] .synthesized) s).2.types.bases.lookup
      (.primitive .int .none) = some ⟨0⟩ := by decide +kernel
  have hplainInt : (exec (bindArguments ⟨1⟩ [int] .synthesized) s).2.types.isArray ⟨0⟩ = false := by
    decide +kernel
  rcases hbound : exec (bindArguments ⟨1⟩ [int] .synthesized) s with ⟨d | args, u⟩
  · rw [hbound] at hbinds'
    cases hbinds'
  simp only [hbound] at hmakes hknows hplainInt
  rcases hmade : exec (instantiate ⟨1⟩ [int] .synthesized) u with ⟨d | i, v⟩
  · rw [hmade] at hmakes
    cases hmakes
  have hresolve : exec (resolveNode instantiate int) u = (.ok ⟨0⟩, u) := by
    have hkeywords : Primitive.ofKeywords (.singleton .int) = .ok .int := by decide +kernel
    have hnone : (KeywordSet.singleton .int).qualifiers = .none := by decide +kernel
    have hcreated : u.types.primitive .int .none = (⟨0⟩, u.types) := by
      rw [TypeGraph.primitive, TypeGraph.base, hknows]
    rw [resolveNode_typeId_nil, resolveSpecifiers, exec_keywordType, hkeywords]
    simp only [exec_onTypes, hnone, hcreated]
  have hrequalifies : int.Requalifies u.types constInt :=
    .right .synthesized (by decide +kernel) (.refl int)
  obtain ⟨-, hsame⟩ := hbinds hcall hbound
    (.cons (.inr ⟨hrequalifies, ⟨0⟩, hresolve, hplainInt⟩) .nil) .synthesized u .refl
  obtain ⟨w, hw⟩ := hsame i v hmade v .refl
  refine ⟨⟨hconstInt, hplain⟩, ⟨hconstArray, ?_⟩, args, u, i, v, w, rfl, hmade, hw⟩
  rw [hkept, if_pos (by decide +kernel)]
  decide +kernel

end Session

end TemplateAnalysis
