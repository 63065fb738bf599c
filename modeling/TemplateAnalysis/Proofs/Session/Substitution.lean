import TemplateAnalysis.Proofs.Ast.WellKinded
import TemplateAnalysis.Proofs.Session.Fitting
import TemplateAnalysis.Proofs.Session.Runs

/-!
# Substitution into well-kinded patterns

Arguments that are bound for a template hold a type or a value where a dependent name may
stand outside of an expansion. An expansion that mentions the pack narrows the arguments
to one element of it, and then every dependent name finds a type or a value. So nothing
can go wrong where the arguments of a template are substituted into a pattern that is
well-kinded for its parameters.
-/

namespace TemplateAnalysis

variable {ps : ParameterList} {args : Arguments}

/-- Whether every dependent name that may stand in a tree finds what it stands for. -/
def Arguments.Supply (ps : ParameterList) (inside : Bool) (args : Arguments) : Prop :=
  ∀ kind index, ps.admits inside kind index = true → ∃ x, args[index]? = some x ∧ x.IsOne kind

/-- Whether arguments can be substituted, and outside of expansions repeated. -/
structure Arguments.Ready (ps : ParameterList) (inside : Bool) (args : Arguments) : Prop where
  supply : args.Supply ps inside
  repetitions : inside = false → ∀ uses, (∀ index ∈ uses, index < ps.length) →
    (∃ index ∈ uses, ps.HasPackAt index) → ∀ span,
      ∃ narrowed, args.repetitions uses span = .ok narrowed ∧ ∀ xs ∈ narrowed, xs.Supply ps true

theorem Arguments.Supply.ready (h : args.Supply ps true) : args.Ready ps true := ⟨h, nofun⟩

/-! ### Packs of bound arguments -/

/-- A valid parameter list has at most one pack, its last parameter. -/
theorem ParameterList.HasPackAt.eq_last (hvalid : ps.validate = .ok ()) {index : Nat}
    (h : ps.HasPackAt index) : index + 1 = ps.length := by
  obtain ⟨p, hp, hpack⟩ := h
  induction ps generalizing index with
  | nil => cases hp
  | cons q rest ih =>
    rw [validate] at hvalid
    split at hvalid
    · cases hvalid
    · split at hvalid
      · cases hvalid
      · rename_i hlast _
        cases index with
        | zero =>
          cases hp
          cases rest with
          | nil => rfl
          | cons r rest => exact absurd (by simp [hpack]) hlast
        | succ index => rw [ih hvalid hp, List.length_cons]

namespace Arguments

theorem FitAll.exists_fit (h : args.FitAll ps) {index : Nat} {p : TemplateParameter}
    (hp : ps[index]? = some p) : ∃ x, args[index]? = some x ∧ x.Fits p := by
  induction h generalizing index with
  | nil => cases hp
  | cons hfit _ ih =>
    cases index with
    | zero =>
      cases hp
      exact ⟨_, rfl, hfit⟩
    | succ index => exact ih hp

theorem FitAll.supply (h : args.FitAll ps) : args.Supply ps false := by
  intro kind index hadmits
  unfold ParameterList.admits at hadmits
  cases hp : ps[index]? with
  | none => simp [hp] at hadmits
  | some p =>
    simp only [hp, Bool.false_or, Bool.and_eq_true, beq_iff_eq, Bool.not_eq_true'] at hadmits
    obtain ⟨x, hx, hfit⟩ := h.exists_fit hp
    exact ⟨x, hx, hadmits.1 ▸ hfit.isOne hadmits.2⟩

/-- Bound arguments with one element of the pack in its place. -/
theorem FitAll.supply_set (h : args.FitAll ps) (hvalid : ps.validate = .ok ()) {slot : Nat}
    {p : TemplateParameter} (hp : ps[slot]? = some p) (hpack : p.isPack = true)
    {x : TemplateArgument} (hx : x.IsOne p.kind) : Supply ps true (args.set slot x) := by
  intro kind index hadmits
  unfold ParameterList.admits at hadmits
  cases hq : ps[index]? with
  | none => simp [hq] at hadmits
  | some q =>
    obtain ⟨y, hy, hfit⟩ := h.exists_fit hq
    have hlt := (List.getElem?_eq_some_iff.mp hy).1
    have hkind : q.kind = kind := by simpa [hq] using hadmits
    by_cases hslot : slot = index
    · subst hslot
      obtain rfl : p = q := Option.some.inj (hp.symm.trans hq)
      exact ⟨x, List.getElem?_set_self hlt, hkind ▸ hx⟩
    · refine ⟨y, (List.getElem?_set_ne hslot).trans hy, hkind ▸ hfit.isOne ?_⟩
      -- The list has no pack but the one at the slot.
      by_contra hother
      have hlast := ParameterList.HasPackAt.eq_last hvalid ⟨p, hp, hpack⟩
      have hlast' := ParameterList.HasPackAt.eq_last hvalid ⟨q, hq, by simpa using hother⟩
      omega

theorem narrow_of_pack {slot : Nat} {kind : ParameterKind} {elements : List TemplateArgument}
    (h : args[slot]? = some (.pack kind elements)) {element : Nat} {x : TemplateArgument}
    (hx : elements[element]? = some x) : args.narrow element slot = args.set slot x := by
  simp [narrow, h, TemplateArgument.elements?, hx]

theorem narrow_of_isOne {slot : Nat} {kind : ParameterKind} {x : TemplateArgument}
    (h : args[slot]? = some x) (hx : x.IsOne kind) (element : Nat) :
    args.narrow element slot = args := by
  cases x with
  | pack kind elements => exact hx.elim
  | _ => simp [narrow, h, TemplateArgument.elements?]

/-- Naming one pack several times narrows it once. -/
theorem withPackElement_eq {slot : Nat} {kind : ParameterKind} {elements : List TemplateArgument}
    (h : args[slot]? = some (.pack kind elements)) {element : Nat} {x : TemplateArgument}
    (hx : elements[element]? = some x) (hone : x.IsOne kind) {packs : List Nat}
    (hpacks : ∀ i ∈ packs, i = slot) (hmem : slot ∈ packs) :
    args.withPackElement packs element = args.set slot x := by
  have hagain : ∀ (is : List Nat) (xs : Arguments), (∀ i ∈ is, i = slot) → xs[slot]? = some x →
      xs.withPackElement is element = xs := by
    intro is xs his hxs
    induction is with
    | nil => rfl
    | cons i is ih =>
      obtain ⟨rfl, his⟩ := List.forall_mem_cons.mp his
      rw [withPackElement, List.foldl_cons, narrow_of_isOne hxs hone]
      exact ih his
  cases packs with
  | nil => cases hmem
  | cons i is =>
    obtain ⟨rfl, his⟩ := List.forall_mem_cons.mp hpacks
    rw [withPackElement, List.foldl_cons, narrow_of_pack h hx]
    refine hagain is _ his (List.getElem?_set_self ?_)
    exact (List.getElem?_eq_some_iff.mp h).1

end Arguments

structure PackSelection.IsAt (slot count : Nat) (selection : PackSelection) : Prop where
  packs : ∀ i ∈ selection.packs, i = slot
  count_eq : selection.count = if slot ∈ selection.packs then some count else none

theorem PackSelection.exists_add {slot index : Nat} {kind : ParameterKind}
    {elements : List TemplateArgument} (hpack : args[slot]? = some (.pack kind elements))
    {x : TemplateArgument} (hx : args[index]? = some x)
    (hone : index ≠ slot → x.elements? = none) (span : Span) {selection : PackSelection}
    (h : selection.IsAt slot elements.length) :
    ∃ next, selection.add args span index = .ok next ∧ next.IsAt slot elements.length ∧
      (index = slot ∨ slot ∈ selection.packs → slot ∈ next.packs) := by
  obtain ⟨hpacks, hcount⟩ := h
  have hlookup : args.lookup index span = .ok x := by rw [Arguments.lookup, hx]
  by_cases hslot : index = slot
  · subst hslot
    obtain rfl : x = .pack kind elements := Option.some.inj (hx.symm.trans hpack)
    have hnext : ∀ count, IsAt index elements.length ⟨selection.packs ++ [index], count⟩ ↔
        count = some elements.length := by
      intro count
      constructor
      · intro h
        simpa using h.count_eq
      · intro h
        refine ⟨fun i hi => ?_, by simpa using h⟩
        exact (List.mem_append.mp hi).elim (hpacks i) List.mem_singleton.mp
    split at hcount
    · refine ⟨⟨selection.packs ++ [index], selection.count⟩,
        bind_eq_ok.mpr ⟨_, hlookup, ?_⟩, (hnext _).mpr hcount, by simp⟩
      simp [TemplateArgument.elements?, hcount]
    · refine ⟨⟨selection.packs ++ [index], some elements.length⟩,
        bind_eq_ok.mpr ⟨_, hlookup, ?_⟩, (hnext _).mpr rfl, by simp⟩
      simp [TemplateArgument.elements?, hcount]
  · refine ⟨selection, bind_eq_ok.mpr ⟨_, hlookup, ?_⟩, ⟨hpacks, hcount⟩, fun h => ?_⟩
    · rw [hone hslot]
    · exact h.resolve_left hslot

theorem PackSelection.exists_foldlM {slot : Nat} {kind : ParameterKind}
    {elements : List TemplateArgument} (hpack : args[slot]? = some (.pack kind elements))
    (span : Span) {uses : List Nat}
    (huses : ∀ index ∈ uses, ∃ x, args[index]? = some x ∧ (index ≠ slot → x.elements? = none))
    {selection : PackSelection} (h : selection.IsAt slot elements.length) :
    ∃ last, uses.foldlM (PackSelection.add args span) selection = .ok last ∧
      last.IsAt slot elements.length ∧
      (slot ∈ uses ∨ slot ∈ selection.packs → slot ∈ last.packs) := by
  induction uses generalizing selection with
  | nil => exact ⟨selection, rfl, h, by simp⟩
  | cons index uses ih =>
    obtain ⟨⟨x, hx, hone⟩, huses⟩ := List.forall_mem_cons.mp huses
    obtain ⟨next, hadd, hnext, hmem⟩ := exists_add hpack hx hone span h
    obtain ⟨last, hlast, hat, hmem'⟩ := ih huses hnext
    refine ⟨last, ?_, hat, fun hslot => hmem' ?_⟩
    · rw [List.foldlM_cons]
      exact bind_eq_ok.mpr ⟨next, hadd, hlast⟩
    · rcases hslot with hslot | hslot
      · rcases List.mem_cons.mp hslot with rfl | hslot
        · exact .inr (hmem (.inl rfl))
        · exact .inl hslot
      · exact .inr (hmem (.inr hslot))

namespace Arguments

/-- The repetitions of a pattern that mentions the pack are there, one for each element,
and supply what may be named inside of the expansion. -/
theorem FitAll.exists_repetitions (h : args.FitAll ps) (hvalid : ps.validate = .ok ())
    {uses : List Nat} (huses : ∀ index ∈ uses, index < ps.length)
    (hmentions : ∃ index ∈ uses, ps.HasPackAt index) (span : Span) :
    ∃ narrowed, args.repetitions uses span = .ok narrowed ∧
      ∀ xs ∈ narrowed, xs.Supply ps true := by
  obtain ⟨slot, hslot, p, hp, hisPack⟩ := hmentions
  obtain ⟨x, hx, hfit⟩ := h.exists_fit hp
  cases x with
  | type id text => exact absurd hfit.1 (by simp [hisPack])
  | value c => exact absurd hfit.1 (by simp [hisPack])
  | pack kind elements =>
    obtain ⟨_, rfl, helements⟩ := hfit
    -- A valid list has no other pack, so that no lengths are compared.
    have hsingle : ∀ index ∈ increasing uses,
        ∃ x, args[index]? = some x ∧ (index ≠ slot → x.elements? = none) := by
      intro index hindex
      obtain ⟨q, hq⟩ : ∃ q, ps[index]? = some q :=
        ⟨_, List.getElem?_eq_getElem (huses index (mem_increasing.mp hindex))⟩
      obtain ⟨y, hy, hfit⟩ := h.exists_fit hq
      refine ⟨y, hy, fun hne => ?_⟩
      cases y with
      | pack kind elements =>
        have hlast := ParameterList.HasPackAt.eq_last hvalid ⟨p, hp, hisPack⟩
        have hlast' := ParameterList.HasPackAt.eq_last hvalid ⟨q, hq, hfit.1⟩
        omega
      | _ => rfl
    have hnothing : PackSelection.IsAt slot elements.length ⟨[], none⟩ := ⟨by simp, by simp⟩
    obtain ⟨last, hlast, hat, hmem⟩ := PackSelection.exists_foldlM hx span hsingle hnothing
    have hmem := hmem (.inl (mem_increasing.mpr hslot))
    have hcount : last.count = some elements.length := by rw [hat.count_eq, if_pos hmem]
    refine ⟨(List.range elements.length).map (args.withPackElement last.packs), ?_, ?_⟩
    · refine bind_eq_ok.mpr ⟨last, hlast, ?_⟩
      rw [hcount]
    · intro xs hxs
      obtain ⟨element, helement, rfl⟩ := List.mem_map.mp hxs
      have hget := List.getElem?_eq_getElem (List.mem_range.mp helement)
      have hone := helements _ (List.mem_of_getElem? hget)
      rw [withPackElement_eq hx hget hone hat.packs hmem]
      exact h.supply_set hvalid hp hisPack hone

theorem FitAll.ready (h : args.FitAll ps) (hvalid : ps.validate = .ok ()) :
    args.Ready ps false :=
  ⟨h.supply, fun _ _ huses hmentions span => h.exists_repetitions hvalid huses hmentions span⟩

end Arguments

/-! ### Substitution succeeds -/

structure Node.Substitutable (ps : ParameterList) (node : Node) : Prop where
  succeeds : ∀ inside args, Arguments.Ready ps inside args → node.isWellKinded ps inside = true →
    Succeeds (node.substitute args)
  expands : ∀ args, Arguments.Supply ps true args → node.pattern.isWellKinded ps true = true →
    Succeeds (node.pattern.substitute args)

theorem Node.Substitutable.plain {node : Node} (hpattern : node.pattern = node)
    (h : ∀ inside args, Arguments.Ready ps inside args → node.isWellKinded ps inside = true →
      Succeeds (node.substitute args)) : node.Substitutable ps :=
  ⟨h, fun args hargs => hpattern.symm ▸ h true args hargs.ready⟩

theorem Arguments.Ready.exists_repetitions {inside : Bool} (h : args.Ready ps inside)
    {pattern : Node} (hinside : inside = false) (hin : pattern.isWellKinded ps true = true)
    (hout : pattern.isWellKinded ps false = false) (span : Span) :
    ∃ narrowed, args.repetitions pattern.parameterUses span = .ok narrowed ∧
      ∀ xs ∈ narrowed, xs.Supply ps true := by
  obtain ⟨hlt, hpack⟩ := pattern.accounts hin
  refine h.repetitions hinside _ hlt (hpack.resolve_left ?_) span
  simp [hout]

theorem succeeds_substituteArguments_cons {inside : Bool} (hargs : args.Ready ps inside)
    {node : Node} {rest : List Node} (hnode : node.Substitutable ps)
    (hrest : argumentsWellKinded ps inside rest = true → Succeeds (substituteArguments args rest))
    (h : argumentsWellKinded ps inside (node :: rest) = true) :
    Succeeds (substituteArguments args (node :: rest)) := by
  by_cases hexpansion : ∃ pattern span, node = .packExpansion pattern span
  · obtain ⟨pattern, span, rfl⟩ := hexpansion
    simp only [argumentsWellKinded, Bool.and_eq_true, Bool.not_eq_true'] at h
    obtain ⟨⟨⟨hinside, hin⟩, hout⟩, h⟩ := h
    obtain ⟨narrowed, hnarrowed, hsupply⟩ := hargs.exists_repetitions hinside hin hout span
    rw [substituteArguments, hnarrowed]
    refine Succeeds.bind (.ok narrowed) fun _ heq => ?_
    cases heq
    refine Succeeds.bind (.mapM fun xs hxs => hnode.expands xs (hsupply xs hxs) hin) fun _ _ => ?_
    exact (hrest h).bind fun _ _ => .pure _
  · have hplain : ∀ pattern span, node = .packExpansion pattern span → False :=
      fun pattern span heq => hexpansion ⟨pattern, span, heq⟩
    rw [argumentsWellKinded, Bool.and_eq_true] at h
    · rw [substituteArguments]
      · refine (hnode.succeeds inside args hargs h.1).bind fun _ _ => ?_
        exact (hrest h.2).bind fun _ _ => .pure _
      · exact hplain
    · exact hplain

theorem succeeds_substituteBases_cons {inside : Bool} (hargs : args.Ready ps inside)
    {base : BaseSpecifier} {rest : List BaseSpecifier} (hname : base.name.Substitutable ps)
    (hrest : basesWellKinded ps inside rest = true → Succeeds (substituteBases args rest))
    (h : basesWellKinded ps inside (base :: rest) = true) :
    Succeeds (substituteBases args (base :: rest)) := by
  obtain ⟨access, isVirtual, name, isExpansion, span⟩ := base
  rw [basesWellKinded, Bool.and_eq_true] at h
  obtain ⟨h, hwell⟩ := h
  have hnext : ∀ argumentLists : List Arguments,
      (∀ xs ∈ argumentLists, Succeeds (name.substitute xs)) →
      Succeeds (do
        let names ← argumentLists.mapM fun narrowed => name.substitute narrowed
        return names.map (⟨access, isVirtual, ·, false, span⟩) ++ (← substituteBases args rest)) :=
    fun _ hlists => (Succeeds.mapM hlists).bind fun _ _ => (hrest hwell).bind fun _ _ => .pure _
  rw [substituteBases]
  cases isExpansion with
  | false =>
    refine Succeeds.bind (.ok [args]) fun _ heq => ?_
    cases heq
    exact hnext [args] (by simpa using hname.succeeds inside args hargs h)
  | true =>
    simp only [if_true, Bool.and_eq_true, Bool.not_eq_true'] at h
    obtain ⟨⟨hinside, hin⟩, hout⟩ := h
    obtain ⟨narrowed, hnarrowed, hsupply⟩ := hargs.exists_repetitions hinside hin hout span
    refine Succeeds.bind ⟨narrowed, hnarrowed⟩ fun _ heq => ?_
    obtain rfl : narrowed = _ := Except.ok.inj (hnarrowed.symm.trans heq)
    exact hnext narrowed fun xs hxs => hname.succeeds true xs (hsupply xs hxs).ready hin

theorem Arguments.Ready.typeParameter {inside : Bool} (hargs : args.Ready ps inside)
    {index : Nat} (h : ps.admits inside .type index = true) (text : String) (span : Span) :
    Succeeds ((Node.typeParameter text index span).substitute args) := by
  obtain ⟨x, hx, hone⟩ := hargs.supply .type index h
  rw [Node.substitute, Arguments.lookup, hx]
  cases x with
  | type id shown => exact .ok _
  | value c => cases hone
  | pack kind elements => exact hone.elim

theorem Arguments.Ready.valueParameter {inside : Bool} (hargs : args.Ready ps inside)
    {index : Nat} (h : ps.admits inside .nonType index = true) (text : String) (span : Span) :
    Succeeds ((Node.valueParameter text index span).substitute args) := by
  obtain ⟨x, hx, hone⟩ := hargs.supply .nonType index h
  rw [Node.substitute, Arguments.lookup, hx]
  cases x with
  | type id shown => cases hone
  | value c => exact .ok _
  | pack kind elements => exact hone.elim

mutual

theorem Node.substitutable : ∀ node : Node, node.Substitutable ps
  | .literal _ _ => .plain rfl fun _ _ _ _ => .ok _
  | .name _ _ _ => .plain rfl fun _ _ _ _ => .ok _
  | .resolvedType _ _ _ => .plain rfl fun _ _ _ _ => .ok _
  | .typeParameter text _ span => .plain rfl fun _ _ hargs h => hargs.typeParameter h text span
  | .valueParameter text _ span => .plain rfl fun _ _ hargs h => hargs.valueParameter h text span
  | .unary _ operand _ => .plain rfl fun inside args hargs h =>
    (operand.substitutable.succeeds inside args hargs h).bind fun _ _ => .pure _
  | .binary _ left right _ => .plain rfl fun inside args hargs h =>
    have ⟨hl, hr⟩ := Bool.and_eq_true_iff.mp h
    (left.substitutable.succeeds inside args hargs hl).bind fun _ _ =>
      (right.substitutable.succeeds inside args hargs hr).bind fun _ _ => .pure _
  | .conditional condition whenTrue whenFalse _ => .plain rfl fun inside args hargs h =>
    have ⟨h, hf⟩ := Bool.and_eq_true_iff.mp h
    have ⟨hc, ht⟩ := Bool.and_eq_true_iff.mp h
    (condition.substitutable.succeeds inside args hargs hc).bind fun _ _ =>
      (whenTrue.substitutable.succeeds inside args hargs ht).bind fun _ _ =>
        (whenFalse.substitutable.succeeds inside args hargs hf).bind fun _ _ => .pure _
  | .paren inner _ => .plain rfl fun inside args hargs h =>
    (inner.substitutable.succeeds inside args hargs h).bind fun _ _ => .pure _
  | .typeId specifiers declarator _ => .plain rfl fun inside args hargs h =>
    have ⟨hs, hd⟩ := Bool.and_eq_true_iff.mp h
    (specifiers.succeeds_substitute inside args hargs hs).bind fun _ _ =>
      (succeeds_substituteParts declarator inside args hargs hd).bind fun _ _ => .pure _
  | .templateId _ _ arguments _ => .plain rfl fun inside args hargs h =>
    (succeeds_substituteArguments arguments inside args hargs h).bind fun _ _ => .pure _
  | .packExpansion pattern _ =>
    ⟨nofun, fun args hargs h => pattern.substitutable.succeeds true args hargs.ready h⟩
  | .base specifier => .plain rfl fun inside args hargs h =>
    (specifier.succeeds_substitute inside args hargs h).bind fun _ _ => .pure _
  | .member declaration => .plain rfl fun inside args hargs h =>
    (declaration.succeeds_substitute inside args hargs h).bind fun _ _ => .pure _
  | .staticAssert assertion => .plain rfl fun inside args hargs h =>
    (assertion.succeeds_substitute inside args hargs h).bind fun _ _ => .pure _
  | .classBody specifier => .plain rfl fun inside args hargs h =>
    (specifier.succeeds_substitute inside args hargs h).bind fun _ _ => .pure _
termination_by structural x => x

theorem Specifiers.succeeds_substitute : ∀ (specifiers : Specifiers) (inside : Bool)
    (args : Arguments), args.Ready ps inside → specifiers.isWellKinded ps inside = true →
    Succeeds (specifiers.substitute args)
  | ⟨_, named⟩, inside, args, hargs, h =>
    (succeeds_substituteNode? named inside args hargs h).bind fun _ _ => .pure _
termination_by structural x => x

theorem succeeds_substituteNode? : ∀ (node : Option Node) (inside : Bool) (args : Arguments),
    args.Ready ps inside → nodeWellKinded? ps inside node = true →
    Succeeds (substituteNode? args node)
  | none, _, _, _, _ => .ok _
  | some node, inside, args, hargs, h =>
    (node.substitutable.succeeds inside args hargs h).bind fun _ _ => .pure _
termination_by structural x => x

theorem succeeds_substituteNodes : ∀ (nodes : List Node) (inside : Bool) (args : Arguments),
    args.Ready ps inside → nodesWellKinded ps inside nodes = true →
    Succeeds (substituteNodes args nodes)
  | [], _, _, _, _ => .ok _
  | node :: rest, inside, args, hargs, h =>
    have ⟨hn, hr⟩ := Bool.and_eq_true_iff.mp h
    (node.substitutable.succeeds inside args hargs hn).bind fun _ _ =>
      (succeeds_substituteNodes rest inside args hargs hr).bind fun _ _ => .pure _
termination_by structural x => x

theorem succeeds_substituteArguments : ∀ (nodes : List Node) (inside : Bool) (args : Arguments),
    args.Ready ps inside → argumentsWellKinded ps inside nodes = true →
    Succeeds (substituteArguments args nodes)
  | [], _, _, _, _ => .ok _
  | node :: rest, inside, args, hargs, h =>
    succeeds_substituteArguments_cons hargs node.substitutable
      (succeeds_substituteArguments rest inside args hargs) h
termination_by structural x => x

theorem DeclaratorPart.succeeds_substitute : ∀ (part : DeclaratorPart) (inside : Bool)
    (args : Arguments), args.Ready ps inside → part.isWellKinded ps inside = true →
    Succeeds (part.substitute args)
  | .name _ _, _, _, _, _ => .ok _
  | .pointer _ _, _, _, _, _ => .ok _
  | .lvalueReference _, _, _, _, _ => .ok _
  | .rvalueReference _, _, _, _, _ => .ok _
  | .array bound _, inside, args, hargs, h =>
    (succeeds_substituteNode? bound inside args hargs h).bind fun _ _ => .pure _
  | .function parameters _ _ _, inside, args, hargs, h =>
    (succeeds_substituteParameters parameters inside args hargs h).bind fun _ _ => .pure _
termination_by structural x => x

theorem succeeds_substituteParts : ∀ (parts : List DeclaratorPart) (inside : Bool)
    (args : Arguments), args.Ready ps inside → partsWellKinded ps inside parts = true →
    Succeeds (substituteParts args parts)
  | [], _, _, _, _ => .ok _
  | part :: rest, inside, args, hargs, h =>
    have ⟨hp, hr⟩ := Bool.and_eq_true_iff.mp h
    (part.succeeds_substitute inside args hargs hp).bind fun _ _ =>
      (succeeds_substituteParts rest inside args hargs hr).bind fun _ _ => .pure _
termination_by structural x => x

theorem FunctionParameter.succeeds_substitute : ∀ (parameter : FunctionParameter)
    (inside : Bool) (args : Arguments), args.Ready ps inside →
    parameter.isWellKinded ps inside = true → Succeeds (parameter.substitute args)
  | ⟨specifiers, declarator, initializer, _⟩, inside, args, hargs, h =>
    have ⟨h, hi⟩ := Bool.and_eq_true_iff.mp h
    have ⟨hs, hd⟩ := Bool.and_eq_true_iff.mp h
    (specifiers.succeeds_substitute inside args hargs hs).bind fun _ _ =>
      (succeeds_substituteParts declarator inside args hargs hd).bind fun _ _ =>
        (succeeds_substituteNode? initializer inside args hargs hi).bind fun _ _ => .pure _
termination_by structural x => x

theorem succeeds_substituteParameters : ∀ (parameters : List FunctionParameter)
    (inside : Bool) (args : Arguments), args.Ready ps inside →
    parametersWellKinded ps inside parameters = true →
      Succeeds (substituteParameters args parameters)
  | [], _, _, _, _ => .ok _
  | parameter :: rest, inside, args, hargs, h =>
    have ⟨hp, hr⟩ := Bool.and_eq_true_iff.mp h
    (parameter.succeeds_substitute inside args hargs hp).bind fun _ _ =>
      (succeeds_substituteParameters rest inside args hargs hr).bind fun _ _ => .pure _
termination_by structural x => x

theorem BaseSpecifier.succeeds_substitute : ∀ (base : BaseSpecifier) (inside : Bool)
    (args : Arguments), args.Ready ps inside → base.isWellKinded ps inside = true →
    Succeeds (base.substitute args)
  | ⟨_, _, _, true, _⟩, _, _, _, h => nomatch h
  | ⟨_, _, name, false, _⟩, inside, args, hargs, h =>
    (name.substitutable.succeeds inside args hargs h).bind fun _ _ => .pure _
termination_by structural x => x

theorem succeeds_substituteBases : ∀ (bases : List BaseSpecifier) (inside : Bool)
    (args : Arguments), args.Ready ps inside → basesWellKinded ps inside bases = true →
    Succeeds (substituteBases args bases)
  | [], _, _, _, _ => .ok _
  | ⟨_, _, name, _, _⟩ :: rest, inside, args, hargs, h =>
    succeeds_substituteBases_cons hargs name.substitutable
      (succeeds_substituteBases rest inside args hargs) h
termination_by structural x => x

theorem Member.succeeds_substitute : ∀ (declaration : Member) (inside : Bool)
    (args : Arguments), args.Ready ps inside → declaration.isWellKinded ps inside = true →
    Succeeds (declaration.substitute args)
  | ⟨_, specifiers, declarator, bitWidth, initializer, _⟩, inside, args, hargs, h =>
    have ⟨h, hi⟩ := Bool.and_eq_true_iff.mp h
    have ⟨h, hw⟩ := Bool.and_eq_true_iff.mp h
    have ⟨hs, hd⟩ := Bool.and_eq_true_iff.mp h
    (specifiers.succeeds_substitute inside args hargs hs).bind fun _ _ =>
      (succeeds_substituteParts declarator inside args hargs hd).bind fun _ _ =>
        (succeeds_substituteNode? bitWidth inside args hargs hw).bind fun _ _ =>
          (succeeds_substituteNode? initializer inside args hargs hi).bind fun _ _ => .pure _
termination_by structural x => x

theorem StaticAssert.succeeds_substitute : ∀ (assertion : StaticAssert) (inside : Bool)
    (args : Arguments), args.Ready ps inside → assertion.isWellKinded ps inside = true →
    Succeeds (assertion.substitute args)
  | ⟨condition, _, _⟩, inside, args, hargs, h =>
    (condition.substitutable.succeeds inside args hargs h).bind fun _ _ => .pure _
termination_by structural x => x

theorem ClassSpecifier.succeeds_substitute : ∀ (specifier : ClassSpecifier) (inside : Bool)
    (args : Arguments), args.Ready ps inside → specifier.isWellKinded ps inside = true →
    Succeeds (specifier.substitute args)
  | ⟨_, _, bases, members, _⟩, inside, args, hargs, h =>
    have ⟨hb, hm⟩ := Bool.and_eq_true_iff.mp h
    (succeeds_substituteBases bases inside args hargs hb).bind fun _ _ =>
      (succeeds_substituteNodes members inside args hargs hm).bind fun _ _ => .pure _
termination_by structural x => x

end

namespace Session

open Analysis

/-- Whatever is bound for a template whose parameter list is valid can be substituted into
every class body that is well-kinded for the list, however deep its members nest: the base
list is expanded, and every member is rebuilt. -/
theorem succeeds_substitute_of_bindArguments {s : Session} {template : SymbolId}
    {data : TemplateData} (hentity : (s.table.symbol template).entity = .template data)
    (hvalid : data.parameters.validate = .ok ()) {supplied : List Node} {span : Span}
    {args : Arguments} (hbound : (exec (bindArguments template supplied span) s).1 = .ok args)
    {pattern : ClassSpecifier} (hpattern : pattern.isWellKinded data.parameters false = true) :
    Succeeds (substituteBases args pattern.bases) ∧
      ∀ member ∈ pattern.members, Succeeds (member.substitute args) := by
  have hfits : args.FitAll data.parameters := by
    rw [bindArguments] at hbound
    cases hsources : (exec (bindSources instantiate template supplied span) s).1 with
    | error d =>
      rw [exec_bind_error hsources] at hbound
      cases hbound
    | ok bound =>
      rw [exec_bind_ok hsources] at hbound
      cases hbound
      exact fits_of_bindSources hentity hsources
  have hready := hfits.ready hvalid
  obtain ⟨key, name, bases, members, place⟩ := pattern
  rw [ClassSpecifier.isWellKinded, Bool.and_eq_true] at hpattern
  refine ⟨succeeds_substituteBases bases false args hready hpattern.1, fun member hmember => ?_⟩
  exact member.substitutable.succeeds false args hready
    (nodesWellKinded_iff.mp hpattern.2 member hmember)

/-- A class body `struct : Box<int, Ns>... { Box<T, Ns...> a; }` behind the header
`template <class T, int... Ns>` of `Box`, with the arguments of `Box<int, 1, 2>`. -/
theorem succeeds_substitute_of_bindArguments_box :
    let s := (Operation.declareClass "Box" .structKey .synthesized).after
      ((Operation.beginTemplate [⟨"T", .type, none, false, none, .synthesized⟩,
        ⟨"Ns", .nonType, none, true, none, .synthesized⟩] .synthesized).after (start .standard))
    let int : Node := .typeId ⟨.singleton .int, none⟩ [] .synthesized
    let each : Node := .valueParameter "Ns" 1 .synthesized
    let base : Node := .templateId ⟨2⟩ "Box" [int, each] .synthesized
    let field : Node := .templateId ⟨2⟩ "Box"
      [.typeParameter "T" 0 .synthesized, .packExpansion each .synthesized] .synthesized
    let member : Node := .member ⟨.publicly, ⟨.empty, some field⟩, [.name "a" .synthesized],
      none, none, .synthesized⟩
    ∃ args, (exec (bindArguments ⟨2⟩ [int, .literal (.int 1) .synthesized,
        .literal (.int 2) .synthesized] .synthesized) s).1 = .ok args ∧
      Succeeds (substituteBases args [⟨.publicly, false, base, true, .synthesized⟩]) ∧
      Succeeds (member.substitute args) := by
  intro s int each base field member
  have hok : (exec (bindArguments ⟨2⟩ [int, .literal (.int 1) .synthesized,
    .literal (.int 2) .synthesized] .synthesized) s).1.isOk = true := by decide +kernel
  cases hbound : (exec (bindArguments ⟨2⟩ [int, .literal (.int 1) .synthesized,
      .literal (.int 2) .synthesized] .synthesized) s).1 with
  | error d =>
    rw [hbound] at hok
    cases hok
  | ok args =>
    have hsubstitute := @succeeds_substitute_of_bindArguments s ⟨2⟩ _ rfl rfl _ _ args hbound
      ⟨.structKey, "Box", [⟨.publicly, false, base, true, .synthesized⟩], [member], .synthesized⟩
      (by decide +kernel)
    exact ⟨args, rfl, hsubstitute.1, hsubstitute.2 member List.mem_cons_self⟩

end Session

end TemplateAnalysis
