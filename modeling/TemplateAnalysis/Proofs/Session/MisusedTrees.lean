import TemplateAnalysis.Proofs.Ast.Misuse
import TemplateAnalysis.Proofs.Diagnostic
import TemplateAnalysis.Proofs.Session.Fitting

/-!
# Substitution into misused trees

Arguments that are of the kinds of the parameters of a template can be substituted into a tree
unless this misuses them: what else can go wrong, such as packs of different lengths, is a
fault of the program. Narrowing a pack to an element keeps the kinds.
-/

namespace TemplateAnalysis

def TemplateArgument.IsFor (kind : ParameterKind) : TemplateArgument → Prop
  | pack _ elements => ∀ x ∈ elements, x.IsOne kind
  | x => x.IsOne kind

theorem TemplateArgument.IsOne.isFor {kind : ParameterKind} {x : TemplateArgument}
    (h : x.IsOne kind) : x.IsFor kind := by
  cases x with
  | pack _ _ => exact h.elim
  | _ => exact h

def Arguments.AreFor (kinds : List ParameterKind) (args : Arguments) : Prop :=
  ∀ (index : Nat) (x : TemplateArgument), args[index]? = some x →
    ∃ kind, kinds[index]? = some kind ∧ x.IsFor kind

/-- Whether a diagnostic reports one of some misuses, or none. -/
def Diagnostic.IsAmong (misuses : List TreeMisuse) (d : Diagnostic) : Prop :=
  ∀ m, d.misuse? = some m → ∃ t ∈ misuses, t.misuse = m

variable {kinds : List ParameterKind} {args : Arguments} {misuses : List TreeMisuse}

theorem Diagnostic.isAmong_of_isExternal {d : Diagnostic} (h : d.IsExternal) :
    d.IsAmong misuses := by
  intro m hm
  rw [h] at hm
  cases hm

theorem FailsOnly.isAmong {α : Type} {x : Except Diagnostic α}
    (h : FailsOnly x Diagnostic.IsOfArguments) : FailsOnly x (·.IsAmong misuses) :=
  h.mono fun _ hd => Diagnostic.isAmong_of_isExternal hd.isExternal

theorem Diagnostic.isAmong_internal {t : TreeMisuse} (ht : t ∈ misuses) (span : Span) :
    (Diagnostic.internal span t.misuse).IsAmong misuses := by
  rintro _ ⟨⟩
  exact ⟨t, ht, rfl⟩

namespace Arguments.AreFor

theorem narrow (h : args.AreFor kinds) (element slot : Nat) :
    (args.narrow element slot).AreFor kinds := by
  unfold Arguments.narrow
  split
  · rename_i argument hargument
    obtain ⟨elements, hpack, helement⟩ := Option.bind_eq_some_iff.mp hargument
    obtain ⟨pack, hslot, helements⟩ := Option.bind_eq_some_iff.mp hpack
    refine fun index x hx => ?_
    by_cases hindex : slot = index
    · subst hindex
      obtain ⟨kind, hkind, hfor⟩ := h slot pack hslot
      rw [List.getElem?_set_self (List.getElem?_eq_some_iff.mp hslot).1] at hx
      cases hx
      cases pack with
      | pack own elements' =>
        cases helements
        exact ⟨kind, hkind, (hfor argument (List.mem_of_getElem? helement)).isFor⟩
      | type _ _ | value _ => cases helements
    · rw [List.getElem?_set_ne hindex] at hx
      exact h index x hx
  · exact h

theorem withPackElement (h : args.AreFor kinds) (packs : List Nat) (element : Nat) :
    (args.withPackElement packs element).AreFor kinds := by
  unfold Arguments.withPackElement
  induction packs generalizing args with
  | nil => exact h
  | cons slot rest ih => exact ih (h.narrow element slot)

theorem repetitions (h : args.AreFor kinds) {uses : List Nat} {span : Span}
    {narrowed : List Arguments} (hnarrowed : args.repetitions uses span = .ok narrowed) :
    ∀ xs ∈ narrowed, xs.AreFor kinds := by
  obtain ⟨selection, _, hselection⟩ := bind_eq_ok.mp hnarrowed
  split at hselection
  · cases hselection
  · cases hselection
    intro xs hxs
    obtain ⟨element, _, rfl⟩ := List.mem_map.mp hxs
    exact h.withPackElement selection.packs element

end Arguments.AreFor

theorem getElem?_of_lookup {index : Nat} {span : Span} {x : TemplateArgument}
    (h : args.lookup index span = .ok x) : args[index]? = some x := by
  unfold Arguments.lookup at h
  split at h
  · cases h
    assumption
  · cases h

/-! ### Substitution -/

theorem failsOnly_typeParameter (hargs : args.AreFor kinds) (text : String) (index : Nat)
    (span : Span) (h : misusesOfType kinds text index ⊆ misuses) :
    FailsOnly ((Node.typeParameter text index span).substitute args) (·.IsAmong misuses) := by
  rw [Node.substitute]
  refine (failsOnly_lookup args index span).isAmong.bind fun x hx => ?_
  cases x with
  | type id shown => exact .ok _
  | pack kind elements => exact .error (Diagnostic.isAmong_of_isExternal rfl)
  | value c =>
    obtain ⟨kind, hkind, rfl⟩ := hargs index _ (getElem?_of_lookup hx)
    rw [misusesOfType, hkind] at h
    exact .error (Diagnostic.isAmong_internal (h (List.mem_singleton_self _)) span)

theorem failsOnly_valueParameter (hargs : args.AreFor kinds) (text : String) (index : Nat)
    (span : Span) (h : misusesOfValue kinds text index ⊆ misuses) :
    FailsOnly ((Node.valueParameter text index span).substitute args) (·.IsAmong misuses) := by
  rw [Node.substitute]
  refine (failsOnly_lookup args index span).isAmong.bind fun x hx => ?_
  cases x with
  | value c => exact .ok _
  | pack kind elements => exact .error (Diagnostic.isAmong_of_isExternal rfl)
  | type id shown =>
    obtain ⟨kind, hkind, rfl⟩ := hargs index _ (getElem?_of_lookup hx)
    rw [misusesOfValue, hkind] at h
    exact .error (Diagnostic.isAmong_internal (h (List.mem_singleton_self _)) span)

/-- Substitution into a node, and into its pattern, fails with the misuses in it only. -/
structure Node.FailsAmong (kinds : List ParameterKind) (misuses : List TreeMisuse) (node : Node) :
    Prop where
  substitute : ∀ args, Arguments.AreFor kinds args → node.misuses kinds ⊆ misuses →
    FailsOnly (node.substitute args) (·.IsAmong misuses)
  expand : ∀ args, Arguments.AreFor kinds args → node.pattern.misuses kinds ⊆ misuses →
    FailsOnly (node.pattern.substitute args) (·.IsAmong misuses)

theorem Node.FailsAmong.plain {node : Node} (hpattern : node.pattern = node)
    (h : ∀ args, Arguments.AreFor kinds args → node.misuses kinds ⊆ misuses →
      FailsOnly (node.substitute args) (·.IsAmong misuses)) : node.FailsAmong kinds misuses :=
  ⟨h, hpattern.symm ▸ h⟩

theorem failsOnly_substituteArguments_cons (hargs : args.AreFor kinds) {node : Node}
    {rest : List Node} (hnode : node.FailsAmong kinds misuses)
    (hrest : misusesOfArguments kinds rest ⊆ misuses →
      FailsOnly (substituteArguments args rest) (·.IsAmong misuses))
    (h : misusesOfArguments kinds (node :: rest) ⊆ misuses) :
    FailsOnly (substituteArguments args (node :: rest)) (·.IsAmong misuses) := by
  by_cases hexpansion : ∃ pattern span, node = .packExpansion pattern span
  · obtain ⟨pattern, span, rfl⟩ := hexpansion
    rw [misusesOfArguments, List.append_subset] at h
    rw [substituteArguments]
    refine (failsOnly_repetitions args _ span).isAmong.bind fun narrowed hnarrowed => ?_
    refine .bind (.mapM fun xs hxs => hnode.expand xs (hargs.repetitions hnarrowed xs hxs) h.1)
      fun _ _ => ?_
    exact (hrest h.2).bind fun _ _ => .pure _
  · have hplain : ∀ pattern span, node = .packExpansion pattern span → False :=
      fun pattern span heq => hexpansion ⟨pattern, span, heq⟩
    rw [misusesOfArguments, List.append_subset] at h
    · rw [substituteArguments]
      · exact (hnode.substitute args hargs h.1).bind fun _ _ => (hrest h.2).bind fun _ _ => .pure _
      · exact hplain
    · exact hplain

theorem failsOnly_substituteBases_cons (hargs : args.AreFor kinds) {base : BaseSpecifier}
    {rest : List BaseSpecifier} (hname : base.name.FailsAmong kinds misuses)
    (hrest : misusesOfBases kinds rest ⊆ misuses →
      FailsOnly (substituteBases args rest) (·.IsAmong misuses))
    (h : misusesOfBases kinds (base :: rest) ⊆ misuses) :
    FailsOnly (substituteBases args (base :: rest)) (·.IsAmong misuses) := by
  obtain ⟨access, isVirtual, name, isExpansion, span⟩ := base
  rw [misusesOfBases, List.append_subset] at h
  have hnext : ∀ argumentLists : List Arguments, (∀ xs ∈ argumentLists, xs.AreFor kinds) →
      FailsOnly (do
        let names ← argumentLists.mapM fun narrowed => name.substitute narrowed
        return names.map (⟨access, isVirtual, ·, false, span⟩) ++ (← substituteBases args rest))
        (·.IsAmong misuses) :=
    fun _ hlists => .bind (.mapM fun xs hxs => hname.substitute xs (hlists xs hxs) h.1) fun _ _ =>
      (hrest h.2).bind fun _ _ => .pure _
  rw [substituteBases]
  split
  · exact (failsOnly_repetitions args _ span).isAmong.bind fun narrowed hnarrowed =>
      hnext narrowed (hargs.repetitions hnarrowed)
  · refine .bind (.ok [args]) fun lists hlists => hnext lists ?_
    cases hlists
    simpa using hargs

mutual

theorem Node.failsAmong : ∀ node : Node, node.FailsAmong kinds misuses
  | .literal _ _ => .plain rfl fun _ _ _ => .ok _
  | .name _ _ _ => .plain rfl fun _ _ _ => .ok _
  | .resolvedType _ _ _ => .plain rfl fun _ _ _ => .ok _
  | .typeParameter text index span => .plain rfl fun _ hargs h =>
    failsOnly_typeParameter hargs text index span h
  | .valueParameter text index span => .plain rfl fun _ hargs h =>
    failsOnly_valueParameter hargs text index span h
  | .unary _ operand _ => .plain rfl fun args hargs h =>
    (operand.failsAmong.substitute args hargs h).bind fun _ _ => .pure _
  | .binary _ left right _ => .plain rfl fun args hargs h =>
    have ⟨hl, hr⟩ := List.append_subset.mp h
    (left.failsAmong.substitute args hargs hl).bind fun _ _ =>
      (right.failsAmong.substitute args hargs hr).bind fun _ _ => .pure _
  | .conditional condition whenTrue whenFalse _ => .plain rfl fun args hargs h =>
    have ⟨h, hf⟩ := List.append_subset.mp h
    have ⟨hc, ht⟩ := List.append_subset.mp h
    (condition.failsAmong.substitute args hargs hc).bind fun _ _ =>
      (whenTrue.failsAmong.substitute args hargs ht).bind fun _ _ =>
        (whenFalse.failsAmong.substitute args hargs hf).bind fun _ _ => .pure _
  | .paren inner _ => .plain rfl fun args hargs h =>
    (inner.failsAmong.substitute args hargs h).bind fun _ _ => .pure _
  | .typeId specifiers declarator _ => .plain rfl fun args hargs h =>
    have ⟨hs, hd⟩ := List.append_subset.mp h
    (specifiers.failsOnly_substitute args hargs hs).bind fun _ _ =>
      (failsOnly_substituteParts declarator args hargs hd).bind fun _ _ => .pure _
  | .templateId _ _ arguments _ => .plain rfl fun args hargs h =>
    (failsOnly_substituteArguments arguments args hargs h).bind fun _ _ => .pure _
  | .packExpansion pattern span =>
    ⟨fun _ _ h => .error (Diagnostic.isAmong_internal (h (List.mem_singleton_self _)) span),
      fun args hargs h => pattern.failsAmong.substitute args hargs h⟩
  | .base specifier => .plain rfl fun args hargs h =>
    (specifier.failsOnly_substitute args hargs h).bind fun _ _ => .pure _
  | .member declaration => .plain rfl fun args hargs h =>
    (declaration.failsOnly_substitute args hargs h).bind fun _ _ => .pure _
  | .staticAssert assertion => .plain rfl fun args hargs h =>
    (assertion.failsOnly_substitute args hargs h).bind fun _ _ => .pure _
  | .classBody specifier => .plain rfl fun args hargs h =>
    (specifier.failsOnly_substitute args hargs h).bind fun _ _ => .pure _
termination_by structural x => x

theorem Specifiers.failsOnly_substitute : ∀ (specifiers : Specifiers) (args : Arguments),
    args.AreFor kinds → specifiers.misuses kinds ⊆ misuses →
    FailsOnly (specifiers.substitute args) (·.IsAmong misuses)
  | ⟨_, named⟩, args, hargs, h =>
    (failsOnly_substituteNode? named args hargs h).bind fun _ _ => .pure _
termination_by structural x => x

theorem failsOnly_substituteNode? : ∀ (node : Option Node) (args : Arguments),
    args.AreFor kinds → misusesOfNode? kinds node ⊆ misuses →
    FailsOnly (substituteNode? args node) (·.IsAmong misuses)
  | none, _, _, _ => .ok _
  | some node, args, hargs, h =>
    (node.failsAmong.substitute args hargs h).bind fun _ _ => .pure _
termination_by structural x => x

theorem failsOnly_substituteNodes : ∀ (nodes : List Node) (args : Arguments),
    args.AreFor kinds → misusesOfNodes kinds nodes ⊆ misuses →
    FailsOnly (substituteNodes args nodes) (·.IsAmong misuses)
  | [], _, _, _ => .ok _
  | node :: rest, args, hargs, h =>
    have ⟨hn, hr⟩ := List.append_subset.mp h
    (node.failsAmong.substitute args hargs hn).bind fun _ _ =>
      (failsOnly_substituteNodes rest args hargs hr).bind fun _ _ => .pure _
termination_by structural x => x

theorem failsOnly_substituteArguments : ∀ (nodes : List Node) (args : Arguments),
    args.AreFor kinds → misusesOfArguments kinds nodes ⊆ misuses →
    FailsOnly (substituteArguments args nodes) (·.IsAmong misuses)
  | [], _, _, _ => .ok _
  | node :: rest, args, hargs, h =>
    failsOnly_substituteArguments_cons hargs node.failsAmong
      (failsOnly_substituteArguments rest args hargs) h
termination_by structural x => x

theorem DeclaratorPart.failsOnly_substitute : ∀ (part : DeclaratorPart) (args : Arguments),
    args.AreFor kinds → part.misuses kinds ⊆ misuses →
    FailsOnly (part.substitute args) (·.IsAmong misuses)
  | .name _ _, _, _, _ => .ok _
  | .pointer _ _, _, _, _ => .ok _
  | .lvalueReference _, _, _, _ => .ok _
  | .rvalueReference _, _, _, _ => .ok _
  | .array bound _, args, hargs, h =>
    (failsOnly_substituteNode? bound args hargs h).bind fun _ _ => .pure _
  | .function parameters _ _ _, args, hargs, h =>
    (failsOnly_substituteParameters parameters args hargs h).bind fun _ _ => .pure _
termination_by structural x => x

theorem failsOnly_substituteParts : ∀ (parts : List DeclaratorPart) (args : Arguments),
    args.AreFor kinds → misusesOfParts kinds parts ⊆ misuses →
    FailsOnly (substituteParts args parts) (·.IsAmong misuses)
  | [], _, _, _ => .ok _
  | part :: rest, args, hargs, h =>
    have ⟨hp, hr⟩ := List.append_subset.mp h
    (part.failsOnly_substitute args hargs hp).bind fun _ _ =>
      (failsOnly_substituteParts rest args hargs hr).bind fun _ _ => .pure _
termination_by structural x => x

theorem FunctionParameter.failsOnly_substitute : ∀ (parameter : FunctionParameter)
    (args : Arguments), args.AreFor kinds → parameter.misuses kinds ⊆ misuses →
    FailsOnly (parameter.substitute args) (·.IsAmong misuses)
  | ⟨specifiers, declarator, initializer, _⟩, args, hargs, h =>
    have ⟨h, hi⟩ := List.append_subset.mp h
    have ⟨hs, hd⟩ := List.append_subset.mp h
    (specifiers.failsOnly_substitute args hargs hs).bind fun _ _ =>
      (failsOnly_substituteParts declarator args hargs hd).bind fun _ _ =>
        (failsOnly_substituteNode? initializer args hargs hi).bind fun _ _ => .pure _
termination_by structural x => x

theorem failsOnly_substituteParameters : ∀ (parameters : List FunctionParameter)
    (args : Arguments), args.AreFor kinds → misusesOfParameters kinds parameters ⊆ misuses →
    FailsOnly (substituteParameters args parameters) (·.IsAmong misuses)
  | [], _, _, _ => .ok _
  | parameter :: rest, args, hargs, h =>
    have ⟨hp, hr⟩ := List.append_subset.mp h
    (parameter.failsOnly_substitute args hargs hp).bind fun _ _ =>
      (failsOnly_substituteParameters rest args hargs hr).bind fun _ _ => .pure _
termination_by structural x => x

theorem BaseSpecifier.failsOnly_substitute : ∀ (base : BaseSpecifier) (args : Arguments),
    args.AreFor kinds → base.misuses kinds ⊆ misuses →
    FailsOnly (base.substitute args) (·.IsAmong misuses)
  | ⟨_, _, _, true, span⟩, _, _, h =>
    .error (Diagnostic.isAmong_internal (h (List.mem_singleton_self _)) span)
  | ⟨_, _, name, false, _⟩, args, hargs, h =>
    (name.failsAmong.substitute args hargs h).bind fun _ _ => .pure _
termination_by structural x => x

theorem failsOnly_substituteBases : ∀ (bases : List BaseSpecifier) (args : Arguments),
    args.AreFor kinds → misusesOfBases kinds bases ⊆ misuses →
    FailsOnly (substituteBases args bases) (·.IsAmong misuses)
  | [], _, _, _ => .ok _
  | ⟨_, _, name, _, _⟩ :: rest, args, hargs, h =>
    failsOnly_substituteBases_cons hargs name.failsAmong
      (failsOnly_substituteBases rest args hargs) h
termination_by structural x => x

theorem Member.failsOnly_substitute : ∀ (declaration : Member) (args : Arguments),
    args.AreFor kinds → declaration.misuses kinds ⊆ misuses →
    FailsOnly (declaration.substitute args) (·.IsAmong misuses)
  | ⟨_, specifiers, declarator, bitWidth, initializer, _⟩, args, hargs, h =>
    have ⟨h, hi⟩ := List.append_subset.mp h
    have ⟨h, hw⟩ := List.append_subset.mp h
    have ⟨hs, hd⟩ := List.append_subset.mp h
    (specifiers.failsOnly_substitute args hargs hs).bind fun _ _ =>
      (failsOnly_substituteParts declarator args hargs hd).bind fun _ _ =>
        (failsOnly_substituteNode? bitWidth args hargs hw).bind fun _ _ =>
          (failsOnly_substituteNode? initializer args hargs hi).bind fun _ _ => .pure _
termination_by structural x => x

theorem StaticAssert.failsOnly_substitute : ∀ (assertion : StaticAssert) (args : Arguments),
    args.AreFor kinds → assertion.misuses kinds ⊆ misuses →
    FailsOnly (assertion.substitute args) (·.IsAmong misuses)
  | ⟨condition, _, _⟩, args, hargs, h =>
    (condition.failsAmong.substitute args hargs h).bind fun _ _ => .pure _
termination_by structural x => x

theorem ClassSpecifier.failsOnly_substitute : ∀ (specifier : ClassSpecifier) (args : Arguments),
    args.AreFor kinds → specifier.misuses kinds ⊆ misuses →
    FailsOnly (specifier.substitute args) (·.IsAmong misuses)
  | ⟨_, _, bases, members, _⟩, args, hargs, h =>
    have ⟨hb, hm⟩ := List.append_subset.mp h
    (failsOnly_substituteBases bases args hargs hb).bind fun _ _ =>
      (failsOnly_substituteNodes members args hargs hm).bind fun _ _ => .pure _
termination_by structural x => x

end

end TemplateAnalysis
