import TemplateAnalysis.Proofs.Ast.ReadyTrees
import TemplateAnalysis.Proofs.Session.MisusedTrees

/-!
# Expansions inside of expansions

An expansion narrows every pack that its pattern names, also those that are named inside of an
inner expansion only. For the inner expansion no pack is left then, so it cannot be repeated.
A pattern with an inner expansion is expanded only if all packs in it are empty, so that it is
never substituted.
-/

namespace TemplateAnalysis

namespace Arguments

variable {args : Arguments} {uses : List Nat} {n : Nat}

/-- There are packs among the arguments at some positions, and all of them have one length. -/
structure HasPacks (args : Arguments) (uses : List Nat) (n : Nat) : Prop where
  bound : ∀ slot ∈ uses, slot < args.length
  usesPack : ∃ slot ∈ uses, (args.elementsAt? slot).isSome = true
  count : ∀ slot ∈ uses, ∀ elements, args.elementsAt? slot = some elements → elements.length = n

theorem Repeats.hasPacks {lists : List Arguments} (h : args.Repeats uses lists) :
    args.HasPacks uses lists.length :=
  ⟨h.bound, h.usesPack, h.count⟩

theorem exists_add {index : Nat} (hbound : index < args.length)
    (hcount : ∀ elements, args.elementsAt? index = some elements → elements.length = n)
    (span : Span) {selection : PackSelection} (hselection : ∀ m ∈ selection.count, m = n) :
    ∃ next, selection.add args span index = .ok next ∧ ∀ m ∈ next.count, m = n := by
  have hget := List.getElem?_eq_getElem hbound
  have hlookup : args.lookup index span = .ok args[index] := by rw [lookup, hget]
  rw [elementsAt?, hget, Option.bind_some] at hcount
  cases helements : args[index].elements? with
  | none =>
    refine ⟨selection, bind_eq_ok.mpr ⟨_, hlookup, ?_⟩, hselection⟩
    rw [helements]
  | some elements =>
    obtain rfl := hcount elements helements
    cases hselected : selection.count with
    | none =>
      refine ⟨⟨selection.packs ++ [index], some elements.length⟩,
        bind_eq_ok.mpr ⟨_, hlookup, ?_⟩, by simp⟩
      simp only [helements, hselected]
    | some m =>
      obtain rfl := hselection m hselected
      refine ⟨⟨selection.packs ++ [index], some elements.length⟩,
        bind_eq_ok.mpr ⟨_, hlookup, ?_⟩, by simp⟩
      simp [helements, hselected]

theorem succeeds_foldlM_add (span : Span) {indices : List Nat}
    (hbound : ∀ slot ∈ indices, slot < args.length)
    (hcount : ∀ slot ∈ indices, ∀ elements, args.elementsAt? slot = some elements →
      elements.length = n) {selection : PackSelection}
    (hselection : ∀ m ∈ selection.count, m = n) :
    Succeeds (indices.foldlM (PackSelection.add args span) selection) := by
  induction indices generalizing selection with
  | nil => exact .pure selection
  | cons index rest ih =>
    obtain ⟨hindex, hbound⟩ := List.forall_mem_cons.mp hbound
    obtain ⟨helements, hcount⟩ := List.forall_mem_cons.mp hcount
    obtain ⟨next, hnext, hselected⟩ := exists_add hindex helements span hselection
    rw [List.foldlM_cons, hnext]
    exact ih hbound hcount hselected

theorem HasPacks.succeeds_repetitions (h : args.HasPacks uses n) (span : Span) :
    Succeeds (args.repetitions uses span) := by
  obtain ⟨selection, hselection⟩ :
      Succeeds ((increasing uses).foldlM (PackSelection.add args span) ⟨[], none⟩) :=
    succeeds_foldlM_add span (fun slot hslot => h.bound slot (mem_increasing.mp hslot))
      (fun slot hslot => h.count slot (mem_increasing.mp hslot)) nofun
  have hstart : args.Selects [] ⟨[], none⟩ := ⟨by simp, by simp, .nil, by simp, by simp⟩
  have hselects := hstart.foldlM (nodup_increasing uses) hselection
  obtain ⟨slot, hslot, hpack⟩ := h.usesPack
  obtain ⟨elements, helements⟩ := Option.isSome_iff_exists.mp hpack
  have hcount := hselects.count slot (mem_increasing.mpr hslot) elements helements
  refine Succeeds.bind ⟨selection, hselection⟩ fun selected hselected => ?_
  obtain rfl : selection = selected := Except.ok.inj (hselection.symm.trans hselected)
  rw [hcount]
  exact .ok _

end Arguments

/-- Every dependent name in a tree is bound to what is of its kind: an argument, or a pack of
arguments. -/
def Node.IsBoundBy (node : Node) (args : Arguments) : Prop :=
  ∀ name ∈ node.nodes, ∀ kind index, name.parameter? = some (kind, index) →
    ∃ x, args[index]? = some x ∧ x.IsFor kind

variable {args : Arguments} {pattern : Node} {lists : List Arguments} {k : Nat} {list : Arguments}

theorem TemplateArgument.IsFor.isOne {kind : ParameterKind} {x : TemplateArgument}
    (h : x.IsFor kind) (hx : x.elements? = none) : x.IsOne kind := by
  cases x with
  | pack _ _ => cases hx
  | _ => exact h

/-- In a repetition every name of the pattern is bound to one argument, of its kind. -/
theorem Arguments.Repeats.exists_isOne (h : args.Repeats pattern.parameterUses lists)
    (hbound : pattern.IsBoundBy args) (hlist : lists[k]? = some list) {name : Node}
    (hname : name ∈ pattern.nodes) {kind : ParameterKind} {index : Nat}
    (hparameter : name.parameter? = some (kind, index)) :
    ∃ x, list[index]? = some x ∧ x.IsOne kind := by
  have huses : index ∈ pattern.parameterUses :=
    Node.mem_parameterUses.mpr ⟨name, hname, kind, hparameter⟩
  obtain ⟨x, hx, hfor⟩ := hbound name hname kind index hparameter
  have hat : args.elementsAt? index = x.elements? := by
    rw [Arguments.elementsAt?, hx, Option.bind_some]
  cases helements : x.elements? with
  | none =>
    rw [helements] at hat
    exact ⟨x, (h.other k list hlist index fun _ => hat).trans hx, hfor.isOne helements⟩
  | some elements =>
    rw [helements] at hat
    cases x with
    | type _ _ => cases helements
    | value _ => cases helements
    | pack _ _ =>
      cases helements
      have hk : k < elements.length := by
        rw [h.count index huses elements hat]
        exact (List.getElem?_eq_some_iff.mp hlist).1
      have hget := List.getElem?_eq_getElem hk
      refine ⟨elements[k], ?_, hfor _ (List.mem_of_getElem? hget)⟩
      rw [h.pack k list hlist index huses elements hat, hget]

theorem Arguments.Repeats.hasNoPack (h : args.Repeats pattern.parameterUses lists)
    (hbound : pattern.IsBoundBy args) (hlist : lists[k]? = some list) :
    list.HasNoPack pattern.parameterUses := by
  intro slot hslot
  obtain ⟨name, hname, kind, hparameter⟩ := Node.mem_parameterUses.mp hslot
  obtain ⟨x, hx, hone⟩ := h.exists_isOne hbound hlist hname hparameter
  rw [Arguments.elementsAt?, hx, Option.bind_some]
  cases x with
  | pack _ _ => exact hone.elim
  | _ => rfl

/-- In a repetition a node of the pattern is ready unless it had to be repeated once more. -/
theorem Arguments.Repeats.isReady_iff (h : args.Repeats pattern.parameterUses lists)
    (hbound : pattern.IsBoundBy args) (hlist : lists[k]? = some list) {node : Node}
    (hnode : node ∈ pattern.nodes) : node.IsReady list ↔ node.isRepeated = false := by
  refine ⟨fun hready => hready.isRepeated, fun hrepeated => ⟨hrepeated, ?_, ?_⟩⟩
  · intro index hparameter
    obtain ⟨x, hx, hone⟩ := h.exists_isOne hbound hlist hnode hparameter
    cases x with
    | type id text => exact ⟨id, text, hx⟩
    | value _ => cases hone
    | pack _ _ => exact hone.elim
  · intro index hparameter
    obtain ⟨x, hx, hone⟩ := h.exists_isOne hbound hlist hnode hparameter
    cases x with
    | value value => exact ⟨value, hx⟩
    | type _ _ => cases hone
    | pack _ _ => exact hone.elim

theorem Arguments.Repeats.succeeds_substitute_iff (h : args.Repeats pattern.parameterUses lists)
    (hbound : pattern.IsBoundBy args) (hlist : lists[k]? = some list) :
    Succeeds (pattern.substitute list) ↔ ∀ node ∈ pattern.nodes, node.isRepeated = false := by
  have hasks := pattern.asks_substitute (h.hasNoPack hbound hlist)
  exact hasks.trans (forall₂_congr fun node hnode => h.isReady_iff hbound hlist hnode)

theorem Arguments.Repeats.succeeds_mapM_iff (h : args.Repeats pattern.parameterUses lists)
    (hbound : pattern.IsBoundBy args) :
    Succeeds (lists.mapM fun list => pattern.substitute list) ↔
      lists.length = 0 ∨ ∀ node ∈ pattern.nodes, node.isRepeated = false := by
  cases hlists : lists with
  | nil => exact iff_of_true (.pure _) (.inl rfl)
  | cons first rest =>
    rw [← hlists]
    constructor
    · rintro ⟨results, hresults⟩
      rw [mapM_eq_ok, hlists, List.forall₂_cons_left_iff] at hresults
      obtain ⟨r, -, hr, -⟩ := hresults
      exact .inr ((h.succeeds_substitute_iff hbound (k := 0) (by rw [hlists]; rfl)).mp ⟨r, hr⟩)
    · rintro (hempty | hplain)
      · simp [hlists] at hempty
      · apply Succeeds.mapM
        intro list hmem
        obtain ⟨k, hk⟩ := List.mem_iff_getElem?.mp hmem
        exact (h.succeeds_substitute_iff hbound hk).mpr hplain

/-- Where the names of a pattern are bound to arguments of their kinds, its expansion succeeds
exactly if it mentions packs, inside of inner expansions or outside, all of one length, and
either they are empty or the pattern has no inner expansions. Then it gives one tree per
element: all packs are bound to their elements at one position in it. -/
theorem succeeds_expand_iff (pattern : Node) (args : Arguments) (span : Span)
    (hbound : pattern.IsBoundBy args) :
    (Succeeds (pattern.expand args span) ↔ ∃ n, args.HasPacks pattern.parameterUses n ∧
      (n = 0 ∨ ∀ node ∈ pattern.nodes, node.isRepeated = false)) ∧
    ∀ results, pattern.expand args span = .ok results →
      ∃ lists, args.Repeats pattern.parameterUses lists ∧
        List.Forall₂ (fun list r => pattern.substitute list = .ok r) lists results := by
  refine ⟨⟨?_, ?_⟩, ?_⟩
  · rintro ⟨results, hresults⟩
    obtain ⟨lists, hlists, hresults⟩ := bind_eq_ok.mp hresults
    have hrepeats := Arguments.repeats_of_repetitions hlists
    exact ⟨lists.length, hrepeats.hasPacks, (hrepeats.succeeds_mapM_iff hbound).mp ⟨_, hresults⟩⟩
  · rintro ⟨n, hpacks, hplain⟩
    obtain ⟨lists, hlists⟩ := hpacks.succeeds_repetitions span
    have hrepeats := Arguments.repeats_of_repetitions hlists
    obtain ⟨slot, hslot, hpack⟩ := hpacks.usesPack
    obtain ⟨elements, helements⟩ := Option.isSome_iff_exists.mp hpack
    have hn : lists.length = n :=
      (hrepeats.count slot hslot elements helements).symm.trans
        (hpacks.count slot hslot elements helements)
    refine Succeeds.bind ⟨lists, hlists⟩ fun lists' hlists' => ?_
    obtain rfl : lists = lists' := Except.ok.inj (hlists.symm.trans hlists')
    exact (hrepeats.succeeds_mapM_iff hbound).mpr (hn ▸ hplain)
  · intro results hresults
    obtain ⟨lists, hlists, hresults⟩ := bind_eq_ok.mp hresults
    exact ⟨lists, Arguments.repeats_of_repetitions hlists, mapM_eq_ok.mp hresults⟩

/-- The pattern `Base<Ts, Tup<Ts...>>` is not expanded for the pack `int, double`: it names one
pack, whose two elements it could be repeated for, and an inner expansion. -/
theorem not_succeeds_expand_base :
    let ts : Node := .typeParameter "Ts" 0 .synthesized
    let tup : Node := .templateId ⟨0⟩ "Tup" [.packExpansion ts .synthesized] .synthesized
    let pattern : Node := .templateId ⟨1⟩ "Base" [ts, tup] .synthesized
    let args : Arguments := [.pack .type [.type ⟨0⟩ "int", .type ⟨1⟩ "double"]]
    pattern.IsBoundBy args ∧ args.HasPacks pattern.parameterUses 2 ∧
      ¬ Succeeds (pattern.expand args .synthesized) := by
  intro ts tup pattern args
  have hnodes : pattern.nodes = [pattern, ts, tup, .packExpansion ts .synthesized, ts] := rfl
  have hbound : pattern.IsBoundBy args := by
    intro name hname kind index hparameter
    rw [hnodes] at hname
    have hts : ∃ x, args[0]? = some x ∧ x.IsFor .type :=
      ⟨_, rfl, by simp [TemplateArgument.IsFor, TemplateArgument.IsOne]⟩
    simp only [List.mem_cons, List.not_mem_nil, or_false] at hname
    rcases hname with rfl | rfl | rfl | rfl | rfl <;> cases hparameter <;> exact hts
  have hpacks : args.HasPacks pattern.parameterUses 2 := by
    have huses : ∀ slot ∈ pattern.parameterUses, slot = 0 := by
      intro slot hslot
      have hslot : slot ∈ [0, 0] := hslot
      simpa using hslot
    refine ⟨fun slot hslot => ?_, ⟨0, List.mem_cons_self, rfl⟩, fun slot hslot elements h => ?_⟩
    · rw [huses slot hslot]
      exact Nat.zero_lt_one
    · rw [huses slot hslot] at h
      cases h
      rfl
  refine ⟨hbound, hpacks, fun hsucceeds => ?_⟩
  obtain ⟨n, hn, hplain⟩ := (succeeds_expand_iff pattern args .synthesized hbound).1.mp hsucceeds
  rcases hplain with rfl | hplain
  · exact absurd (hn.count 0 List.mem_cons_self _ rfl) (by decide)
  · cases hplain (.packExpansion ts .synthesized) (by simp [hnodes])

end TemplateAnalysis
