import Mathlib.Data.List.Forall2
import Mathlib.Data.List.Nodup
import TemplateAnalysis.Ast.Substitution
import TemplateAnalysis.Proofs.Outcome

/-!
# Expansion of packs

A list that holds an expansion gets one entry for each element of the packs that its pattern
uses, in the order of the elements and at the place of the expansion. `Arguments.Repeats`
says which arguments the pattern gets each time, without a word on how they are computed:
all packs that it uses are narrowed to their elements at one position, and every other
argument is what it was.
-/

namespace TemplateAnalysis

/-! ### Strictly increasing lists -/

theorem pairwise_insertIncreasing {n : Nat} {ns : List Nat} (h : ns.Pairwise (· < ·)) :
    (insertIncreasing n ns).Pairwise (· < ·) := by
  induction ns with
  | nil => exact List.pairwise_singleton _ _
  | cons m rest ih =>
    rw [List.pairwise_cons] at h
    rw [insertIncreasing]
    split
    · next hlt =>
      apply List.pairwise_cons.mpr
      refine ⟨fun k hk => ?_, List.pairwise_cons.mpr h⟩
      rcases List.mem_cons.mp hk with rfl | hk
      · exact hlt
      · exact Nat.lt_trans hlt (h.1 k hk)
    · split
      · exact List.pairwise_cons.mpr h
      · apply List.pairwise_cons.mpr
        refine ⟨fun k hk => ?_, ih h.2⟩
        rcases mem_insertIncreasing.mp hk with rfl | hk
        · omega
        · exact h.1 k hk

theorem nodup_increasing (ns : List Nat) : (increasing ns).Nodup := by
  have hpairwise : (increasing ns).Pairwise (· < ·) := by
    induction ns with
    | nil => exact List.Pairwise.nil
    | cons n rest ih => exact pairwise_insertIncreasing ih
  exact hpairwise.imp Nat.ne_of_lt

/-! ### Repetitions -/

namespace Arguments

variable {args : Arguments}

def elementsAt? (args : Arguments) (slot : Nat) : Option Arguments := args[slot]?.bind (·.elements?)

/-- The arguments for the repetitions of a pattern that uses some parameters. -/
structure Repeats (args : Arguments) (uses : List Nat) (lists : List Arguments) : Prop where
  bound : ∀ slot ∈ uses, slot < args.length
  /-- A pattern that uses no pack is not repeated, not even never. -/
  usesPack : ∃ slot ∈ uses, (args.elementsAt? slot).isSome = true
  /-- Every pack has one element for each repetition. -/
  count : ∀ slot ∈ uses, ∀ elements, args.elementsAt? slot = some elements →
    elements.length = lists.length
  pack : ∀ (k : Nat) (list : Arguments), lists[k]? = some list → ∀ slot ∈ uses, ∀ elements,
    args.elementsAt? slot = some elements → list[slot]? = elements[k]?
  other : ∀ (k : Nat) (list : Arguments), lists[k]? = some list → ∀ slot,
    (slot ∈ uses → args.elementsAt? slot = none) → list[slot]? = args[slot]?

theorem getElem?_narrow (args : Arguments) (k slot j : Nat) :
    (args.narrow k slot)[j]? =
      if j = slot then ((args.elementsAt? slot).bind (·[k]?)).or args[j]? else args[j]? := by
  unfold narrow elementsAt?
  split
  · next argument hargument =>
    rw [hargument, List.getElem?_set]
    have hslot : slot < args.length := by
      by_contra hslot
      rw [List.getElem?_eq_none (Nat.le_of_not_lt hslot)] at hargument
      cases hargument
    by_cases hj : slot = j
    · simp [hj, hj ▸ hslot]
    · simp [hj, Ne.symm hj]
  · next hnone =>
    rw [hnone]
    simp

/-- Packs at different positions are narrowed independently of each other. -/
theorem getElem?_withPackElement {packs : List Nat} (hpacks : packs.Nodup) (args : Arguments)
    (k j : Nat) : (args.withPackElement packs k)[j]? =
      if j ∈ packs then ((args.elementsAt? j).bind (·[k]?)).or args[j]? else args[j]? := by
  unfold withPackElement
  induction packs generalizing args with
  | nil => simp
  | cons slot rest ih =>
    rw [List.nodup_cons] at hpacks
    rw [List.foldl_cons, ih hpacks.2]
    by_cases hj : j = slot
    · subst hj
      simp [hpacks.1, getElem?_narrow]
    · simp [hj, getElem?_narrow, elementsAt?]

structure Selects (args : Arguments) (uses : List Nat) (selection : PackSelection) : Prop where
  bound : ∀ slot ∈ uses, slot < args.length
  packs : ∀ slot, slot ∈ selection.packs ↔ slot ∈ uses ∧ (args.elementsAt? slot).isSome = true
  nodup : selection.packs.Nodup
  count : ∀ slot ∈ uses, ∀ elements, args.elementsAt? slot = some elements →
    selection.count = some elements.length
  isSome : selection.count.isSome = true → selection.packs ≠ []

theorem elementsAt?_of_lookup {index : Nat} {span : Span} {argument : TemplateArgument}
    (h : args.lookup index span = .ok argument) :
    index < args.length ∧ args.elementsAt? index = argument.elements? := by
  unfold lookup at h
  split at h
  · next found hfound =>
    cases h
    exact ⟨(List.getElem?_eq_some_iff.mp hfound).1, by rw [elementsAt?, hfound, Option.bind_some]⟩
  · cases h

theorem Selects.plain {uses : List Nat} {selection : PackSelection} {index : Nat}
    (h : args.Selects uses selection) (hbound : index < args.length)
    (hnone : args.elementsAt? index = none) : args.Selects (uses ++ [index]) selection where
  bound := List.forall_mem_append.mpr ⟨h.bound, by simpa using hbound⟩
  packs slot := by
    rw [h.packs, List.mem_append, List.mem_singleton]
    grind
  nodup := h.nodup
  count := List.forall_mem_append.mpr ⟨h.count, by simp [hnone]⟩
  isSome := h.isSome

theorem Selects.pack {uses : List Nat} {selection : PackSelection} {index : Nat}
    {elements : Arguments} (h : args.Selects uses selection) (hindex : index ∉ uses)
    (hbound : index < args.length) (helements : args.elementsAt? index = some elements)
    (hcount : ∀ n, selection.count = some n → n = elements.length) :
    args.Selects (uses ++ [index]) ⟨selection.packs ++ [index], some elements.length⟩ where
  bound := List.forall_mem_append.mpr ⟨h.bound, by simpa using hbound⟩
  packs slot := by
    rw [List.mem_append, List.mem_append, h.packs, List.mem_singleton]
    grind
  nodup := by
    rw [List.nodup_append]
    refine ⟨h.nodup, List.nodup_singleton _, fun slot hslot other hother heq => ?_⟩
    rw [List.mem_singleton.mp hother] at heq
    exact hindex (heq ▸ ((h.packs slot).mp hslot).1)
  count := by
    refine List.forall_mem_append.mpr ⟨fun slot hslot others hothers => ?_, by simp [helements]⟩
    rw [hcount _ (h.count slot hslot others hothers)]
  isSome _ := by simp

theorem Selects.add {uses : List Nat} {selection next : PackSelection} {span : Span} {index : Nat}
    (h : args.Selects uses selection) (hindex : index ∉ uses)
    (hadd : selection.add args span index = .ok next) : args.Selects (uses ++ [index]) next := by
  unfold PackSelection.add at hadd
  obtain ⟨argument, hargument, hadd⟩ := bind_eq_ok.mp hadd
  obtain ⟨hbound, hat⟩ := elementsAt?_of_lookup hargument
  cases helements : argument.elements? with
  | none =>
    rw [helements] at hadd hat
    cases hadd
    exact h.plain hbound hat
  | some elements =>
    rw [helements] at hadd hat
    cases hcount : selection.count with
    | none =>
      rw [hcount] at hadd
      cases hadd
      exact h.pack hindex hbound hat (by simp [hcount])
    | some n =>
      simp only [hcount] at hadd
      split at hadd
      · next heq =>
        subst heq
        cases hadd
        exact h.pack hindex hbound hat (by simp [hcount])
      · cases hadd

theorem Selects.foldlM {span : Span} {rest : List Nat} : ∀ {uses : List Nat}
    {selection next : PackSelection}, args.Selects uses selection → (uses ++ rest).Nodup →
    rest.foldlM (PackSelection.add args span) selection = .ok next →
    args.Selects (uses ++ rest) next := by
  induction rest with
  | nil =>
    intro uses selection next h _ hnext
    cases hnext
    simpa using h
  | cons index rest ih =>
    intro uses selection next h hnodup hnext
    rw [List.foldlM_cons] at hnext
    obtain ⟨added, hadded, hnext⟩ := bind_eq_ok.mp hnext
    have hindex : index ∉ uses := fun hmem =>
      (List.nodup_append.mp hnodup).2.2 index hmem index List.mem_cons_self rfl
    rw [List.append_cons] at hnodup ⊢
    exact ih (h.add hindex hadded) hnodup hnext

/-- What the repetitions of a pattern are made with. -/
theorem repeats_of_repetitions {uses : List Nat} {span : Span} {lists : List Arguments}
    (h : args.repetitions uses span = .ok lists) : args.Repeats uses lists := by
  unfold repetitions at h
  obtain ⟨selection, hselection, h⟩ := bind_eq_ok.mp h
  have hstart : args.Selects [] ⟨[], none⟩ :=
    ⟨by simp, by simp, .nil, by simp, by simp⟩
  have hselects : args.Selects (increasing uses) selection :=
    hstart.foldlM (nodup_increasing uses) hselection
  cases hcount : selection.count with
  | none =>
    rw [hcount] at h
    cases h
  | some n =>
    simp only [hcount, Except.ok.injEq] at h
    -- All packs that the pattern uses are selected, and have `n` elements. In the repetition at
    -- `k` each of them is narrowed to its element at `k`.
    have hpacks : ∀ slot ∈ uses, ∀ elements, args.elementsAt? slot = some elements →
        slot ∈ selection.packs ∧ elements.length = n := by
      intro slot hslot elements helements
      have hslot := mem_increasing.mpr hslot
      refine ⟨(hselects.packs slot).mpr ⟨hslot, by simp [helements]⟩, ?_⟩
      exact Option.some.inj ((hselects.count slot hslot elements helements).symm.trans hcount)
    have hlists : ∀ (k : Nat) (list : Arguments), lists[k]? = some list →
        k < n ∧ list = args.withPackElement selection.packs k := by
      intro k list hlist
      rw [← h, List.getElem?_map, Option.map_eq_some_iff] at hlist
      obtain ⟨i, hi, rfl⟩ := hlist
      obtain ⟨hk, hi⟩ := List.getElem?_eq_some_iff.mp hi
      rw [List.length_range] at hk
      rw [List.getElem_range] at hi
      exact ⟨hk, hi ▸ rfl⟩
    refine ⟨fun slot hslot => hselects.bound slot (mem_increasing.mpr hslot), ?_,
      fun slot hslot elements helements => ?_, fun k list hlist slot hslot elements helements => ?_,
      fun k list hlist slot hslot => ?_⟩
    · obtain ⟨slot, hslot⟩ := List.exists_mem_of_ne_nil _ (hselects.isSome (by simp [hcount]))
      rw [hselects.packs, mem_increasing] at hslot
      exact ⟨slot, hslot⟩
    · rw [(hpacks slot hslot elements helements).2, ← h, List.length_map, List.length_range]
    · obtain ⟨hk, rfl⟩ := hlists k list hlist
      obtain ⟨hmem, hlength⟩ := hpacks slot hslot elements helements
      rw [getElem?_withPackElement hselects.nodup, if_pos hmem, helements, Option.bind_some,
        List.getElem?_eq_getElem (hlength ▸ hk), Option.some_or]
    · obtain ⟨_, rfl⟩ := hlists k list hlist
      rw [getElem?_withPackElement hselects.nodup, if_neg]
      intro hmem
      rw [hselects.packs, mem_increasing] at hmem
      rw [hslot hmem.1] at hmem
      cases hmem.2

end Arguments

/-! ### Lists with expansions -/

theorem mapM_eq_ok {ε α β : Type} {f : α → Except ε β} {xs : List α} {ys : List β} :
    xs.mapM f = .ok ys ↔ List.Forall₂ (fun x y => f x = .ok y) xs ys := by
  induction xs generalizing ys with
  | nil =>
    rw [List.mapM_nil, pure_eq_ok, List.forall₂_nil_left_iff]
    exact eq_comm
  | cons x rest ih =>
    simp only [List.mapM_cons, bind_eq_ok, pure_eq_ok, ih, List.forall₂_cons_left_iff]
    grind

theorem substituteNodes_eq_ok {args : Arguments} {nodes results : List Node} :
    substituteNodes args nodes = .ok results ↔
      List.Forall₂ (fun node r => node.substitute args = .ok r) nodes results := by
  induction nodes generalizing results with
  | nil => simp [substituteNodes, eq_comm]
  | cons node rest ih =>
    simp only [substituteNodes, bind_eq_ok, pure_eq_ok, ih, List.forall₂_cons_left_iff]
    grind

/-- What a node of an argument list becomes in the list: an expansion becomes its pattern for
each repetition, and any other node becomes one node. -/
inductive Node.Contributes (args : Arguments) : Node → List Node → Prop
  | expansion {pattern : Node} {span : Span} {lists : List Arguments} {results : List Node}
    (repeats : args.Repeats pattern.parameterUses lists)
    (each : List.Forall₂ (fun list r => pattern.substitute list = .ok r) lists results) :
    Contributes args (.packExpansion pattern span) results
  | plain {node r : Node} (plain : node.isExpansion = false) (eq : node.substitute args = .ok r) :
    Contributes args node [r]

/-- What the nodes of an argument list become stands where they stood. -/
theorem contributes_of_substituteArguments {args : Arguments} {nodes results : List Node}
    (h : substituteArguments args nodes = .ok results) :
    ∃ groups, List.Forall₂ (Node.Contributes args) nodes groups ∧ results = groups.flatten := by
  induction nodes generalizing results with
  | nil =>
    cases h
    exact ⟨[], .nil, rfl⟩
  | cons node rest ih =>
    cases hexpansion : node.isExpansion with
    | true =>
      cases node with
      | packExpansion pattern span =>
        simp only [substituteArguments, bind_eq_ok, pure_eq_ok] at h
        obtain ⟨lists, hlists, expanded, hexpanded, others, hothers, rfl⟩ := h
        obtain ⟨groups, hgroups, rfl⟩ := ih hothers
        have hrepeats := Arguments.repeats_of_repetitions hlists
        exact ⟨expanded :: groups,
          .cons (.expansion hrepeats (mapM_eq_ok.mp hexpanded)) hgroups, rfl⟩
      | _ => cases hexpansion
    | false =>
      rw [substituteArguments] at h
      · simp only [bind_eq_ok, pure_eq_ok] at h
        obtain ⟨r, hr, others, hothers, rfl⟩ := h
        obtain ⟨groups, hgroups, rfl⟩ := ih hothers
        exact ⟨[r] :: groups, .cons (.plain hexpansion hr) hgroups, rfl⟩
      · rintro pattern span rfl
        cases hexpansion

namespace BaseSpecifier

/-- The arguments that an entry of a base list is substituted with, once for each base. -/
def IsRepeatedFor (base : BaseSpecifier) (args : Arguments) (lists : List Arguments) : Prop :=
  if base.isExpansion then args.Repeats base.name.parameterUses lists else lists = [args]

/-- What an entry of a base list becomes for some arguments. -/
def Becomes (base : BaseSpecifier) (args : Arguments) (result : BaseSpecifier) : Prop :=
  ∃ name, base.name.substitute args = .ok name ∧
    result = ⟨base.access, base.isVirtual, name, false, base.span⟩

def Contributes (args : Arguments) (base : BaseSpecifier) (results : List BaseSpecifier) : Prop :=
  ∃ lists, base.IsRepeatedFor args lists ∧ List.Forall₂ base.Becomes lists results

end BaseSpecifier

/-- What the entries of a base list become stands where they stood. -/
theorem contributes_of_substituteBases {args : Arguments} {bases results : List BaseSpecifier}
    (h : substituteBases args bases = .ok results) :
    ∃ groups, List.Forall₂ (BaseSpecifier.Contributes args) bases groups ∧
      results = groups.flatten := by
  induction bases generalizing results with
  | nil =>
    cases h
    exact ⟨[], .nil, rfl⟩
  | cons base rest ih =>
    obtain ⟨access, isVirtual, name, isExpansion, span⟩ := base
    obtain ⟨lists, hrepeated, h⟩ : ∃ lists,
        BaseSpecifier.IsRepeatedFor ⟨access, isVirtual, name, isExpansion, span⟩ args lists ∧
        (do
          let names ← lists.mapM fun narrowed => name.substitute narrowed
          return names.map (BaseSpecifier.mk access isVirtual · false span) ++
            (← substituteBases args rest)) = .ok results := by
      cases isExpansion with
      | true =>
        obtain ⟨lists, hlists, h⟩ := bind_eq_ok.mp h
        exact ⟨lists, Arguments.repeats_of_repetitions hlists, h⟩
      | false => exact ⟨[args], rfl, h⟩
    simp only [bind_eq_ok, pure_eq_ok] at h
    obtain ⟨names, hnames, others, hothers, rfl⟩ := h
    obtain ⟨groups, hgroups, rfl⟩ := ih hothers
    have hbecome : List.Forall₂
        (BaseSpecifier.Becomes ⟨access, isVirtual, name, isExpansion, span⟩) lists
        (names.map (BaseSpecifier.mk access isVirtual · false span)) := by
      rw [List.forall₂_map_right_iff]
      exact (mapM_eq_ok.mp hnames).imp fun list result hresult => ⟨result, hresult, rfl⟩
    exact ⟨_ :: groups, .cons ⟨lists, hrepeated, hbecome⟩ hgroups, rfl⟩

end TemplateAnalysis
