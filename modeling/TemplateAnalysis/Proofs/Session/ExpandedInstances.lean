import TemplateAnalysis.Proofs.Ast.Dependence
import TemplateAnalysis.Proofs.Ast.Expansion
import TemplateAnalysis.Proofs.Session.Instances
import TemplateAnalysis.Proofs.Session.CompleteInstances
import TemplateAnalysis.Proofs.Session.Memo

/-!
# Instances are expanded patterns

The bases of an instance are found one after the other, and finding one may instantiate other
templates, which appends to the bases of other classes. In the end the instance has the key of
the pattern, a base for each entry of its base list, or for each element of the packs that
the entry expands, and a member for each member, in the order of the pattern.
-/

namespace TemplateAnalysis

open Session Analysis

section Lists

variable {α β γ : Type} {R : α → β → Prop} {S : β → γ → Prop}

theorem forall₂_exists_trans {xs : List α} {ys : List β} (h : List.Forall₂ R xs ys) :
    ∀ {zs : List γ}, List.Forall₂ S ys zs → List.Forall₂ (fun x z => ∃ y, R x y ∧ S y z) xs zs := by
  induction h with
  | nil =>
    intro zs hzs
    cases hzs
    exact .nil
  | cons hxy _ ih =>
    intro zs hzs
    cases hzs with
    | cons hyz hrest => exact .cons ⟨_, hxy, hyz⟩ (ih hrest)

/-- What goes with a list that is put together goes with its parts. -/
theorem exists_forall₂_of_flatten {groups : List (List α)} : ∀ {ys : List β},
    List.Forall₂ R groups.flatten ys →
    ∃ parts, List.Forall₂ (List.Forall₂ R) groups parts ∧ ys = parts.flatten := by
  induction groups with
  | nil =>
    intro ys h
    cases h
    exact ⟨[], .nil, rfl⟩
  | cons group rest ih =>
    intro ys h
    rw [List.flatten_cons] at h
    have hfirst := (List.forall₂_take_append ys group rest.flatten h.flip).flip
    obtain ⟨parts, hparts, hrest⟩ := ih (List.forall₂_drop_append ys group rest.flatten h.flip).flip
    refine ⟨ys.take group.length :: parts, .cons hfirst hparts, ?_⟩
    rw [List.flatten_cons, ← hrest, List.take_append_drop]

theorem exists_mem_of_forall₂ {xs : List α} {ys : List β} (h : List.Forall₂ R xs ys) :
    ∀ y ∈ ys, ∃ x ∈ xs, R x y := by
  induction h with
  | nil => simp
  | cons hxy _ ih => grind

end Lists

namespace Session

variable {s u : Session} {args : Arguments} {body : ClassSpecifier} {data : ClassData}

/-- A base of a class is what an entry of a base list gives for some arguments: it has the
access of the entry, and is the class that the name of the entry denotes with the arguments
in the place of the parameters, now and in every later session. -/
structure IsEntry (u : Session) (entry : BaseSpecifier) (args : Arguments) (base : BaseClass) :
    Prop where
  access : base.access = entry.access
  isVirtual : base.isVirtual = entry.isVirtual
  named : ∃ name, entry.name.substitute args = .ok name ∧ ∀ v, v.Closed → u.Grows v →
    exec (resolveClass instantiate name) v = (.ok base.symbol, v)

/-- The bases that an entry of a base list gives: one if it expands nothing, or else one for
each repetition. -/
def Fills (u : Session) (args : Arguments) (entry : BaseSpecifier) (bases : List BaseClass) :
    Prop :=
  ∃ lists, entry.IsRepeatedFor args lists ∧ List.Forall₂ (u.IsEntry entry) lists bases

/-- What is known of a class is a body for some arguments, with every list expanded. -/
structure ExpandsBody (u : Session) (args : Arguments) (body : ClassSpecifier) (data : ClassData) :
    Prop where
  key : data.key = body.key
  bases : ∃ groups, List.Forall₂ (u.Fills args) body.bases groups ∧ data.bases = groups.flatten
  members : List.Forall₂ (fun m r => m.substitute args = .ok r) body.members data.members
  independent : ∀ m ∈ data.members, m.isDependent = false

theorem isEntry_of_becomes {entry result : BaseSpecifier} {base : BaseClass}
    (hresult : entry.Becomes args result) (hbase : u.IsBase result base) :
    u.IsEntry entry args base := by
  obtain ⟨name, hname, rfl⟩ := hresult
  exact ⟨hbase.access, hbase.isVirtual, name, hname, hbase.named⟩

theorem HoldsBody.expandsBody (h : u.HoldsBody args body data) : u.ExpandsBody args body data where
  key := h.key
  bases := by
    obtain ⟨specifiers, hspecifiers, hbases⟩ := h.bases
    obtain ⟨groups, hgroups, rfl⟩ := contributes_of_substituteBases hspecifiers
    obtain ⟨parts, hparts, hdata⟩ := exists_forall₂_of_flatten hbases
    refine ⟨parts, ?_, hdata⟩
    apply (forall₂_exists_trans hgroups hparts).imp
    rintro entry part ⟨group, ⟨lists, hlists, hgroup⟩, hpart⟩
    refine ⟨lists, hlists, ?_⟩
    apply (forall₂_exists_trans hgroup hpart).imp
    rintro list base ⟨result, hresult, hbase⟩
    exact isEntry_of_becomes hresult hbase
  members := substituteNodes_eq_ok.mp h.members
  independent := by
    intro m hm
    obtain ⟨member, -, hmember⟩ := exists_mem_of_forall₂ (substituteNodes_eq_ok.mp h.members) m hm
    exact isDependent_substitute hmember

/-- Whether a symbol is a complete class, and what is known of it is a body for some arguments
with every list expanded. -/
def IsExpandedInstance (u : Session) (i : SymbolId) (args : Arguments) (body : ClassSpecifier) :
    Prop :=
  ∃ data, u.table.IsCompleteClass i data ∧ u.ExpandsBody args body data

/-- The arguments that an instance has are what the arguments as written are bound to, as far
as keys tell arguments apart. -/
theorem exists_bound_of_instantiate {config : Config} (hs : (start config).Run s)
    {template : SymbolId} {arguments : List Node} {span : Span}
    (hcall : (Operation.instantiate template arguments span).IsOn s) {i : SymbolId}
    (hok : (exec (instantiate template arguments span) s).1 = .ok i)
    (horigin : ((exec (instantiate template arguments span) s).2.table.symbol i).origin? =
      some ⟨template, args⟩) :
    ∃ bound, exec (bindArguments template arguments span)
        (exec (instantiate template arguments span) s).2 =
          (.ok bound, (exec (instantiate template arguments span) s).2) ∧
      (exec (instantiate template arguments span) s).2.keyFor template bound =
        (exec (instantiate template arguments span) s).2.keyFor template args := by
  have hrun := hs.instantiate hcall
  have hclosed := hrun.closed
  have hfinds := finds_of_run hs.closed hcall hok .refl span
  obtain ⟨bound, hbind, _, hfound, _⟩ := hfinds.binds hclosed
  have hkeys := hrun.isFiled.eq_iff_keyFor_eq hfound (hrun.hasMemo i _ horigin).found
  exact ⟨bound, hbind, hkeys.mp rfl⟩

/-- In every session that operations reach, an instance of a template with a body that a call
makes is the body for its arguments. It is complete, it has the key of the body, and its bases
are those of the entries of the base list, one after the other: of an entry that expands packs
one for each of their elements, and otherwise one, with the access and the virtual flag of the
entry, and the class that its substituted name denotes. Its members are those of the body with
the arguments in the place of the parameters, in their order, and depend on no parameter. In
the same way an expansion in the arguments of a template-id gives an argument for each element
at its place. -/
theorem isExpandedInstance_of_instantiate {config : Config} (hs : (start config).Run s)
    {template : SymbolId} {arguments : List Node} {span : Span}
    (hcall : (Operation.instantiate template arguments span).IsOn s)
    (hbody : s.body? template = some body) {i : SymbolId} {u : Session}
    (hmade : exec (instantiate template arguments span) s = (.ok i, u))
    (hnew : ¬ s.table.HasSymbol i)
    (horigin : (u.table.symbol i).origin? = some ⟨template, args⟩) :
    u.IsExpandedInstance i args body ∧
    (∃ bound, exec (bindArguments template arguments span) u = (.ok bound, u) ∧
      u.keyFor template bound = u.keyFor template args) ∧
    ∀ (args : Arguments) (id : SymbolId) (text : String) (nodes : List Node) (span : Span)
      (r : Node), (Node.templateId id text nodes span).substitute args = .ok r →
      ∃ groups, List.Forall₂ (Node.Contributes args) nodes groups ∧
        r = .templateId id text groups.flatten span := by
  have hok : (exec (instantiate template arguments span) s).1 = .ok i := by rw [hmade]
  have hclosed := hs.closed
  have hleads := leads_instantiate hclosed hcall.known.head hcall.known.tail span span
  have hnone : (s.table.symbol i).origin? = none := by
    rw [SymbolTable.symbol_eq_default hnew]
    rfl
  obtain rfl : (exec (instantiate template arguments span) s).2 = u := by rw [hmade]
  refine ⟨?_, exists_bound_of_instantiate hs hcall hok horigin, ?_⟩
  · obtain ⟨data, hdata, hholds⟩ :=
      hleads.completes i hok i ⟨template, args⟩ hnone horigin body hbody
    exact ⟨data, hdata, hholds.expandsBody⟩
  · intro args id text nodes span r hr
    rw [Node.substitute] at hr
    obtain ⟨results, hresults, hr⟩ := bind_eq_ok.mp hr
    obtain ⟨groups, hgroups, rfl⟩ := contributes_of_substituteArguments hresults
    exact ⟨groups, hgroups, (pure_eq_ok.mp hr).symm⟩

/-- A template `Set` has `Base` and the elements of its pack for its bases, so that its instance
for `A` and `B` has three. -/
theorem isExpandedInstance_of_instantiate_pack :
    let declare (name : String) : Operation := .declareClass name .structKey .synthesized
    let define (name : String) (id : SymbolId) : Operation :=
      .defineClass id ⟨.structKey, name, [], [], .synthesized⟩
    let base := (define "Base" ⟨0⟩).after ((declare "Base").after (start .standard))
    let a := (define "A" ⟨1⟩).after ((declare "A").after base)
    let b := (define "B" ⟨2⟩).after ((declare "B").after a)
    let set := (declare "Set").after
      ((Operation.beginTemplate [⟨"Ts", .type, none, true, none, .synthesized⟩]
        .synthesized).after b)
    let s := (Operation.defineClass ⟨4⟩ ⟨.structKey, "Set",
      [⟨.publicly, false, .name "Base" ⟨0⟩ .synthesized, false, .synthesized⟩,
        ⟨.privately, true, .typeParameter "Ts" 0 .synthesized, true, .synthesized⟩],
      [], .synthesized⟩).after set
    let u := (exec (instantiate ⟨4⟩ [.name "A" ⟨1⟩ .synthesized, .name "B" ⟨2⟩ .synthesized]
      .synthesized) s).2
    ∃ args body, u.IsExpandedInstance ⟨5⟩ args body ∧
      (u.table.symbol ⟨5⟩).entity.class?.map (·.bases) =
        some [⟨⟨0⟩, .publicly, false⟩, ⟨⟨1⟩, .privately, true⟩, ⟨⟨2⟩, .privately, true⟩] := by
  intro declare define base a b set s u
  have hbase : ((declare "Base").after (start .standard)).table.HasSymbol ⟨0⟩ := by decide +kernel
  have ha : ((declare "A").after base).table.HasSymbol ⟨1⟩ := by decide +kernel
  have hb : ((declare "B").after a).table.HasSymbol ⟨2⟩ := by decide +kernel
  have hset : set.table.HasSymbol ⟨0⟩ ∧ set.table.HasSymbol ⟨4⟩ := by decide +kernel
  have hsymbols : s.table.HasSymbol ⟨1⟩ ∧ s.table.HasSymbol ⟨2⟩ ∧ s.table.HasSymbol ⟨4⟩ := by
    decide +kernel
  have hrunBase : (start .standard).Run base :=
    (Run.refl.step _ .of_handles_nil).step _ (.of_symbol hbase)
  have hrunA : (start .standard).Run a :=
    (hrunBase.step _ .of_handles_nil).step _ (.of_symbol ha)
  have hrunB : (start .standard).Run b :=
    (hrunA.step _ .of_handles_nil).step _ (.of_symbol hb)
  have hrunSet : (start .standard).Run set :=
    (hrunB.step _ .of_handles_nil).step _ .of_handles_nil
  have hrun : (start .standard).Run s := hrunSet.step _
    (.of_known (allKnown_cons_symbol hset.2 (allKnown_cons_symbol hset.1 AllKnown.nil)))
  have hcall : (Operation.instantiate ⟨4⟩
      [.name "A" ⟨1⟩ .synthesized, .name "B" ⟨2⟩ .synthesized] .synthesized).IsOn s :=
    .of_known (allKnown_cons_symbol hsymbols.2.2 (allKnown_cons_symbol hsymbols.1
      (allKnown_cons_symbol hsymbols.2.1 AllKnown.nil)))
  have hnew : ¬ s.table.HasSymbol ⟨5⟩ := by decide +kernel
  have hbody : (s.body? ⟨4⟩).isSome = true := by decide +kernel
  have hok : (exec (instantiate ⟨4⟩ [.name "A" ⟨1⟩ .synthesized, .name "B" ⟨2⟩ .synthesized]
      .synthesized) s).1.toOption = some ⟨5⟩ := by decide +kernel
  have horigin : (u.table.symbol ⟨5⟩).origin?.map (·.template) = some ⟨4⟩ := by decide +kernel
  obtain ⟨⟨template, args⟩, horigin, rfl⟩ := Option.map_eq_some_iff.mp horigin
  obtain ⟨body, hbody⟩ := Option.isSome_iff_exists.mp hbody
  have hmade := exec_eq_of_ok (toOption_eq_some.mp hok)
  refine ⟨args, body, ?_, by decide +kernel⟩
  exact (isExpandedInstance_of_instantiate hrun hcall hbody hmade hnew horigin).1

end Session

end TemplateAnalysis
