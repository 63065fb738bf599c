import TemplateAnalysis.Proofs.Session.Runs

/-!
# Instances are complete

An instance is registered before its bases and members are filled in, so an operation
that fails midway leaves one unfinished, and whoever asks for it later gets it as it is.
An operation that succeeds leaves none unfinished: whatever instance it has made of a
template with a body, also inside of another one, has the bases and members of the body
for its arguments, and keeps them in every later state.
-/

namespace TemplateAnalysis.Session

open Analysis

variable {s u : Session}

theorem Operation.keepsComplete {op : Operation} (hs : s.Closed) (h : op.IsOn s) :
    s.table.KeepsComplete (op.after s).table := by
  by_cases hop : op.IsUnchecked
  · cases op with
    | graph op => exact fun _ _ h => h
    | _ => exact absurd hop id
  · exact (Operation.leads hop hs h).keeps

theorem Run.keepsComplete (h : s.Run u) (hs : s.Closed) : s.table.KeepsComplete u.table := by
  induction h with
  | refl => exact fun _ _ h => h
  | step run op isOn ih => exact ih.trans (Operation.keepsComplete (run.preserves hs).1 isOn)

/-- An operation that succeeds completes the instances that it makes. -/
theorem Operation.completes {op : Operation} (hs : s.Closed) (h : op.IsOn s)
    (hok : (exec op.perform s).1 = .ok ()) : s.Completes (op.after s) := by
  by_cases hop : op.IsUnchecked
  · cases op with
    | graph op => exact .of_keepsClasses (.refl _)
    | _ => exact absurd hop id
  · exact (Operation.leads hop hs h).completes () hok

/-- An operation that makes a symbol an instance, which it was not before. -/
structure Operation.Creates (op : Operation) (s : Session) (i : SymbolId)
    (origin : InstanceOrigin) : Prop where
  isOn : op.IsOn s
  isNew : (s.table.symbol i).origin? = none
  created : ((op.after s).table.symbol i).origin? = some origin

/-- An instance of a template that had a body when it was made, by an operation that
succeeded, is complete at every later point of a run, whatever succeeds or fails in
between: it has the key of the body, its members with the arguments in the place of the
parameters, and the bases that the substituted specifiers name. -/
theorem isCompleteInstance_of_creates {config : Config} (hs : (start config).Run s)
    {op : Operation} {i : SymbolId} {origin : InstanceOrigin} (hcreates : op.Creates s i origin)
    (hok : (exec op.perform s).1 = .ok ()) {body : ClassSpecifier}
    (hbody : s.body? origin.template = some body) (hu : (op.after s).Run u) :
    u.IsCompleteInstance i origin.arguments body := by
  have hclosed := hs.closed
  have hafter := (Operation.preserves hclosed hcreates.isOn).1
  have hcomplete : (op.after s).IsCompleteInstance i origin.arguments body :=
    Operation.completes hclosed hcreates.isOn hok i origin hcreates.isNew hcreates.created
      body hbody
  exact hcomplete.later (hu.preserves hafter).2 (hu.keepsComplete hafter)

/-- A template `Box` whose instances derive from `Base` and assert their argument. Its
instance for `1` is complete when it is made, and still after a call that fails. -/
theorem isCompleteInstance_of_creates_box :
    let declared := (Operation.declareClass "Base" .structKey .synthesized).after (start .standard)
    let base :=
      (Operation.defineClass ⟨0⟩ ⟨.structKey, "Base", [], [], .synthesized⟩).after declared
    let header := (Operation.beginTemplate [⟨"N", .nonType, none, false, none, .synthesized⟩]
      .synthesized).after base
    let box := (Operation.declareClass "Box" .structKey .synthesized).after header
    let s := (Operation.defineClass ⟨2⟩ ⟨.structKey, "Box",
      [⟨.publicly, false, .name "Base" ⟨0⟩ .synthesized, false, .synthesized⟩],
      [.staticAssert ⟨.valueParameter "N" 0 .synthesized, none, .synthesized⟩],
      .synthesized⟩).after box
    let made := (Operation.instantiate ⟨2⟩ [.literal (.int 1) .synthesized] .synthesized).after s
    let u := (Operation.instantiate ⟨2⟩ [] .synthesized).after made
    ∃ args body, s.body? ⟨2⟩ = some body ∧ u.IsCompleteInstance ⟨3⟩ args body := by
  intro declared base header box s made u
  have hclass : declared.table.HasSymbol ⟨0⟩ := by decide +kernel
  have hbox : box.table.HasSymbol ⟨0⟩ ∧ box.table.HasSymbol ⟨2⟩ := by decide +kernel
  have htemplate : s.table.HasSymbol ⟨2⟩ ∧ made.table.HasSymbol ⟨2⟩ := by decide +kernel
  have hbase : (start .standard).Run base :=
    (Run.refl.step _ .of_handles_nil).step _ (.of_symbol hclass)
  have hheader : (start .standard).Run box :=
    (hbase.step _ .of_handles_nil).step _ .of_handles_nil
  have hrun : (start .standard).Run s := hheader.step _
    (.of_known (allKnown_cons_symbol hbox.2 (allKnown_cons_symbol hbox.1 AllKnown.nil)))
  have hcall : (Operation.instantiate ⟨2⟩ [.literal (.int 1) .synthesized] .synthesized).IsOn s :=
    .of_symbol htemplate.1
  have hnew : (s.table.symbol ⟨3⟩).origin?.isNone = true := by decide +kernel
  have hcreated : (made.table.symbol ⟨3⟩).origin?.map (·.template) = some ⟨2⟩ := by decide +kernel
  have hbody : (s.body? ⟨2⟩).isSome = true := by decide +kernel
  have hok : (exec (Operation.instantiate ⟨2⟩ [.literal (.int 1) .synthesized]
      .synthesized).perform s).1.toOption = some () := by decide +kernel
  have hlater : made.Run u :=
    Run.refl.step _ (.of_symbol htemplate.2)
  obtain ⟨⟨template, args⟩, horigin, rfl⟩ := Option.map_eq_some_iff.mp hcreated
  obtain ⟨body, hbody⟩ := Option.isSome_iff_exists.mp hbody
  exact ⟨args, body, hbody, isCompleteInstance_of_creates hrun
    ⟨hcall, Option.isNone_iff_eq_none.mp hnew, horigin⟩ (toOption_eq_some.mp hok) hbody hlater⟩

end TemplateAnalysis.Session
