import TemplateAnalysis.Proofs.Session.Runs

/-!
# Inheritance

Where bases have to be complete, a class gets bases only as long as it is incomplete
itself, and only bases that are complete by then. So a new edge of the inheritance graph
leaves a class that no edge enters, and the graph has no cycle, however often a class or
an instance is left unfinished by a step that fails.
-/

namespace TemplateAnalysis

open Session Analysis

def Symbol.bases (x : Symbol) : List BaseClass := (x.entity.class?.map (·.bases)).getD []

theorem Symbol.bases_eq {x : Symbol} {data : ClassData} (h : x.entity = .classType data) :
    x.bases = data.bases := by
  rw [bases, h]
  rfl

theorem Entity.IsNewFor.bases_eq {g : TypeGraph} {role : Role} {x : Symbol}
    (h : x.entity.IsNewFor g role) : x.bases = [] := by
  cases hentity : x.entity with
  | classType data =>
    rw [hentity] at h
    rw [Symbol.bases_eq hentity, h.1]
  | _ =>
    rw [Symbol.bases, hentity]
    rfl

/-! ### Bases in a table -/

namespace SymbolTable

def bases (t : SymbolTable) (id : SymbolId) : List BaseClass := (t.symbol id).bases

def DirectBase (t : SymbolTable) (derived base : SymbolId) : Prop :=
  ∃ b ∈ t.bases derived, b.symbol = base

theorem Extends.bases_eq {g : TypeGraph} {role : Role} {t u : SymbolTable}
    (h : t.Extends (Entity.IsNewFor g role) u) (id : SymbolId) : u.bases id = t.bases id := by
  have hnone : ∀ {v : SymbolTable}, ¬ v.HasSymbol id → v.bases id = [] := by
    intro v hv
    rw [bases, symbol_eq_default hv]
    rfl
  by_cases hold : t.HasSymbol id
  · rw [bases, bases, h.old id hold]
  · rw [hnone hold]
    by_cases hid : u.HasSymbol id
    · exact ((h.added id hid).resolve_left hold).bases_eq
    · exact hnone hid

end SymbolTable

/-! ### Changes -/

/-- A class may get a base as long as it is incomplete. The base is a class, and complete
where that is required. -/
structure Symbol.MayDerive (x : Symbol) (s : Session) (b : BaseClass) : Prop where
  undefined : x.isDefined = false
  isClass : s.table.IsClass b.symbol
  complete : s.config.requireCompleteBases = true → (s.table.symbol b.symbol).isDefined = true

theorem Symbol.Edit.mem_bases {s : Session} {id : SymbolId} {x y : Symbol} {role : Role}
    (h : Symbol.Edit s id x role y) {b : BaseClass} (hb : b ∈ y.bases) :
    b ∈ x.bases ∨ x.MayDerive s b := by
  cases h with
  | remember type | define => exact .inl hb
  | addBase data entity undefined base has kind other complete =>
    rcases List.mem_append.mp hb with hold | hnew
    · exact .inl (Symbol.bases_eq entity ▸ hold)
    · obtain rfl := List.mem_singleton.mp hnew
      exact .inr ⟨undefined, ⟨has, kind⟩, complete⟩
  | fill data entity => exact .inl (Symbol.bases_eq entity ▸ hb)
  | enumerators | record | merge | specify | defineTemplate | pattern => cases hb

/-- Every base of a class was one before a change, or the change has added it to a class
that was incomplete. -/
theorem Session.Change.mem_bases {s u : Session} {role : Role} (h : s.Change role u)
    {id : SymbolId} {b : BaseClass} (hb : b ∈ u.table.bases id) :
    b ∈ s.table.bases id ∨ (s.table.symbol id).MayDerive s b := by
  rcases h.extends_or_edit with hextends | ⟨j, f, hedit, htable⟩
  · exact .inl (hextends.bases_eq id ▸ hb)
  · rw [SymbolTable.bases, htable, SymbolTable.symbol_modifySymbol] at hb
    split at hb
    · rename_i hid
      obtain ⟨rfl, _⟩ := hid
      exact hedit.mem_bases hb
    · exact .inl hb

/-! ### Hierarchies -/

/-- Every base of a class is a complete class, and no class is derived from itself, also
not over other classes. -/
structure SymbolTable.IsHierarchy (t : SymbolTable) : Prop where
  isClass : ∀ id, ∀ b ∈ t.bases id, t.IsClass b.symbol
  complete : ∀ id, ∀ b ∈ t.bases id, (t.symbol b.symbol).isDefined = true
  acyclic : ∀ id, ¬ Relation.TransGen t.DirectBase id id

theorem SymbolTable.IsHierarchy.of_bases_eq_nil {t : SymbolTable} (h : ∀ id, t.bases id = []) :
    t.IsHierarchy where
  isClass id b hb := by
    rw [h id] at hb
    cases hb
  complete id b hb := by
    rw [h id] at hb
    cases hb
  acyclic id hcycle := by
    obtain ⟨x, ⟨b, hb, _⟩, _⟩ := Relation.TransGen.head'_iff.mp hcycle
    rw [h id] at hb
    cases hb

namespace Session

variable {s u : Session}

/-- A path over bases that were complete before a change was there before it, if its start
was complete: what was complete then has got no base since. -/
theorem Change.transGen_directBase {role : Role} (h : s.Change role u)
    (hcomplete : ∀ id, ∀ b ∈ u.table.bases id, (s.table.symbol b.symbol).isDefined = true)
    {derived base : SymbolId} (hpath : Relation.TransGen u.table.DirectBase derived base)
    (hderived : (s.table.symbol derived).isDefined = true) :
    Relation.TransGen s.table.DirectBase derived base := by
  have hedge : ∀ {x y : SymbolId}, (s.table.symbol x).isDefined = true →
      u.table.DirectBase x y → s.table.DirectBase x y := by
    rintro x y hx ⟨b, hb, rfl⟩
    rcases h.mem_bases hb with hold | hnew
    · exact ⟨b, hold, rfl⟩
    · rw [hnew.undefined] at hx
      cases hx
  induction hpath using Relation.TransGen.head_induction_on with
  | single hlast => exact .single (hedge hderived hlast)
  | head hfirst _ ih =>
    obtain ⟨b, hb, rfl⟩ := hfirst
    exact .head (hedge hderived ⟨b, hb, rfl⟩) (ih (hcomplete _ b hb))

/-- A change keeps the hierarchy where bases have to be complete. -/
theorem Change.isHierarchy {role : Role} (h : s.Change role u) (hs : s.Closed)
    (hrequired : s.config.requireCompleteBases = true) (hhierarchy : s.table.IsHierarchy) :
    u.table.IsHierarchy := by
  have hgrows := (h.grows hs).table
  have hbase : ∀ id, ∀ b ∈ u.table.bases id,
      s.table.IsClass b.symbol ∧ (s.table.symbol b.symbol).isDefined = true := by
    intro id b hb
    rcases h.mem_bases hb with hold | hnew
    · exact ⟨hhierarchy.isClass id b hold, hhierarchy.complete id b hold⟩
    · exact ⟨hnew.isClass, hnew.complete hrequired⟩
  refine ⟨fun id b hb => ?_, fun id b hb => ?_, fun id hcycle => ?_⟩
  · exact hgrows.isClass (hbase id b hb).1
  · obtain ⟨hclass, hdefined⟩ := hbase id b hb
    exact (hgrows.symbol b.symbol hclass.1).isDefined hdefined
  · -- A cycle ends where it starts, so its start is a base, and was complete.
    obtain ⟨_, _, b, hb, rfl⟩ := Relation.TransGen.tail'_iff.mp hcycle
    exact hhierarchy.acyclic b.symbol
      (h.transGen_directBase (fun id b hb => (hbase id b hb).2) hcycle (hbase _ b hb).2)

/-- Where bases have to be complete, the bases of all classes, instances among them, are
complete classes and form no cycle at any point of a run, whatever has failed midway. -/
theorem isHierarchy_of_run {config : Config} (hrequired : config.requireCompleteBases = true)
    (hs : (start config).Run s) : s.table.IsHierarchy := by
  have hstart : (start config).table.IsHierarchy := .of_bases_eq_nil fun _ => rfl
  refine (hs.invariant (fun v => v.config.requireCompleteBases = true ∧ v.table.IsHierarchy)
    (.start config) (fun v w hv hchange hinv => ?_) (fun _ _ h => h) ⟨hrequired, hstart⟩).2
  refine ⟨?_, hchange.isHierarchy hv hinv.1 hinv.2⟩
  rw [(hchange.grows hv).config]
  exact hinv.1

/-- A class `Derived` of which the second base is itself. Its definition fails there, and
leaves it with the first base. -/
theorem isHierarchy_of_run_derived :
    let declared := (Operation.declareClass "Base" .structKey .synthesized).after (start .standard)
    let base :=
      (Operation.defineClass ⟨0⟩ ⟨.structKey, "Base", [], [], .synthesized⟩).after declared
    let s := (Operation.declareClass "Derived" .structKey .synthesized).after base
    let body : ClassSpecifier := ⟨.structKey, "Derived",
      [⟨.publicly, false, .name "Base" ⟨0⟩ .synthesized, false, .synthesized⟩,
        ⟨.publicly, false, .name "Derived" ⟨1⟩ .synthesized, false, .synthesized⟩],
      [], .synthesized⟩
    let u := (Operation.defineClass ⟨1⟩ body).after s
    (exec (defineClass ⟨1⟩ body) s).1.toOption = none ∧
      u.table.bases ⟨1⟩ = [⟨⟨0⟩, .publicly, false⟩] ∧ u.table.IsHierarchy := by
  intro declared base s body u
  have hdeclared : declared.table.HasSymbol ⟨0⟩ := by decide +kernel
  have hs : s.table.HasSymbol ⟨0⟩ ∧ s.table.HasSymbol ⟨1⟩ := by decide +kernel
  have hbase : (start .standard).Run base :=
    (Run.refl.step _ .of_handles_nil).step _ (.of_symbol hdeclared)
  have hrun : (start .standard).Run u :=
    (hbase.step _ .of_handles_nil).step _ (.of_known (allKnown_cons_symbol hs.2
      (allKnown_cons_symbol hs.1 (allKnown_cons_symbol hs.2 AllKnown.nil))))
  refine ⟨by decide +kernel, by decide +kernel, isHierarchy_of_run rfl hrun⟩

end Session

end TemplateAnalysis
