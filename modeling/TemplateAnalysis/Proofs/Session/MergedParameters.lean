import TemplateAnalysis.Proofs.Session.RedeclaredParameters
import TemplateAnalysis.Proofs.Session.RefusedDeclarations

/-!
# The parameters that redeclarations bring

A template that is declared again takes what its parameters and those of the redeclaration
merge to, or keeps its own if they do not merge. In which order redeclarations come makes no
difference to its parameters.
-/

namespace TemplateAnalysis

namespace SymbolTable

variable {t : SymbolTable} {header own : ScopeId} {id : SymbolId} {name : String}
  {kind : SymbolKind} {span : Span} {data : TemplateData} {ps merged : ParameterList}
  {d : Diagnostic}

theorem exec_redeclareTemplate_of_error
    (hfound : t.redeclaredTemplate id name kind span = .ok (data, own))
    (hmerge : data.parameters.merge ps name span = .error d) :
    (redeclareTemplate header id name kind ps span).exec t = (.error d, t) := by
  rw [exec_redeclareTemplate, hfound]
  simp only [hmerge]

theorem entity_redeclareTemplate
    (hfound : t.redeclaredTemplate id name kind span = .ok (data, own))
    (hmerge : data.parameters.merge ps name span = .ok merged) :
    (((redeclareTemplate header id name kind ps span).exec t).2.symbol id).entity =
      .template { data with parameters := merged } := by
  have htakes := takesParameters_modifyTemplate (redeclaredTemplate_eq hfound).1 merged
  rw [exec_redeclareTemplate, hfound]
  simp only [hmerge]
  split
  · rw [htakes.symbol]
  · rw [← mergeTemplate, symbol_mergeTemplate, htakes.symbol]

end SymbolTable

namespace ParameterList

open SymbolTable

/-- How the parameters that declarations of one template bring are merged. -/
structure MergesInAnyOrder (ps qs rs : ParameterList) : Prop where
  succeeds_iff : ∀ name span, Succeeds (ps.merge qs name span) ↔ ps.IsCompatible qs
  /-- Two lists merge to the first one, with the defaults of either. -/
  merged : ∀ name span merged, ps.merge qs name span = .ok merged →
    merged.length = ps.length ∧ ∀ (index : Nat) (p q : TemplateParameter), ps[index]? = some p →
      qs[index]? = some q → ∃ m, merged[index]? = some m ∧ m.IsMergeOf p q
  /-- A template that has the parameters takes what they merge to with those of a
  redeclaration. -/
  taken : ∀ {t : SymbolTable} {header own : ScopeId} {id : SymbolId} {name : String}
    {kind : SymbolKind} {span : Span} {data : TemplateData} {merged : ParameterList},
    t.redeclaredTemplate id name kind span = .ok (data, own) → data.parameters = ps →
    ps.merge qs name span = .ok merged →
    (((redeclareTemplate header id name kind qs span).exec t).2.symbol id).entity =
      .template { data with parameters := merged }
  /-- If they do not merge, the template and the table around it stay as they are. -/
  kept : ∀ {t : SymbolTable} {header own : ScopeId} {id : SymbolId} {name : String}
    {kind : SymbolKind} {span : Span} {data : TemplateData} {d : Diagnostic},
    t.redeclaredTemplate id name kind span = .ok (data, own) → data.parameters = ps →
    ps.merge qs name span = .error d →
    (redeclareTemplate header id name kind qs span).exec t = (.error d, t)
  /-- Two more lists merge into one in both orders or in none, and to the same list. -/
  order : ∀ (name name' : String) (span span' : Span) (merged : ParameterList),
    (do let both ← ps.merge qs name span; both.merge rs name' span') = .ok merged ↔
      (do let both ← ps.merge rs name' span'; both.merge qs name span) = .ok merged

/-- Parameter lists merge position by position, and the order in which declarations bring them
does not matter. -/
theorem mergesInAnyOrder (ps qs rs : ParameterList) : ps.MergesInAnyOrder qs rs where
  succeeds_iff _ _ := succeeds_merge_iff
  merged name span merged hmerged := by
    obtain ⟨hcompatible, rfl⟩ := merge_eq_ok.mp hmerged
    refine ⟨by simp [hcompatible.length_eq], fun index p q hp hq => ?_⟩
    refine ⟨p.withDefaultOf q, by simp [List.getElem?_zipWith, hp, hq], ?_⟩
    exact (hcompatible.isCompatible hp hq).isMergeOf
  taken := by
    rintro t header own id name kind span data merged hfound rfl hmerge
    exact entity_redeclareTemplate hfound hmerge
  kept := by
    rintro t header own id name kind span data d hfound rfl hmerge
    exact exec_redeclareTemplate_of_error hfound hmerge
  order name name' span span' := agree_merge_merge ps qs rs name name' span span'

end ParameterList

end TemplateAnalysis
