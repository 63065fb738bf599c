import TemplateAnalysis.Proofs.Session.Additions
import TemplateAnalysis.Proofs.Session.Execution
import TemplateAnalysis.Proofs.SymbolTable.Stability

/-!
# Complete classes and instances

A class that is complete stays what it is, and a plain change makes no instance. What a
step that succeeds leaves is `Completes`: every instance that it has made of a template
with a body is complete, with the bases and members of that body for its arguments. A
step that fails may leave instances unfinished, but none that was complete before.
-/

namespace TemplateAnalysis

open Session Analysis

/-! ### Classes of a table -/

/-- Whether a symbol stays the class that it is if it is complete, and is no instance
unless it was one. -/
structure Symbol.KeepsClass (x y : Symbol) : Prop where
  complete : ∀ data, x.entity = .classType data → x.isDefined = true →
    y.entity = .classType data ∧ y.isDefined = true
  origin : ∀ origin, y.origin? = some origin → x.origin? = some origin

namespace SymbolTable

variable {t u v : SymbolTable}

def IsCompleteClass (t : SymbolTable) (id : SymbolId) (data : ClassData) : Prop :=
  (t.symbol id).entity = .classType data ∧ (t.symbol id).isDefined = true

theorem IsCompleteClass.has {id : SymbolId} {data : ClassData} (h : t.IsCompleteClass id data) :
    t.HasSymbol id := has_of_entity h.1 (by simp)

def KeepsComplete (t u : SymbolTable) : Prop :=
  ∀ id data, t.IsCompleteClass id data → u.IsCompleteClass id data

structure KeepsClasses (t u : SymbolTable) : Prop where
  complete : t.KeepsComplete u
  origins : ∀ id origin, (u.symbol id).origin? = some origin →
    (t.symbol id).origin? = some origin

theorem has_of_origin {id : SymbolId} {origin : InstanceOrigin}
    (h : (t.symbol id).origin? = some origin) : t.HasSymbol id := by
  by_contra hnot
  rw [symbol_eq_default hnot] at h
  cases h

theorem KeepsComplete.trans (htu : t.KeepsComplete u) (huv : u.KeepsComplete v) :
    t.KeepsComplete v := fun id data h => huv id data (htu id data h)

namespace KeepsClasses

theorem refl (t : SymbolTable) : KeepsClasses t t := ⟨fun _ _ h => h, fun _ _ h => h⟩

theorem trans (htu : KeepsClasses t u) (huv : KeepsClasses u v) : KeepsClasses t v where
  complete := htu.complete.trans huv.complete
  origins id origin h := htu.origins id origin (huv.origins id origin h)

/-- New symbols that are no instances leave all classes as they are. -/
theorem of_extends {new : Entity → Prop} (h : t.Extends new u)
    (hnew : ∀ e, new e → e.origin? = none) : KeepsClasses t u where
  complete id data hid := by
    rw [IsCompleteClass, h.old id hid.has]
    exact hid
  origins id origin horigin := by
    rcases h.added id (has_of_origin horigin) with hold | hentity
    · rwa [h.old id hold] at horigin
    · rw [Symbol.origin?, hnew _ hentity] at horigin
      cases horigin

theorem modifySymbol {id : SymbolId} {f : Symbol → Symbol}
    (h : (t.symbol id).KeepsClass (f (t.symbol id))) : KeepsClasses t (t.modifySymbol id f) where
  complete j data hj := by
    rw [IsCompleteClass, symbol_modifySymbol]
    split
    · rename_i hid
      obtain ⟨rfl, _⟩ := hid
      exact h.complete data hj.1 hj.2
    · exact hj
  origins j origin hj := by
    rw [symbol_modifySymbol] at hj
    split at hj
    · rename_i hid
      obtain ⟨rfl, _⟩ := hid
      exact h.origin origin hj
    · exact hj

end KeepsClasses

end SymbolTable

/-! ### Changes -/

theorem Symbol.Edit.keepsClass {s : Session} {id : SymbolId} {x y : Symbol}
    (h : Symbol.Edit s id x .plain y) : x.KeepsClass y := by
  refine ⟨fun data hdata hdefined => ?_, fun origin horigin => h.grows.origin?_eq ▸ horigin⟩
  cases h with
  | remember type => exact ⟨hdata, hdefined⟩
  | define => exact ⟨hdata, rfl⟩
  | addBase data' entity undefined =>
    rw [undefined] at hdefined
    cases hdefined
  | enumerators data' entity | record data' entity | merge data' entity | specify data' entity
  | defineTemplate data' entity | pattern data' entity =>
    rw [entity] at hdata
    cases hdata

/-- A plain change keeps the classes that are complete, and makes no instance. -/
theorem Session.Change.keepsClasses {s u : Session} (h : s.Change .plain u) :
    s.table.KeepsClasses u.table := by
  rcases h.extends_or_edit with hextends | ⟨id, f, hedit, htable⟩
  · exact .of_extends hextends fun _ hnew => hnew.origin?_eq_none
  · rw [htable]
    exact .modifySymbol hedit.keepsClass

/-! ### Instances -/

namespace Session

variable {s u v : Session}

def body? (s : Session) (template : SymbolId) : Option ClassSpecifier :=
  (s.table.symbol template).entity.template?.bind (·.body?)

/-- A base of a class is the one that its specifier names, now and in every later
session. -/
structure IsBase (u : Session) (specifier : BaseSpecifier) (base : BaseClass) : Prop where
  access : base.access = specifier.access
  isVirtual : base.isVirtual = specifier.isVirtual
  named : ∀ v, v.Closed → u.Grows v →
    exec (resolveClass instantiate specifier.name) v = (.ok base.symbol, v)

/-- What is known of a class is what a body says for some arguments. -/
structure HoldsBody (u : Session) (args : Arguments) (body : ClassSpecifier) (data : ClassData) :
    Prop where
  key : data.key = body.key
  members : substituteNodes args body.members = .ok data.members
  bases : ∃ specifiers, substituteBases args body.bases = .ok specifiers ∧
    List.Forall₂ u.IsBase specifiers data.bases

/-- A symbol is a complete class with the bases and members of a body for some
arguments. -/
def IsCompleteInstance (u : Session) (i : SymbolId) (args : Arguments) (body : ClassSpecifier) :
    Prop :=
  ∃ data, u.table.IsCompleteClass i data ∧ u.HoldsBody args body data

/-- Every instance that is new and whose template had a body is complete. -/
def Completes (s u : Session) : Prop :=
  ∀ i origin, (s.table.symbol i).origin? = none → (u.table.symbol i).origin? = some origin →
    ∀ body, s.body? origin.template = some body → u.IsCompleteInstance i origin.arguments body

theorem Grows.body?_eq (h : s.Grows u) {template : SymbolId} {body : ClassSpecifier}
    (hbody : s.body? template = some body) : u.body? template = some body := by
  have hhas : s.table.HasSymbol template := by
    by_contra hnot
    rw [body?, SymbolTable.symbol_eq_default hnot] at hbody
    cases hbody
  rw [body?] at hbody ⊢
  cases hentity : (s.table.symbol template).entity with
  | template data =>
    obtain ⟨data', hdata', hlater⟩ := (h.table.symbol template hhas).template_entity hentity
    rw [hentity] at hbody
    rw [hdata']
    simp only [Entity.template?, Option.bind_some, TemplateData.body?] at hbody ⊢
    split at hbody
    · rename_i hdefined
      obtain ⟨hdefined', hpattern⟩ := hlater.defined hdefined
      rw [if_pos hdefined', hpattern, hbody]
    · cases hbody
  | _ =>
    rw [hentity] at hbody
    cases hbody

theorem IsBase.later {specifier : BaseSpecifier} {base : BaseClass} (h : u.IsBase specifier base)
    (hgrows : u.Grows v) : v.IsBase specifier base :=
  { h with named := fun w hw hlater => h.named w hw (hgrows.trans hlater) }

theorem HoldsBody.later {args : Arguments} {body : ClassSpecifier} {data : ClassData}
    (h : u.HoldsBody args body data) (hgrows : u.Grows v) : v.HoldsBody args body data := by
  obtain ⟨specifiers, hspecifiers, hbases⟩ := h.bases
  exact { h with bases := ⟨specifiers, hspecifiers, hbases.imp fun _ _ h => h.later hgrows⟩ }

theorem IsCompleteInstance.later {i : SymbolId} {args : Arguments} {body : ClassSpecifier}
    (h : u.IsCompleteInstance i args body) (hgrows : u.Grows v)
    (hkeeps : u.table.KeepsComplete v.table) : v.IsCompleteInstance i args body := by
  obtain ⟨data, hdata, hbody⟩ := h
  exact ⟨data, hkeeps i data hdata, hbody.later hgrows⟩

namespace Completes

theorem of_keepsClasses (h : s.table.KeepsClasses u.table) : s.Completes u := by
  intro i origin hnone horigin
  rw [h.origins i origin horigin] at hnone
  cases hnone

/-- An instance that is new at the end was new in the middle, and is still complete, or
is new since, when its template had the body as well. -/
theorem trans (hsu : s.Completes u) (huv : u.Completes v) (hgrows : s.Grows u)
    (hgrows' : u.Grows v) (hkeeps : u.table.KeepsComplete v.table) : s.Completes v := by
  intro i origin hnone horigin body hbody
  cases hmiddle : (u.table.symbol i).origin? with
  | none => exact huv i origin hmiddle horigin body (hgrows.body?_eq hbody)
  | some origin' =>
    have hsame := (hgrows'.table.symbol i (SymbolTable.has_of_origin hmiddle)).origin?_eq
    rw [horigin, hmiddle] at hsame
    cases hsame
    exact (hsu i origin hnone hmiddle body hbody).later hgrows' hkeeps

end Completes

end Session

end TemplateAnalysis
