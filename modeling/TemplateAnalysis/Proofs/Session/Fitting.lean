import TemplateAnalysis.Proofs.Constant.Conversion
import TemplateAnalysis.Proofs.Encoding.Arguments
import TemplateAnalysis.Proofs.Session.Rules
import TemplateAnalysis.Session.Binding

/-!
# Arguments fit their parameters

A pack is bound to a pack of its kind, and every other parameter to a type or a value.
So all argument lists that are bound for one template have their packs in the same
places, and of the same kinds, and what is left to compare are types and constants. Values
are of the type that their parameter is declared with.
-/

namespace TemplateAnalysis

open Session Analysis

variable {α β : Type}

/-- Whatever a step returns, in any session, has a property. -/
def Analysis.Returns (step : Analysis α) (post : α → Prop) : Prop :=
  ∀ (s : Session) (a : α), (exec step s).1 = .ok a → post a

namespace Analysis.Returns

variable {post : α → Prop} {next : β → Prop}

theorem anything (step : Analysis α) : Returns step fun _ => True := fun _ _ _ => trivial

theorem pure {a : α} (h : post a) : Returns (Pure.pure a) post := fun _ b hb => by
  cases hb
  exact h

theorem throw (d : Diagnostic) : Returns (MonadExcept.throw d : Analysis α) post :=
  fun _ _ hb => by cases hb

theorem bind {x : Analysis α} {f : α → Analysis β} (hx : Returns x post)
    (hf : ∀ a, post a → Returns (f a) next) : Returns (x >>= f) next := fun s b hb => by
  cases hr : (exec x s).1 with
  | error d =>
    rw [exec_bind_error hr f] at hb
    cases hb
  | ok a =>
    rw [exec_bind_ok hr f] at hb
    exact hf a (hx s a hr) _ b hb

end Analysis.Returns

def TemplateArgument.IsOne (kind : ParameterKind) : TemplateArgument → Prop
  | type _ _ => kind = .type
  | value _ => kind = .nonType
  | pack _ _ => False

/-- Whether an argument is what the parameter takes, as far as kinds and packs go. -/
def TemplateArgument.Fits (p : TemplateParameter) : TemplateArgument → Prop
  | pack kind elements => p.isPack = true ∧ kind = p.kind ∧ ∀ x ∈ elements, x.IsOne p.kind
  | x => p.isPack = false ∧ x.IsOne p.kind

theorem TemplateArgument.IsOne.fits {p : TemplateParameter} {x : TemplateArgument}
    (h : x.IsOne p.kind) (hp : p.isPack = false) : x.Fits p := by
  cases x with
  | pack kind elements => exact h.elim
  | _ => exact ⟨hp, h⟩

theorem TemplateArgument.Fits.isOne {p : TemplateParameter} {x : TemplateArgument} (h : x.Fits p)
    (hp : p.isPack = false) : x.IsOne p.kind := by
  cases x with
  | pack kind elements => exact absurd h.1 (by simp [hp])
  | _ => exact h.2

abbrev Arguments.FitAll (ps : ParameterList) (args : Arguments) : Prop :=
  List.Forall₂ (fun p (x : TemplateArgument) => x.Fits p) ps args

variable {inst : Instantiator}

theorem returns_bindValue (valueType : Option Primitive) (argument : Node) :
    Returns (bindValue valueType argument) fun x => ∃ c, x = .value c ∧ c.IsOf valueType := by
  rw [bindValue]
  refine (Returns.anything _).bind fun value _ => ?_
  cases valueType with
  | none => exact Returns.pure ⟨value, rfl, value.isOf_none⟩
  | some type =>
    intro s x hx
    rw [exec_ofExcept] at hx
    obtain ⟨c, hc, rfl⟩ := map_eq_ok.mp (mapError_eq_ok.mp hx)
    exact ⟨c, rfl, Constant.isOf_of_convert hc⟩

theorem returns_bindOne (template : String) (p : TemplateParameter) (index : Nat)
    (argument : Node) :
    Returns (bindOne inst template p index argument) fun x =>
      x.IsOne p.kind ∧ x.HasType p.valueType := by
  rw [bindOne]
  refine (Returns.anything _).bind fun s _ => ?_
  simp only
  split
  · rename_i hkind _
    exact (Returns.anything _).bind fun _ _ => (Returns.anything _).bind fun _ _ =>
      (Returns.anything _).bind fun _ _ => Returns.pure ⟨hkind, trivial⟩
  · rename_i hkind _
    intro u x hx
    obtain ⟨c, rfl, hc⟩ := returns_bindValue p.valueType argument u x hx
    exact ⟨hkind, hc⟩
  · exact Returns.throw _

theorem returns_bindElements (template : String) (p : TemplateParameter) :
    ∀ (index : Nat) (arguments : List Node),
      Returns (bindElements inst template p index arguments) fun xs =>
        ∀ x ∈ xs, x.IsOne p.kind ∧ x.HasType p.valueType
  | _, [] => Returns.pure (by simp)
  | index, argument :: rest => by
    rw [bindElements]
    refine (returns_bindOne template p index argument).bind fun x hx =>
      (returns_bindElements template p (index + 1) rest).bind fun xs hxs => Returns.pure ?_
    exact List.forall_mem_cons.mpr ⟨hx, hxs⟩

theorem returns_bindNext (site : BindingSite) (index : Nat) (done : Binding)
    (p : TemplateParameter) :
    Returns (bindNext inst site index done p) fun next =>
      ∃ x, next.arguments = done.arguments ++ [x] ∧ x.Fits p ∧ x.HasType p.valueType := by
  rw [bindNext]
  split
  · rename_i hpack
    refine (returns_bindElements site.template p index _).bind fun xs hxs => Returns.pure ?_
    exact ⟨_, rfl, ⟨hpack, rfl, fun x hx => (hxs x hx).1⟩, fun c hc => (hxs _ hc).2⟩
  · rename_i hpack
    refine (Returns.anything _).bind fun argument _ =>
      (returns_bindOne site.template p index argument).bind fun x hx => Returns.pure ?_
    exact ⟨x, rfl, hx.1.fits (by simpa using hpack), hx.2⟩

theorem returns_bindFrom (site : BindingSite) : ∀ (ps : ParameterList) (index : Nat)
    (done : Binding), Returns (bindFrom inst site index done ps) fun bound =>
      ∃ xs, bound.arguments = done.arguments ++ xs ∧
        List.Forall₂ (fun p (x : TemplateArgument) => x.Fits p ∧ x.HasType p.valueType) ps xs
  | [], _, done => Returns.pure ⟨[], (List.append_nil _).symm, .nil⟩
  | p :: ps, index, done => by
    rw [bindFrom]
    refine (returns_bindNext site index done p).bind fun next hnext => ?_
    obtain ⟨x, hx, hfits⟩ := hnext
    intro s bound hbound
    obtain ⟨xs, hxs, hall⟩ := returns_bindFrom site ps (index + 1) next s bound hbound
    refine ⟨x :: xs, ?_, .cons hfits hall⟩
    rw [hxs, hx, List.append_assoc, List.singleton_append]

theorem template_of_bindingSite {target : Symbol} {supplied : List Node} {span : Span}
    {site : BindingSite} (h : bindingSite target supplied span = .ok site) :
    ∃ data, target.entity = .template data ∧ site.parameters = data.parameters := by
  unfold bindingSite at h
  cases hentity : target.entity with
  | template data =>
    refine ⟨data, rfl, ?_⟩
    rw [hentity] at h
    simp only at h
    split at h
    · cases h
    · split at h <;> cases h
      rfl
  | _ =>
    rw [hentity] at h
    cases h

/-- Bound arguments fit the parameters of the template, and have their types. -/
theorem forall₂_of_bindSources {s : Session} {template : SymbolId} {data : TemplateData}
    (hentity : (s.table.symbol template).entity = .template data) {supplied : List Node}
    {span : Span} {bound : Binding}
    (h : (exec (bindSources inst template supplied span) s).1 = .ok bound) :
    List.Forall₂ (fun p (x : TemplateArgument) => x.Fits p ∧ x.HasType p.valueType)
      data.parameters bound.arguments := by
  rw [bindSources, exec_symbol_bind] at h
  cases hsite : bindingSite (s.table.symbol template) supplied span with
  | error d =>
    rw [exec_bind, exec_ofExcept, hsite] at h
    cases h
  | ok site =>
    rw [exec_ofExcept_bind _ hsite] at h
    obtain ⟨xs, hxs, hfits⟩ := returns_bindFrom site site.parameters 0 _ s bound h
    obtain ⟨data', hentity', hparameters⟩ := template_of_bindingSite hsite
    cases hentity.symm.trans hentity'
    rw [List.nil_append] at hxs
    rwa [hxs, ← hparameters]

theorem fits_of_bindSources {s : Session} {template : SymbolId} {data : TemplateData}
    (hentity : (s.table.symbol template).entity = .template data) {supplied : List Node}
    {span : Span} {bound : Binding}
    (h : (exec (bindSources inst template supplied span) s).1 = .ok bound) :
    List.Forall₂ (fun p (x : TemplateArgument) => x.Fits p) data.parameters bound.arguments :=
  (forall₂_of_bindSources hentity h).imp fun _ _ h => h.1

/-! ### Arguments that fit the same parameters -/

namespace TemplateArgument

mutual

def constants : TemplateArgument → List Constant
  | type _ _ => []
  | value c => [c]
  | pack _ elements => constantsOfList elements

def constantsOfList : List TemplateArgument → List Constant
  | [] => []
  | x :: xs => constants x ++ constantsOfList xs

end

theorem mem_constantsOfList {c : Constant} {xs : List TemplateArgument} :
    c ∈ constantsOfList xs ↔ ∃ x ∈ xs, c ∈ x.constants := by
  induction xs with
  | nil => simp [constantsOfList]
  | cons x xs ih => simp [constantsOfList, ih]

variable {alike : TypeId → TypeId → Prop} {x y : TemplateArgument} {xs ys : List TemplateArgument}

/-- Where types count as alike only if they are equal, and constants are the same only if
they have the same representation. -/
structure Separates (alike : TypeId → TypeId → Prop) (handles handles' : List Handle)
    (constants constants' : List Constant) : Prop where
  type : ∀ a b, Handle.type a ∈ handles → Handle.type b ∈ handles' → (alike a b ↔ a = b)
  constant : ∀ c ∈ constants, ∀ d ∈ constants', c.same d = true → c = d

theorem Separates.of_mem (h : Separates alike (handlesOfArguments xs) (handlesOfArguments ys)
    (constantsOfList xs) (constantsOfList ys)) (hx : x ∈ xs) (hy : y ∈ ys) :
    Separates alike x.handles y.handles x.constants y.constants where
  type a b ha hb := h.type a b (mem_handlesOfArguments.mpr ⟨x, hx, ha⟩)
    (mem_handlesOfArguments.mpr ⟨y, hy, hb⟩)
  constant c hc d hd := h.constant c (mem_constantsOfList.mpr ⟨x, hx, hc⟩) d
    (mem_constantsOfList.mpr ⟨y, hy, hd⟩)

theorem sameLists_iff_alikeLists
    (h : ∀ z ∈ xs.zip ys, (z.1.same z.2 = true ↔ z.1.Alike alike z.2)) :
    sameLists xs ys = true ↔ AlikeLists alike xs ys := by
  induction xs generalizing ys with
  | nil =>
    cases ys with
    | nil => exact ⟨fun _ => .nil, fun _ => rfl⟩
    | cons y ys => exact ⟨nofun, nofun⟩
  | cons x xs ih =>
    cases ys with
    | nil => exact ⟨nofun, nofun⟩
    | cons y ys =>
      have hhead := h (x, y) List.mem_cons_self
      have htail := ih fun z hz => h z (List.mem_cons_of_mem _ hz)
      rw [sameLists, Bool.and_eq_true, hhead, htail]
      constructor
      · rintro ⟨hxy, hxys⟩
        exact .cons hxy hxys
      · intro halike
        cases halike with
        | cons hxy hxys => exact ⟨hxy, hxys⟩

theorem IsOne.same_iff_alike {kind : ParameterKind} (hx : x.IsOne kind) (hy : y.IsOne kind)
    (h : Separates alike x.handles y.handles x.constants y.constants) :
    x.same y = true ↔ x.Alike alike y := by
  cases x with
  | type a text =>
    cases y with
    | type b text' =>
      rw [same, beq_iff_eq, ← h.type a b (by simp [handles]) (by simp [handles])]
      constructor
      · intro hab
        exact .type hab text text'
      · intro halike
        cases halike with
        | type hab => exact hab
    | value d => exact ⟨nofun, nofun⟩
    | pack kind elements => exact hy.elim
  | value c =>
    cases y with
    | type b text' => exact ⟨nofun, nofun⟩
    | value d =>
      constructor
      · intro hsame
        rw [h.constant c (by simp [constants]) d (by simp [constants]) hsame]
        exact .value d
      · intro halike
        cases halike
        exact Constant.same_refl c
    | pack kind elements => exact hy.elim
  | pack kind elements => exact hx.elim

theorem Fits.same_iff_alike {p : TemplateParameter} (hx : x.Fits p) (hy : y.Fits p)
    (h : Separates alike x.handles y.handles x.constants y.constants) :
    x.same y = true ↔ x.Alike alike y := by
  cases hp : p.isPack with
  | false => exact (hx.isOne hp).same_iff_alike (hy.isOne hp) h
  | true =>
    cases x with
    | pack kind elements =>
      cases y with
      | pack kind' elements' =>
        obtain ⟨_, rfl, helements⟩ := hx
        obtain ⟨_, rfl, helements'⟩ := hy
        have hlists := sameLists_iff_alikeLists fun z (hz : z ∈ elements.zip elements') =>
          (helements z.1 (List.of_mem_zip hz).1).same_iff_alike
            (helements' z.2 (List.of_mem_zip hz).2)
            (h.of_mem (List.of_mem_zip hz).1 (List.of_mem_zip hz).2)
        rw [same, beq_self_eq_true, Bool.true_and, hlists]
        constructor
        · intro halike
          exact .pack halike _ _
        · intro halike
          cases halike with
          | pack halike => exact halike
      | _ => exact absurd (hp.symm.trans hy.1) (by simp)
    | _ => exact absurd (hp.symm.trans hx.1) (by simp)

/-- Arguments that fit the same parameters are the same if they are alike, where types
and constants are separated. -/
theorem same_iff_alikeLists {ps : ParameterList}
    (hxs : List.Forall₂ (fun p (x : TemplateArgument) => x.Fits p) ps xs)
    (hys : List.Forall₂ (fun p (y : TemplateArgument) => y.Fits p) ps ys)
    (h : Separates alike (handlesOfArguments xs) (handlesOfArguments ys) (constantsOfList xs)
      (constantsOfList ys)) : Arguments.same xs ys = true ↔ AlikeLists alike xs ys := by
  have hfits : ∀ z ∈ xs.zip ys, ∃ p, z.1.Fits p ∧ z.2.Fits p := by
    clear h
    induction hxs generalizing ys with
    | nil => simp
    | cons hx _ ih =>
      cases hys with
      | cons hy hys => exact List.forall_mem_cons.mpr ⟨⟨_, hx, hy⟩, ih hys⟩
  refine sameLists_iff_alikeLists fun z hz => ?_
  obtain ⟨p, hx, hy⟩ := hfits z hz
  exact hx.same_iff_alike hy (h.of_mem (List.of_mem_zip hz).1 (List.of_mem_zip hz).2)

end TemplateArgument

end TemplateAnalysis
