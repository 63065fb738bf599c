import TemplateAnalysis.Proofs.Session.StructuralTypes
import TemplateAnalysis.Proofs.Session.TypedConstants

/-!
# Functions and objects are told apart by their types

What a declaration introduces is read off its declarator first, and then off the type. The
last part of a declarator that forms a type decides whether the type is one of a function,
so both readings agree; a declarator without such a part says nothing, and the type is the
one that the specifiers name. A function keeps the signature of its type in its internal
name, and since neither types nor nested names change, it is the signature of the type at
any later point.
-/

namespace TemplateAnalysis

open Session Analysis

variable {s u : Session}

/-! ### Declarators and the types that they form -/

def Declarator.former? (d : Declarator) : Option DeclaratorPart :=
  (d.filter (·.name?.isNone)).getLast?

theorem Declarator.isFunction_eq (d : Declarator) :
    d.isFunction = (d.former?.map (·.isFunction)).getD false := rfl

theorem Declarator.former?_cons (part : DeclaratorPart) (rest : Declarator) :
    former? (part :: rest) = (former? rest).or (if part.name?.isNone then some part else none) := by
  rw [former?, former?, List.filter_cons]
  split
  · rw [List.getLast?_cons]
    cases (List.filter (fun x => x.name?.isNone) rest).getLast? <;> rfl
  · rw [Option.or_none]

namespace Session

/-- A name leaves the type alone, and any other part of a declarator forms one. -/
theorem denotePart_eq_some {current t : TypeTree} {part : DeclaratorPart}
    (h : s.denotePart current part = some t) :
    (part.name?.isNone = false → t = current) ∧
      (part.name?.isNone = true → t.isFunction = part.isFunction) := by
  cases part with
  | name text span => exact ⟨fun _ => (Option.some.inj h).symm, nofun⟩
  | pointer qualifiers span =>
    obtain ⟨_, _, h⟩ := Option.bind_eq_some_iff.mp h
    cases h
    exact ⟨nofun, fun _ => rfl⟩
  | lvalueReference span | rvalueReference span =>
    obtain ⟨_, _, h⟩ := Option.bind_eq_some_iff.mp h
    cases h
    exact ⟨nofun, fun _ => by cases current <;> rfl⟩
  | array bound span =>
    cases bound with
    | none =>
      obtain ⟨_, _, h⟩ := Option.bind_eq_some_iff.mp h
      cases h
      exact ⟨nofun, fun _ => rfl⟩
    | some expression =>
      obtain ⟨_, _, h⟩ := Option.bind_eq_some_iff.mp h
      obtain ⟨_, _, h⟩ := Option.bind_eq_some_iff.mp h
      cases h
      exact ⟨nofun, fun _ => rfl⟩
  | function parameters variadic qualifiers span =>
    obtain ⟨_, _, h⟩ := Option.bind_eq_some_iff.mp h
    obtain ⟨_, _, h⟩ := Option.bind_eq_some_iff.mp h
    cases h
    exact ⟨nofun, fun _ => rfl⟩

/-- The last part that forms a type decides whether the type is one of a function; without
such a part the type stays. -/
theorem denoteParts_eq_some {parts : List DeclaratorPart} {current t : TypeTree}
    (h : s.denoteParts current parts = some t) :
    (Declarator.former? parts = none → t = current) ∧
      ∀ part, Declarator.former? parts = some part → t.isFunction = part.isFunction := by
  induction parts generalizing current with
  | nil => exact ⟨fun _ => (Option.some.inj h).symm, nofun⟩
  | cons part rest ih =>
    obtain ⟨next, hnext, hrest⟩ := Option.bind_eq_some_iff.mp h
    obtain ⟨hkeep, hform⟩ := denotePart_eq_some hnext
    obtain ⟨hnone, hsome⟩ := ih hrest
    rw [Declarator.former?_cons]
    cases hformer : Declarator.former? rest with
    | some last => exact ⟨nofun, fun part' h => hsome part' (hformer.trans h)⟩
    | none =>
      obtain rfl := hnone hformer
      rw [Option.none_or]
      cases hpart : part.name?.isNone with
      | false => exact ⟨fun _ => hkeep hpart, nofun⟩
      | true => exact ⟨nofun, fun part' h => by cases h; exact hform hpart⟩

/-- The type that specifiers and a declarator resolve to never contradicts what is read off the
declarator. What reads as a function has the type of one; where a part forms a type, what does
not read as a function has another type; and a declarator without such a part leaves the type to
the specifiers. -/
structure ReadsDeclarator (s : Session) (specifiers : Specifiers) (declarator : Declarator)
    (type : TypeId) : Prop where
  function : declarator.isFunction = true → s.types.isFunction type = true
  formed : declarator.former?.isSome = true → s.types.isFunction type = declarator.isFunction
  named : declarator.former? = none → s.denoteSpecifiers specifiers = some (s.types.tree type)

theorem readsDeclarator_of_denotedType (hs : s.Closed) {specifiers : Specifiers}
    {declarator : Declarator} {type : TypeId} (htype : s.types.Has type)
    (h : s.denotedType specifiers declarator = some (s.types.tree type)) :
    s.ReadsDeclarator specifiers declarator type := by
  obtain ⟨base, hbase, hparts⟩ := Option.bind_eq_some_iff.mp h
  obtain ⟨hnone, hsome⟩ := denoteParts_eq_some hparts
  have hformed : declarator.former?.isSome = true →
      s.types.isFunction type = declarator.isFunction := by
    intro hformer
    obtain ⟨part, hpart⟩ := Option.isSome_iff_exists.mp hformer
    rw [← TypeGraph.isFunction_tree hs.types htype, hsome part hpart, Declarator.isFunction_eq,
      hpart]
    rfl
  refine ⟨fun hfunction => ?_, hformed, fun hformer => hnone hformer ▸ hbase⟩
  rw [hformed, hfunction]
  -- Without a part that forms a type the declarator does not read as a function.
  rw [Declarator.isFunction_eq] at hfunction
  cases hformer : declarator.former? with
  | some part => rfl
  | none =>
    rw [hformer] at hfunction
    cases hfunction

/-! ### Functions carry the signatures of their types -/

/-- What is recorded with a function is read off its type: that it is one of a function, and
the signature, which the internal name has behind the sized name. -/
structure IsTypedFunction (s : Session) (x : Symbol) (data : FunctionData) : Prop where
  isFunction : s.types.isFunction data.type = true
  signature : s.table.signature? s.types data.type = some data.signature
  mangled : x.mangled = sourceName x.name ++ data.signature

theorem IsTypedFunction.grows (hs : s.Closed) (hu : u.Closed) (hgrows : s.Grows u) {x y : Symbol}
    (hxy : x.Grows y) {data : FunctionData} (htype : s.types.Has data.type)
    (h : s.IsTypedFunction x data) : u.IsTypedFunction y data where
  isFunction := (hgrows.types.isFunction_eq htype).trans h.isFunction
  signature := (hs.signature?_eq hu hgrows htype).trans h.signature
  mangled := by rw [hxy.mangled, hxy.name, h.mangled]

def HasTypedFunctions (s : Session) : Prop :=
  ∀ id data, (s.table.symbol id).entity = .function data →
    s.IsTypedFunction (s.table.symbol id) data

theorem HasTypedFunctions.grows (hs : s.Closed) (hu : u.Closed) (hgrows : s.Grows u)
    (h : s.HasTypedFunctions) {id : SymbolId} (hid : s.table.HasSymbol id) {data : FunctionData}
    (hdata : (u.table.symbol id).entity = .function data) :
    u.IsTypedFunction (u.table.symbol id) data := by
  have hsymbol := hgrows.table.symbol id hid
  have hdata := hsymbol.function_iff.mp hdata
  have hknown := (hs.symbol id hid).known
  rw [hdata] at hknown
  exact (h id data hdata).grows hs hu hgrows hsymbol
    (hknown (.type data.type) (by simp [Entity.handles]))

theorem Change.hasTypedFunctions {role : Role} (hs : s.Closed) (h : s.Change role u)
    (htyped : s.HasTypedFunctions) : u.HasTypedFunctions := by
  have hu := h.closed hs
  have hgrows := h.grows hs
  intro id data hdata
  rcases (h.adds hs).symbol id (SymbolTable.has_of_entity hdata (by simp)) with hold | hnew
  · exact htyped.grows hs hu hgrows hold hdata
  · cases hnew with
    | declared kind => exact absurd (congrArg Entity.kind hdata) kind
    | registered kind => cases (congrArg Entity.kind hdata).symm.trans kind
    | overload type keywords signature entity known encoding mangled =>
      cases hdata.symm.trans entity
      refine ⟨?_, (hs.signature?_eq hu hgrows known).trans encoding, mangled⟩
      rw [hgrows.types.isFunction_eq known, hs.isFunction_of_signature? known encoding]

theorem Run.hasTypedFunctions {config : Config} (h : (start config).Run s) : s.HasTypedFunctions :=
  h.keeps HasTypedFunctions (.start config)
    (fun _ _ hv hchange htyped => hchange.hasTypedFunctions hv htyped)
    (fun _ _ hv hw hgrows htyped _ _ hdata =>
      htyped.grows hv hw hgrows (SymbolTable.has_of_entity hdata (by simp)) hdata)
    fun _ _ hdata => absurd (SymbolTable.has_of_entity hdata (by simp)) (Nat.not_lt_zero _)

/-- In every session that a run leads to, what is recorded with a function is what its type says,
and no object has the type of a function. What is declared outside of headers, and is no typedef,
is a function exactly if the specifiers and the declarator resolve to the type of a function, and
an object otherwise; what is read off the declarator first is never contradicted by the type. -/
theorem tellsApart_of_run {config : Config} (hs : (start config).Run s) :
    (∀ id data, (s.table.symbol id).entity = .function data →
      s.IsTypedFunction (s.table.symbol id) data) ∧
    (∀ id data, (s.table.symbol id).entity = .object data →
      s.types.isFunction data.type = false) ∧
    ∀ specifiers declarator initializer span,
      (Operation.declareSimple specifiers declarator initializer span).IsOn s →
        (∀ type u, exec (resolveType instantiate specifiers declarator span) s = (.ok type, u) →
          u.ReadsDeclarator specifiers declarator type) ∧
        (s.IsOutside → specifiers.keywords.contains .typedef = false →
          ∀ id u, exec (declareSimple specifiers declarator initializer span) s = (.ok id, u) →
            s.DeclaresByType specifiers declarator span id u) := by
  have hclosed := hs.closed
  refine ⟨hs.hasTypedFunctions, fun id data hdata => ?_,
    fun specifiers declarator initializer span hcall => ⟨fun type u hexec => ?_,
      fun hout htypedef id u hexec => ?_⟩⟩
  · have htyped := hs.hasTypedObjects id
    rw [hdata] at htyped
    exact htyped.1
  · obtain ⟨hu, _, htype, hdenoted⟩ := denotedType_of_resolveType hclosed
      (.of_known hcall.known.left) hexec
    exact readsDeclarator_of_denotedType hu htype (hdenoted u hu (.refl u))
  · have hdeclares := (leads_declareSimple hclosed hcall.known.left.left hcall.known.left.right
      initializer span).result id (congrArg Prod.fst hexec) hout htypedef
    rwa [hexec] at hdeclares

/-- With `F` a typedef of `int(int)`, no part of the declarator of `F f` forms a type, and `f` is a
function since `F` is the type of one; `n` is an object. -/
theorem tellsApart_of_run_alias :
    let int : Specifiers := ⟨.singleton .int, none⟩
    let parameters : List FunctionParameter := [⟨int, [], none, .synthesized⟩]
    let declared := Operation.declareTypedef "F" int [.function parameters false .none .synthesized]
      .synthesized
    let s := (Operation.declareObject "n" int [] none .synthesized).after
      (declared.after (start .standard))
    let specifiers : Specifiers := ⟨.empty, some (.name "F" ⟨0⟩ .synthesized)⟩
    let declarator : Declarator := [.name "f" .synthesized]
    let t := (exec (resolveType instantiate specifiers declarator .synthesized) s).2
    let u := (exec (declareSimple specifiers declarator none .synthesized) s).2
    (exec (resolveType instantiate specifiers declarator .synthesized) s).1 = .ok ⟨1⟩ ∧
      t.ReadsDeclarator specifiers declarator ⟨1⟩ ∧ declarator.former? = none ∧
      (exec (declareSimple specifiers declarator none .synthesized) s).1 = .ok ⟨2⟩ ∧
      s.DeclaresByType specifiers declarator .synthesized ⟨2⟩ u ∧
      ∃ f n, (u.table.symbol ⟨2⟩).entity = .function f ∧ u.types.isFunction f.type = true ∧
        (s.table.symbol ⟨1⟩).entity = .object n ∧ s.types.isFunction n.type = false := by
  intro int parameters declared s specifiers declarator t u
  have hs : (start .standard).Run s :=
    (Run.refl.step declared .of_handles_nil).step _ .of_handles_nil
  have htypedef : s.table.HasSymbol ⟨0⟩ := by decide +kernel
  have hop : (Operation.declareSimple specifiers declarator none .synthesized).IsOn s :=
    .of_symbol htypedef
  have hu : (start .standard).Run u := by
    have hstep := hs.step _ hop
    rwa [Operation.after, Operation.perform, exec_discard] at hstep
  have hresolved : (exec (resolveType instantiate specifiers declarator .synthesized) s).1 =
      .ok ⟨1⟩ := by decide +kernel
  have hresult : (exec (declareSimple specifiers declarator none .synthesized) s).1 = .ok ⟨2⟩ := by
    decide +kernel
  have hout : (s.table.scope s.current).isOpenHeader = false := by decide +kernel
  obtain ⟨f, hf⟩ : ∃ f, (u.table.symbol ⟨2⟩).entity = .function f :=
    Entity.function_of_kind (by decide +kernel)
  obtain ⟨n, hn⟩ : ∃ n, (s.table.symbol ⟨1⟩).entity = .object n :=
    Entity.object_of_kind (by decide +kernel)
  obtain ⟨hfunctions, _, _⟩ := tellsApart_of_run hu
  obtain ⟨_, hobjects, hcalls⟩ := tellsApart_of_run hs
  obtain ⟨hreads, hdeclares⟩ := hcalls specifiers declarator none .synthesized hop
  have hread := hreads ⟨1⟩ t (exec_eq_of_ok hresolved)
  have hsort := hdeclares hout (KeywordSet.contains_empty _) ⟨2⟩ u (exec_eq_of_ok hresult)
  have hformer : declarator.former? = none := rfl
  exact ⟨hresolved, hread, hformer, hresult, hsort, f, n, hf, (hfunctions ⟨2⟩ f hf).isFunction,
    hn, hobjects ⟨1⟩ n hn⟩

end Session

end TemplateAnalysis
