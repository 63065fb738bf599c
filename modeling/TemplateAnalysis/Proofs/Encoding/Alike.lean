import TemplateAnalysis.Proofs.Encoding.Types

/-!
# Types with one encoding

`Alike` says what types with one encoding have in common. It leaves open two things:
user-defined types with one name are encoded the same, and so are a parameter list that
is empty and one that is `void`. Parameters that an analysis has adjusted are never
`void`, so that types over such parameters are alike only if they are equal.
-/

namespace TemplateAnalysis.TypeTree

variable {nameOf : SymbolId → String}

variable (same : SymbolId → SymbolId → Prop)

/-- Whether a parameter list is encoded as `void`. -/
def IsVoidList (parameters : List TypeTree) : Prop :=
  parameters = [] ∨ parameters = [base (.primitive .void .none)]

mutual

/-- Two types are the same, but for user-defined types that count as the same and for
parameter lists that are encoded as `void`. -/
inductive Alike : TypeTree → TypeTree → Prop
  | primitive (p : Primitive) (q : Qualifiers) :
    Alike (base (.primitive p q)) (base (.primitive p q))
  | symbol {s s' : SymbolId} (h : same s s') (q : Qualifiers) :
    Alike (base (.symbol s q)) (base (.symbol s' q))
  | pointer {t u : TypeTree} (h : Alike t u) (q : Qualifiers) : Alike (pointer t q) (pointer u q)
  | lvalueReference {t u : TypeTree} (h : Alike t u) :
    Alike (lvalueReference t) (lvalueReference u)
  | rvalueReference {t u : TypeTree} (h : Alike t u) :
    Alike (rvalueReference t) (rvalueReference u)
  | array {t u : TypeTree} (h : Alike t u) (n : Option UInt64) : Alike (array t n) (array u n)
  | function {t u : TypeTree} {ps qs : List TypeTree} (h : Alike t u)
    (parameters : AlikeLists ps qs) (variadic : Bool) (q : Qualifiers) :
    Alike (function t ps variadic q) (function u qs variadic q)
  | void {t u : TypeTree} {ps qs : List TypeTree} (h : Alike t u) (left : IsVoidList ps)
    (right : IsVoidList qs) (q : Qualifiers) : Alike (function t ps false q) (function u qs false q)

inductive AlikeLists : List TypeTree → List TypeTree → Prop
  | nil : AlikeLists [] []
  | cons {t u : TypeTree} {ts us : List TypeTree} (head : Alike t u) (tail : AlikeLists ts us) :
    AlikeLists (t :: ts) (u :: us)

end

variable {same}

mutual

theorem Alike.refl (h : ∀ s, same s s) : ∀ t : TypeTree, Alike same t t
  | base (.primitive p q) => .primitive p q
  | base (.symbol s q) => .symbol (h s) q
  | pointer target q => .pointer (Alike.refl h target) q
  | lvalueReference referee => .lvalueReference (Alike.refl h referee)
  | rvalueReference referee => .rvalueReference (Alike.refl h referee)
  | array element n => .array (Alike.refl h element) n
  | function result parameters variadic q =>
    .function (Alike.refl h result) (AlikeLists.refl h parameters) variadic q
termination_by structural t => t

theorem AlikeLists.refl (h : ∀ s, same s s) : ∀ ts : List TypeTree, AlikeLists same ts ts
  | [] => .nil
  | t :: ts => .cons (Alike.refl h t) (AlikeLists.refl h ts)
termination_by structural ts => ts

end

mutual

theorem Alike.mono {same' : SymbolId → SymbolId → Prop} : ∀ {t u : TypeTree}, Alike same t u →
    (∀ s ∈ t.symbols, ∀ s' ∈ u.symbols, same s s' → same' s s') → Alike same' t u
  | _, _, .primitive p q, _ => .primitive p q
  | _, _, .symbol hs q, h =>
    .symbol (h _ (by simp [symbols, BaseKey.symbols]) _ (by simp [symbols, BaseKey.symbols]) hs) q
  | _, _, .pointer ht q, h => .pointer (ht.mono h) q
  | _, _, .lvalueReference ht, h => .lvalueReference (ht.mono h)
  | _, _, .rvalueReference ht, h => .rvalueReference (ht.mono h)
  | _, _, .array ht n, h => .array (ht.mono h) n
  | _, _, .function ht hps variadic q, h =>
    .function
      (ht.mono fun s hs s' hs' => h s (List.mem_append_left _ hs) s' (List.mem_append_left _ hs'))
      (hps.mono fun s hs s' hs' => h s (List.mem_append_right _ hs) s'
        (List.mem_append_right _ hs')) variadic q
  | _, _, .void ht hps hqs q, h =>
    .void (ht.mono fun s hs s' hs' => h s (List.mem_append_left _ hs) s'
      (List.mem_append_left _ hs')) hps hqs q

theorem AlikeLists.mono {same' : SymbolId → SymbolId → Prop} : ∀ {ts us : List TypeTree},
    AlikeLists same ts us →
    (∀ s ∈ symbolsOfList ts, ∀ s' ∈ symbolsOfList us, same s s' → same' s s') →
      AlikeLists same' ts us
  | _, _, .nil, _ => .nil
  | _, _, .cons ht hts, h =>
    .cons
      (ht.mono fun s hs s' hs' => h s (List.mem_append_left _ hs) s' (List.mem_append_left _ hs'))
      (hts.mono fun s hs s' hs' => h s (List.mem_append_right _ hs) s'
        (List.mem_append_right _ hs'))

end

theorem IsVoidList.parameterListEncoding_eq {ps : List TypeTree} (h : IsVoidList ps) :
    parameterListEncoding (encodings nameOf ps) false = "v" := by
  rcases h with rfl | rfl <;> rfl

mutual

/-- Types that are alike in the names of user-defined types are encoded the same. -/
theorem Alike.encoding_eq : ∀ {t u : TypeTree}, Alike (fun s s' => nameOf s = nameOf s') t u →
    t.encoding nameOf = u.encoding nameOf
  | _, _, .primitive p q => rfl
  | _, _, .symbol h q => congrArg (q.encoding ++ ·) h
  | _, _, .pointer h q => congrArg (q.encoding ++ "P" ++ ·) h.encoding_eq
  | _, _, .lvalueReference h => congrArg ("R" ++ ·) h.encoding_eq
  | _, _, .rvalueReference h => congrArg ("O" ++ ·) h.encoding_eq
  | _, _, .array h n => congrArg (arrayBoundEncoding n ++ ·) h.encoding_eq
  | _, _, .function h hps variadic q => by
    rw [encoding, encoding, h.encoding_eq, hps.encodings_eq]
  | _, _, .void h hps hqs q => by
    rw [encoding, encoding, h.encoding_eq, hps.parameterListEncoding_eq,
      hqs.parameterListEncoding_eq]

theorem AlikeLists.encodings_eq : ∀ {ts us : List TypeTree},
    AlikeLists (fun s s' => nameOf s = nameOf s') ts us →
      encodings nameOf ts = encodings nameOf us
  | _, _, .nil => rfl
  | _, _, .cons h hs => by rw [encodings, encodings, h.encoding_eq, hs.encodings_eq]

end

/-! ### Types over adjusted parameters -/

def IsParameter : TypeTree → Prop
  | base key => key.qualifiers = .none ∧ key ≠ .primitive .void .none
  | pointer _ q => q = .none
  | lvalueReference _ | rvalueReference _ => True
  | array _ _ | function _ _ _ _ => False

mutual

/-- Whether all parameters of the functions in a type can be parameters. -/
def IsAdjusted : TypeTree → Prop
  | base _ => True
  | pointer target _ => IsAdjusted target
  | lvalueReference referee => IsAdjusted referee
  | rvalueReference referee => IsAdjusted referee
  | array element _ => IsAdjusted element
  | function result parameters _ _ => IsAdjusted result ∧ AreParameters parameters

def AreParameters : List TypeTree → Prop
  | [] => True
  | t :: ts => (t.IsParameter ∧ IsAdjusted t) ∧ AreParameters ts

end

theorem areParameters_iff {ts : List TypeTree} :
    AreParameters ts ↔ ∀ t ∈ ts, t.IsParameter ∧ t.IsAdjusted := by
  induction ts with
  | nil => simp [AreParameters]
  | cons t ts ih => simp [AreParameters, ih]

/-- No parameter is `void`, so that a list of parameters is encoded as `void` only if it
is empty. -/
theorem IsVoidList.eq_nil {ps : List TypeTree} (h : IsVoidList ps) (hps : AreParameters ps) :
    ps = [] := by
  rcases h with rfl | rfl
  · rfl
  · exact absurd rfl hps.1.1.2

mutual

/-- Types over adjusted parameters are alike in their symbols only if they are equal. -/
theorem Alike.eq : ∀ {t u : TypeTree}, Alike Eq t u → t.IsAdjusted → u.IsAdjusted → t = u
  | _, _, .primitive p q, _, _ => rfl
  | _, _, .symbol rfl q, _, _ => rfl
  | _, _, .pointer h q, ht, hu => congrArg (pointer · q) (h.eq ht hu)
  | _, _, .lvalueReference h, ht, hu => congrArg lvalueReference (h.eq ht hu)
  | _, _, .rvalueReference h, ht, hu => congrArg rvalueReference (h.eq ht hu)
  | _, _, .array h n, ht, hu => congrArg (array · n) (h.eq ht hu)
  | _, _, .function h hps variadic q, ht, hu => by
    rw [h.eq ht.1 hu.1, hps.eq_of_parameters ht.2 hu.2]
  | _, _, .void h hps hqs q, ht, hu => by
    rw [h.eq ht.1 hu.1, hps.eq_nil ht.2, hqs.eq_nil hu.2]

theorem AlikeLists.eq_of_parameters : ∀ {ts us : List TypeTree}, AlikeLists Eq ts us →
    AreParameters ts → AreParameters us → ts = us
  | _, _, .nil, _, _ => rfl
  | _, _, .cons h hs, hts, hus => by
    rw [h.eq hts.1.2 hus.1.2, hs.eq_of_parameters hts.2 hus.2]

end

end TemplateAnalysis.TypeTree
