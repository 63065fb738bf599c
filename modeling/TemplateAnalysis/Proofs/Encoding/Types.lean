import TemplateAnalysis.Proofs.Encoding.Bracket
import TemplateAnalysis.Proofs.TypeGraph.Symbols

/-!
# The tokens of types

The tokens of a type, given those of the names of user-defined types. The encoding of
a type is their text.
-/

namespace TemplateAnalysis

open Token

def Qualifiers.tokens (q : Qualifiers) : List Token :=
  (if q.isVolatile then [letter 'V'] else []) ++ (if q.isConst then [letter 'K'] else [])

def Primitive.tokens (p : Primitive) : List Token := p.encoding.toList.map letter

theorem Qualifiers.toList_encoding (q : Qualifiers) : q.encoding.toList = spell q.tokens := by
  obtain ⟨c, v⟩ := q
  cases c <;> cases v <;> rfl

theorem Primitive.toList_encoding (p : Primitive) : p.encoding.toList = spell p.tokens := by
  cases p <;> rfl

namespace TypeTree

def parameterListTokens (isEmpty : Bool) (parameters : List Token) (variadic : Bool) :
    List Token :=
  if isEmpty && !variadic then [letter 'v']
  else parameters ++ (if variadic then [letter 'z'] else [])

mutual

def tokens (codes : SymbolId → List Token) : TypeTree → List Token
  | base (.primitive p q) => q.tokens ++ p.tokens
  | base (.symbol s q) => q.tokens ++ codes s
  | pointer target q => q.tokens ++ letter 'P' :: tokens codes target
  | lvalueReference referee => letter 'R' :: tokens codes referee
  | rvalueReference referee => letter 'O' :: tokens codes referee
  | array element n => bound n :: tokens codes element
  | function result parameters variadic q =>
    q.tokens ++ letter 'F' :: (tokens codes result ++
      parameterListTokens parameters.isEmpty (tokensOfList codes parameters) variadic ++
        [letter 'E'])

def tokensOfList (codes : SymbolId → List Token) : List TypeTree → List Token
  | [] => []
  | t :: ts => tokens codes t ++ tokensOfList codes ts

end

variable {codes : SymbolId → List Token} {nameOf : SymbolId → String}

/-! ### The encoding is the text of the tokens -/

theorem toList_parameterListEncoding {parameters : List String} {ts : List Token} {isEmpty : Bool}
    (hempty : parameters.isEmpty = isEmpty) (hts : (String.join parameters).toList = spell ts)
    (variadic : Bool) :
    (parameterListEncoding parameters variadic).toList =
      spell (parameterListTokens isEmpty ts variadic) := by
  rw [parameterListEncoding, parameterListTokens, hempty]
  split
  · rfl
  · cases variadic <;> simp [hts, spelling]

theorem isEmpty_encodings (ts : List TypeTree) : (encodings nameOf ts).isEmpty = ts.isEmpty := by
  cases ts <;> rfl

mutual

theorem toList_encoding : ∀ t : TypeTree,
    (∀ s ∈ t.symbols, (nameOf s).toList = spell (codes s)) →
      (t.encoding nameOf).toList = spell (t.tokens codes)
  | base (.primitive p q), _ => by
    simp [encoding, tokens, BaseKey.encoding, Qualifiers.toList_encoding, Primitive.toList_encoding]
  | base (.symbol s q), h => by
    simp [encoding, tokens, BaseKey.encoding, Qualifiers.toList_encoding,
      h s (by simp [symbols, BaseKey.symbols])]
  | pointer target q, h => by
    simp [encoding, tokens, spelling, Qualifiers.toList_encoding, toList_encoding target h]
  | lvalueReference referee, h => by
    simp [encoding, tokens, spelling, toList_encoding referee h]
  | rvalueReference referee, h => by
    simp [encoding, tokens, spelling, toList_encoding referee h]
  | array element n, h => by
    simp [encoding, tokens, spelling, toList_encoding element h]
  | function result parameters variadic q, h => by
    have hresult := toList_encoding result fun s hs => h s (List.mem_append_left _ hs)
    have hparameters := toList_parameterListEncoding (isEmpty_encodings parameters)
      (toList_encodings parameters fun s hs => h s (List.mem_append_right _ hs)) variadic
    simp [encoding, tokens, spelling, Qualifiers.toList_encoding, hresult, hparameters]
termination_by structural t => t

theorem toList_encodings : ∀ ts : List TypeTree,
    (∀ s ∈ symbolsOfList ts, (nameOf s).toList = spell (codes s)) →
      (String.join (encodings nameOf ts)).toList = spell (tokensOfList codes ts)
  | [], _ => rfl
  | t :: ts, h => by
    have ht := toList_encoding t fun s hs => h s (List.mem_append_left _ hs)
    have hts := toList_encodings ts fun s hs => h s (List.mem_append_right _ hs)
    rw [encodings, String.join_cons, String.toList_append, ht, hts, tokensOfList, spell_append]
termination_by structural ts => ts

end

def signatureTokens (codes : SymbolId → List Token) (parameters : List TypeTree)
    (variadic : Bool) (q : Qualifiers) : List Token :=
  q.tokens ++ parameterListTokens parameters.isEmpty (tokensOfList codes parameters) variadic

/-- Only function types have a signature, which is the text of its tokens. -/
theorem signature?_eq_some {t : TypeTree} {signature : String}
    (h : t.signature? nameOf = some signature)
    (hcodes : ∀ s ∈ t.symbols, (nameOf s).toList = spell (codes s)) :
    ∃ result parameters variadic q, t = function result parameters variadic q ∧
      signature.toList = spell (signatureTokens codes parameters variadic q) := by
  cases t with
  | function result parameters variadic q =>
    have hparameters := toList_parameterListEncoding (isEmpty_encodings parameters)
      (toList_encodings parameters fun s hs => hcodes s (List.mem_append_right _ hs)) variadic
    refine ⟨result, parameters, variadic, q, rfl, ?_⟩
    rw [← Option.some.inj h, String.toList_append, Qualifiers.toList_encoding, hparameters,
      signatureTokens, spell_append]
  | _ => cases h

/-! ### The tokens may stand in a name -/

theorem isCode_qualifiers (q : Qualifiers) : IsCode q.tokens := by
  obtain ⟨c, v⟩ := q
  cases c <;> cases v
  · exact .nil
  · exact .letter (by decide) .nil
  · exact .letter (by decide) .nil
  · exact .letter (by decide) (.letter (by decide) .nil)

theorem isCode_primitive (p : Primitive) : IsCode p.tokens := by
  have hplain : ∀ c ∈ p.encoding.toList, IsPlain c := by
    cases p <;> simp [Primitive.encoding, IsPlain, opens, closes]
  have hletters : ∀ cs : List Char, (∀ c ∈ cs, IsPlain c) → IsCode (cs.map letter) := by
    intro cs h
    induction cs with
    | nil => exact .nil
    | cons c cs ih =>
      exact .letter (h c List.mem_cons_self) (ih fun x hx => h x (List.mem_cons_of_mem _ hx))
  exact hletters _ hplain

theorem isCode_parameterListTokens (isEmpty : Bool) {ts : List Token} (hts : IsCode ts)
    (variadic : Bool) : IsCode (parameterListTokens isEmpty ts variadic) := by
  rw [parameterListTokens]
  split
  · exact .letter (by decide) .nil
  · refine hts.append ?_
    split
    · exact .letter (by decide) .nil
    · exact .nil

mutual

theorem isCode_tokens : ∀ t : TypeTree, (∀ s ∈ t.symbols, IsCode (codes s)) →
    IsCode (t.tokens codes)
  | base (.primitive p q), _ => (isCode_qualifiers q).append (isCode_primitive p)
  | base (.symbol s q), h =>
    (isCode_qualifiers q).append (h s (by simp [symbols, BaseKey.symbols]))
  | pointer target q, h =>
    (isCode_qualifiers q).append (.letter (by decide) (isCode_tokens target h))
  | lvalueReference referee, h => .letter (by decide) (isCode_tokens referee h)
  | rvalueReference referee, h => .letter (by decide) (isCode_tokens referee h)
  | array element n, h => .cons trivial rfl rfl (isCode_tokens element h)
  | function result parameters variadic q, h =>
    have hresult := isCode_tokens result fun s hs => h s (List.mem_append_left _ hs)
    have hparameters := isCode_tokensOfList parameters fun s hs => h s (List.mem_append_right _ hs)
    (isCode_qualifiers q).append (.bracket ⟨rfl, by decide, by decide⟩ rfl
      (hresult.append (isCode_parameterListTokens _ hparameters variadic)))
termination_by structural t => t

theorem isCode_tokensOfList : ∀ ts : List TypeTree, (∀ s ∈ symbolsOfList ts, IsCode (codes s)) →
    IsCode (tokensOfList codes ts)
  | [], _ => .nil
  | t :: ts, h =>
    (isCode_tokens t fun s hs => h s (List.mem_append_left _ hs)).append
      (isCode_tokensOfList ts fun s hs => h s (List.mem_append_right _ hs))
termination_by structural ts => ts

end

end TypeTree

end TemplateAnalysis
