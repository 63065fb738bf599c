import TemplateAnalysis.Proofs.Ast.Handles
import TemplateAnalysis.Proofs.Encoding.TypeEnds

/-!
# Reading arguments off instance keys

The tokens of bound arguments. What an argument is can be told by its first token, so
that the key of an instance tells its arguments, up to what the encodings of their
types leave open.
-/

namespace TemplateAnalysis

open Token TypeTree

namespace TemplateArgument

mutual

def tokens (types : TypeId → List Token) : TemplateArgument → List Token
  | type id _ => types id
  | value c => [constant c]
  | pack _ elements => letter 'J' :: (tokensOfList types elements ++ [letter 'E'])

def tokensOfList (types : TypeId → List Token) : List TemplateArgument → List Token
  | [] => []
  | x :: xs => tokens types x ++ tokensOfList types xs

end

section Alike

variable (same : TypeId → TypeId → Prop)

mutual

/-- Two arguments are the same but for types that count as the same. Constants are the
same if they have the same representation. -/
inductive Alike : TemplateArgument → TemplateArgument → Prop
  | type {a b : TypeId} (h : same a b) (text text' : String) : Alike (type a text) (type b text')
  | value (c : Constant) : Alike (value c) (value c)
  | pack {xs ys : List TemplateArgument} (h : AlikeLists xs ys) (kind kind' : ParameterKind) :
    Alike (pack kind xs) (pack kind' ys)

inductive AlikeLists : List TemplateArgument → List TemplateArgument → Prop
  | nil : AlikeLists [] []
  | cons {x y : TemplateArgument} {xs ys : List TemplateArgument} (head : Alike x y)
    (tail : AlikeLists xs ys) : AlikeLists (x :: xs) (y :: ys)

end

variable {same}

mutual

theorem Alike.mono {same' : TypeId → TypeId → Prop} : ∀ {x y : TemplateArgument}, Alike same x y →
    (∀ a b, Handle.type a ∈ x.handles → Handle.type b ∈ y.handles → same a b → same' a b) →
      Alike same' x y
  | _, _, .type hab text text', h =>
    .type (h _ _ (by simp [handles]) (by simp [handles]) hab) text text'
  | _, _, .value c, _ => .value c
  | _, _, .pack hs kind kind', h => .pack (hs.mono h) kind kind'

theorem AlikeLists.mono {same' : TypeId → TypeId → Prop} : ∀ {xs ys : List TemplateArgument},
    AlikeLists same xs ys →
    (∀ a b, Handle.type a ∈ handlesOfArguments xs → Handle.type b ∈ handlesOfArguments ys →
      same a b → same' a b) → AlikeLists same' xs ys
  | _, _, .nil, _ => .nil
  | _, _, .cons hx hxs, h =>
    .cons
      (hx.mono fun a b ha hb => h a b (List.mem_append_left _ ha) (List.mem_append_left _ hb))
      (hxs.mono fun a b ha hb => h a b (List.mem_append_right _ ha) (List.mem_append_right _ hb))

end

mutual

theorem Alike.encoding_eq {typeEncoding : TypeId → String} : ∀ {x y : TemplateArgument},
    Alike (fun a b => typeEncoding a = typeEncoding b) x y →
      x.encoding typeEncoding = y.encoding typeEncoding
  | _, _, .type h _ _ => h
  | _, _, .value _ => rfl
  | _, _, .pack h _ _ => congrArg ("J" ++ · ++ "E") h.encodings_eq

theorem AlikeLists.encodings_eq {typeEncoding : TypeId → String} :
    ∀ {xs ys : List TemplateArgument},
      AlikeLists (fun a b => typeEncoding a = typeEncoding b) xs ys →
      encodings typeEncoding xs = encodings typeEncoding ys
  | _, _, .nil => rfl
  | _, _, .cons h hs => by rw [encodings, encodings, h.encoding_eq, hs.encodings_eq]

end

end Alike

/-! ### The encoding is the text of the tokens -/

section Spelling

variable {typeEncoding : TypeId → String} {types : TypeId → List Token}

mutual

theorem toList_encoding : ∀ x : TemplateArgument,
    (∀ id, Handle.type id ∈ x.handles → (typeEncoding id).toList = spell (types id)) →
      (x.encoding typeEncoding).toList = spell (x.tokens types)
  | type id _, h => h id (by simp [handles])
  | value c, _ => by simp [encoding, tokens, spelling]
  | pack _ elements, h => by
    simp [encoding, tokens, spelling, toList_encodings elements h]
termination_by structural x => x

theorem toList_encodings : ∀ xs : List TemplateArgument,
    (∀ id, Handle.type id ∈ handlesOfArguments xs → (typeEncoding id).toList = spell (types id)) →
      (encodings typeEncoding xs).toList = spell (tokensOfList types xs)
  | [], _ => rfl
  | x :: xs, h => by
    rw [encodings, String.toList_append, tokensOfList, spell_append,
      toList_encoding x fun id hid => h id (List.mem_append_left _ hid),
      toList_encodings xs fun id hid => h id (List.mem_append_right _ hid)]
termination_by structural xs => xs

end

end Spelling

/-! ### The tokens may stand in a name -/

section Code

variable {types : TypeId → List Token}

mutual

theorem isCode_tokens : ∀ x : TemplateArgument,
    (∀ id, Handle.type id ∈ x.handles → IsCode (types id)) → IsCode (x.tokens types)
  | type id _, h => h id (by simp [handles])
  | value _, _ => .cons trivial rfl rfl .nil
  | pack _ elements, h => .bracket ⟨rfl, by decide, by decide⟩ rfl (isCode_tokensOfList elements h)
termination_by structural x => x

theorem isCode_tokensOfList : ∀ xs : List TemplateArgument,
    (∀ id, Handle.type id ∈ handlesOfArguments xs → IsCode (types id)) →
      IsCode (tokensOfList types xs)
  | [], _ => .nil
  | x :: xs, h =>
    (isCode_tokens x fun id hid => h id (List.mem_append_left _ hid)).append
      (isCode_tokensOfList xs fun id hid => h id (List.mem_append_right _ hid))
termination_by structural xs => xs

end

end Code

/-! ### Where an argument ends -/

section Cancel

variable {codes : SymbolId → List Token} {tree : TypeId → TypeTree}

/-- The user-defined types of the types in some arguments have names that can be split
off. -/
def AllUnits (codes : SymbolId → List Token) (tree : TypeId → TypeTree) (handles : List Handle) :
    Prop := ∀ id, Handle.type id ∈ handles → ∀ s ∈ (tree id).symbols, IsUnit (codes s)

theorem AllUnits.left {xs ys : List Handle} (h : AllUnits codes tree (xs ++ ys)) :
    AllUnits codes tree xs := fun id hid => h id (List.mem_append_left _ hid)

theorem AllUnits.right {xs ys : List Handle} (h : AllUnits codes tree (xs ++ ys)) :
    AllUnits codes tree ys := fun id hid => h id (List.mem_append_right _ hid)

theorem not_isStart_constant (c : Constant) : ¬ IsStart (constant c) := by
  simp [IsStart, leadSort]

theorem not_isStart_pack : ¬ IsStart (letter 'J') := by simp [IsStart, leadSort]

theorem tokens_eq_cons (x : TemplateArgument) (hx : AllUnits codes tree x.handles) :
    ∃ y ys, x.tokens (fun id => (tree id).tokens codes) = y :: ys ∧
      (IsStart y ∨ (∃ c, y = constant c) ∨ y = letter 'J') := by
  cases x with
  | type id text =>
    obtain ⟨y, ys, hy, hstart⟩ := exists_isStart (tree id) (hx id (by simp [handles]))
    exact ⟨y, ys, hy, .inl hstart⟩
  | value c => exact ⟨_, _, rfl, .inr (.inl ⟨c, rfl⟩)⟩
  | pack kind elements => exact ⟨_, _, rfl, .inr (.inr rfl)⟩

/-- No argument starts where a list of arguments ends, and none goes on where a name
does. -/
theorem tokens_start (x : TemplateArgument) (hx : AllUnits codes tree x.handles)
    {r : List Token} {t : Token} {ts : List Token}
    (h : x.tokens (fun id => (tree id).tokens codes) ++ r = t :: ts) :
    t ≠ letter 'E' ∧ t ≠ letter 'I' := by
  obtain ⟨y, ys, hy, hstart⟩ := tokens_eq_cons x hx
  rw [hy] at h
  obtain ⟨rfl, _⟩ := List.cons.inj h
  refine ⟨?_, ?_⟩ <;> rintro rfl <;> simp [IsStart, leadSort] at hstart

theorem not_startsKey_tokensOfList (xs : List TemplateArgument)
    (hxs : AllUnits codes tree (handlesOfArguments xs)) (r : List Token) :
    ¬ StartsKey (tokensOfList (fun id => (tree id).tokens codes) xs ++ letter 'E' :: r) := by
  cases xs with
  | nil => exact not_startsKey_cons (by simp)
  | cons x xs =>
    obtain ⟨y, ys, hy, _⟩ := tokens_eq_cons x hxs.left
    rw [tokensOfList, List.append_assoc, hy]
    exact not_startsKey_cons (tokens_start x hxs.left (r := []) (by rw [List.append_nil, hy])).2

abbrev AlikeTypes (codes : SymbolId → List Token) (tree : TypeId → TypeTree) (a b : TypeId) :
    Prop := (tree a).Alike (SameCode codes) (tree b)

mutual

/-- Where an argument ends can be seen, and what is read is like it. -/
theorem tokens_cancel : ∀ x y : TemplateArgument, AllUnits codes tree x.handles →
    AllUnits codes tree y.handles → ∀ {r r' : List Token}, ¬ StartsKey r → ¬ StartsKey r' →
    x.tokens (fun id => (tree id).tokens codes) ++ r =
      y.tokens (fun id => (tree id).tokens codes) ++ r' →
      x.Alike (AlikeTypes codes tree) y ∧ r = r'
  | type id _, y, hx, hy, r, r', hr, hr', h => by
    have hid := hx id (by simp [handles])
    cases y with
    | type id' text =>
      obtain ⟨halike, hrest⟩ :=
        TypeTree.tokens_cancel _ _ hid (hy id' (by simp [handles])) hr hr' h
      exact ⟨.type halike _ _, hrest⟩
    | value c => exact absurd h.symm (ne_tokens_append (not_isStart_constant c) hid _ _)
    | pack kind elements => exact absurd h.symm (ne_tokens_append not_isStart_pack hid _ _)
  | value c, y, _, hy, r, r', _, _, h => by
    cases y with
    | type id text =>
      exact absurd h (ne_tokens_append (not_isStart_constant c) (hy id (by simp [handles])) _ _)
    | value d =>
      obtain ⟨hconstant, hrest⟩ := List.cons.inj h
      obtain rfl := Token.constant.inj hconstant
      exact ⟨.value c, hrest⟩
    | pack kind elements => cases (List.cons.inj h).1
  | pack kind xs, y, hx, hy, r, r', _, _, h => by
    cases y with
    | type id text =>
      exact absurd h (ne_tokens_append not_isStart_pack (hy id (by simp [handles])) _ _)
    | value d => cases (List.cons.inj h).1
    | pack kind' ys =>
      rw [tokens, tokens] at h
      simp only [List.cons_append, List.append_assoc, List.nil_append] at h
      obtain ⟨halikes, hrest⟩ := tokensOfList_cancel xs ys hx hy (List.cons.inj h).2
      exact ⟨.pack halikes _ _, hrest⟩
termination_by structural x => x

/-- Where a list of arguments ends can be seen. -/
theorem tokensOfList_cancel : ∀ xs ys : List TemplateArgument,
    AllUnits codes tree (handlesOfArguments xs) → AllUnits codes tree (handlesOfArguments ys) →
    ∀ {r r' : List Token},
    tokensOfList (fun id => (tree id).tokens codes) xs ++ letter 'E' :: r =
      tokensOfList (fun id => (tree id).tokens codes) ys ++ letter 'E' :: r' →
      AlikeLists (AlikeTypes codes tree) xs ys ∧ r = r'
  | [], [], _, _, _, _, h => ⟨.nil, (List.cons.inj h).2⟩
  | [], y :: ys, _, hys, r, r', h => by
    rw [tokensOfList, tokensOfList, List.append_assoc] at h
    exact absurd rfl (tokens_start y hys.left h.symm).1
  | x :: xs, [], hxs, _, r, r', h => by
    rw [tokensOfList, tokensOfList, List.append_assoc] at h
    exact absurd rfl (tokens_start x hxs.left h).1
  | x :: xs, y :: ys, hxs, hys, r, r', h => by
    rw [tokensOfList, tokensOfList, List.append_assoc, List.append_assoc] at h
    obtain ⟨halike, hrest⟩ := tokens_cancel x y hxs.left hys.left
      (not_startsKey_tokensOfList xs hxs.right r) (not_startsKey_tokensOfList ys hys.right r') h
    obtain ⟨halikes, hrest⟩ := tokensOfList_cancel xs ys hxs.right hys.right hrest
    exact ⟨.cons halike halikes, hrest⟩
termination_by structural xs => xs

end

end Cancel

end TemplateArgument

end TemplateAnalysis
