import TemplateAnalysis.Proofs.TypeGraph.Unfolding
import TemplateAnalysis.TypeGraph.Spelling

/-!
# The user-defined types of a type

The spellings of a type depend on the names of the user-defined types in it, and
on no other name.
-/

namespace TemplateAnalysis

def BaseKey.symbols : BaseKey → List SymbolId
  | primitive _ _ => []
  | symbol s _ => [s]

namespace TypeTree

mutual

def symbols : TypeTree → List SymbolId
  | base key => key.symbols
  | pointer target _ => symbols target
  | lvalueReference referee => symbols referee
  | rvalueReference referee => symbols referee
  | array element _ => symbols element
  | function result parameters _ _ => symbols result ++ symbolsOfList parameters

def symbolsOfList : List TypeTree → List SymbolId
  | [] => []
  | t :: ts => symbols t ++ symbolsOfList ts

end

theorem mem_symbolsOfList {s : SymbolId} {ts : List TypeTree} :
    s ∈ symbolsOfList ts ↔ ∃ t ∈ ts, s ∈ t.symbols := by
  induction ts with
  | nil => simp [symbolsOfList]
  | cons t ts ih => simp [symbolsOfList, ih]

section Congruence

variable {nameOf nameOf' : SymbolId → String}

mutual

theorem encoding_congr :
    ∀ t : TypeTree, (∀ s ∈ t.symbols, nameOf s = nameOf' s) →
      t.encoding nameOf = t.encoding nameOf'
  | base (.primitive _ _), _ => rfl
  | base (.symbol s _), h => by
    rw [encoding, encoding, BaseKey.encoding, BaseKey.encoding, h s (by simp [symbols,
      BaseKey.symbols])]
  | pointer target _, h => by rw [encoding, encoding, encoding_congr target h]
  | lvalueReference referee, h => by rw [encoding, encoding, encoding_congr referee h]
  | rvalueReference referee, h => by rw [encoding, encoding, encoding_congr referee h]
  | array element _, h => by rw [encoding, encoding, encoding_congr element h]
  | function result parameters _ _, h => by
    have hresult := encoding_congr result fun s hs => h s (List.mem_append_left _ hs)
    have hparameters := encodings_congr parameters fun s hs => h s (List.mem_append_right _ hs)
    rw [encoding, encoding, hresult, hparameters]
termination_by structural t => t

theorem encodings_congr :
    ∀ ts : List TypeTree, (∀ s ∈ symbolsOfList ts, nameOf s = nameOf' s) →
      encodings nameOf ts = encodings nameOf' ts
  | [], _ => rfl
  | t :: ts, h => by
    have ht := encoding_congr t fun s hs => h s (List.mem_append_left _ hs)
    have hts := encodings_congr ts fun s hs => h s (List.mem_append_right _ hs)
    rw [encodings, encodings, ht, hts]
termination_by structural ts => ts

end

theorem signature?_congr :
    ∀ t : TypeTree, (∀ s ∈ t.symbols, nameOf s = nameOf' s) →
      t.signature? nameOf = t.signature? nameOf'
  | base _, _ | pointer _ _, _ | lvalueReference _, _ | rvalueReference _, _ | array _ _, _ => rfl
  | function _ parameters _ _, h => by
    have hparameters := encodings_congr parameters fun s hs => h s (List.mem_append_right _ hs)
    rw [signature?, signature?, hparameters]

mutual

theorem text_congr :
    ∀ t : TypeTree, (∀ s ∈ t.symbols, nameOf s = nameOf' s) → t.text nameOf = t.text nameOf'
  | base (.primitive _ _), _ => rfl
  | base (.symbol s _), h => by
    rw [text, text, BaseKey.text, BaseKey.text, h s (by simp [symbols, BaseKey.symbols])]
  | pointer target _, h => by rw [text, text, text_congr target h]
  | lvalueReference referee, h => by rw [text, text, text_congr referee h]
  | rvalueReference referee, h => by rw [text, text, text_congr referee h]
  | array element _, h => by rw [text, text, text_congr element h]
  | function result parameters _ _, h => by
    have hresult := text_congr result fun s hs => h s (List.mem_append_left _ hs)
    have hparameters := texts_congr parameters fun s hs => h s (List.mem_append_right _ hs)
    rw [text, text, hresult, hparameters]
termination_by structural t => t

theorem texts_congr :
    ∀ ts : List TypeTree, (∀ s ∈ symbolsOfList ts, nameOf s = nameOf' s) →
      texts nameOf ts = texts nameOf' ts
  | [], _ => rfl
  | t :: ts, h => by
    have ht := text_congr t fun s hs => h s (List.mem_append_left _ hs)
    have hts := texts_congr ts fun s hs => h s (List.mem_append_right _ hs)
    rw [texts, texts, ht, hts]
termination_by structural ts => ts

end

end Congruence

end TypeTree

theorem TypeOp.mem_symbols_apply {tree : TypeId → TypeTree} {x : TypeTree} {op : TypeOp}
    {s : SymbolId} (h : s ∈ (op.apply tree x).symbols) :
    s ∈ x.symbols ∨ ∃ p ∈ op.parameters, s ∈ (tree p).symbols := by
  cases op with
  | function parameters variadic q =>
    rcases List.mem_append.mp h with h | h
    · exact .inl h
    · obtain ⟨t, ht, hs⟩ := TypeTree.mem_symbolsOfList.mp h
      obtain ⟨p, hp, rfl⟩ := List.mem_map.mp ht
      exact .inr ⟨p, hp, hs⟩
  | pointer _ | lvalueReference | rvalueReference | array _ => exact .inl h

theorem TypeGraph.symbols_tree {g : TypeGraph} (hg : g.Canonical) {known : SymbolId → Prop}
    (hbase : ∀ id s q, g.label? id = some (.base (.symbol s q)) → known s) {id : TypeId}
    (hid : g.Has id) : ∀ s ∈ (g.tree id).symbols, known s := by
  obtain ⟨n, hn⟩ : ∃ n, id.index = n := ⟨_, rfl⟩
  induction n using Nat.strongRecOn generalizing id with
  | ind n ih =>
    obtain ⟨l, hl, _⟩ := exists_label? hid
    intro s hs
    rcases l with key | ⟨operand, op⟩
    · rw [tree_of_base hl] at hs
      cases key with
      | primitive _ _ => cases hs
      | symbol y q =>
        rw [List.mem_singleton.mp hs]
        exact hbase id y q hl
    · have hsub : ∀ o ∈ (TypeLabel.derived operand op).operands, s ∈ (g.tree o).symbols →
          known s := fun o ho => ih o.index (by have := hg.operand_lt hl o ho; omega)
        (hg.has_operand hl ho) rfl s
      rw [tree_of_derived hg hl] at hs
      rcases TypeOp.mem_symbols_apply hs with hs | ⟨p, hp, hs⟩
      · exact hsub operand (by simp [TypeLabel.operands]) hs
      · exact hsub p (by simp [TypeLabel.operands, hp]) hs

end TemplateAnalysis
