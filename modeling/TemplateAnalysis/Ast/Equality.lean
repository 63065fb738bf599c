import TemplateAnalysis.Ast.Basic

/-!
# Equality of trees

Two trees are the same when they have the same shape, names, spans and handles,
and constants that are the same. A literal NaN is the same as itself, and the
two zeros are the same literal.
-/

namespace TemplateAnalysis

mutual

/-- Whether two nodes are the same. -/
def Node.same : Node → Node → Bool
  | .literal v s, .literal v' s' => v.same v' && s == s'
  | .name t y s, .name t' y' s' => t == t' && y == y' && s == s'
  | .typeParameter t i s, .typeParameter t' i' s' => t == t' && i == i' && s == s'
  | .valueParameter t i s, .valueParameter t' i' s' => t == t' && i == i' && s == s'
  | .unary o e s, .unary o' e' s' => o == o' && e.same e' && s == s'
  | .binary o l r s, .binary o' l' r' s' => o == o' && l.same l' && r.same r' && s == s'
  | .conditional c t e s, .conditional c' t' e' s' =>
    c.same c' && t.same t' && e.same e' && s == s'
  | .paren e s, .paren e' s' => e.same e' && s == s'
  | .typeId p d s, .typeId p' d' s' => p.same p' && samePartLists d d' && s == s'
  | .resolvedType i t s, .resolvedType i' t' s' => i == i' && t == t' && s == s'
  | .templateId y t a s, .templateId y' t' a' s' =>
    y == y' && t == t' && sameNodeLists a a' && s == s'
  | .packExpansion e s, .packExpansion e' s' => e.same e' && s == s'
  | .base b, .base b' => b.same b'
  | .member m, .member m' => m.same m'
  | .staticAssert a, .staticAssert a' => a.same a'
  | .classBody c, .classBody c' => c.same c'
  | _, _ => false
termination_by structural x => x

def Specifiers.same : Specifiers → Specifiers → Bool
  | ⟨k, n⟩, ⟨k', n'⟩ => k == k' && sameOptionalNodes n n'
termination_by structural x => x

def sameOptionalNodes : Option Node → Option Node → Bool
  | none, none => true
  | some n, some n' => n.same n'
  | _, _ => false
termination_by structural x => x

def sameNodeLists : List Node → List Node → Bool
  | [], [] => true
  | n :: r, n' :: r' => n.same n' && sameNodeLists r r'
  | _, _ => false
termination_by structural x => x

def DeclaratorPart.same : DeclaratorPart → DeclaratorPart → Bool
  | .name t s, .name t' s' => t == t' && s == s'
  | .pointer q s, .pointer q' s' => q == q' && s == s'
  | .lvalueReference s, .lvalueReference s' => s == s'
  | .rvalueReference s, .rvalueReference s' => s == s'
  | .array b s, .array b' s' => sameOptionalNodes b b' && s == s'
  | .function p v q s, .function p' v' q' s' =>
    sameParameterLists p p' && v == v' && q == q' && s == s'
  | _, _ => false
termination_by structural x => x

def samePartLists : List DeclaratorPart → List DeclaratorPart → Bool
  | [], [] => true
  | p :: r, p' :: r' => p.same p' && samePartLists r r'
  | _, _ => false
termination_by structural x => x

def FunctionParameter.same : FunctionParameter → FunctionParameter → Bool
  | ⟨p, d, i, s⟩, ⟨p', d', i', s'⟩ =>
    p.same p' && samePartLists d d' && sameOptionalNodes i i' && s == s'
termination_by structural x => x

def sameParameterLists : List FunctionParameter → List FunctionParameter → Bool
  | [], [] => true
  | p :: r, p' :: r' => p.same p' && sameParameterLists r r'
  | _, _ => false
termination_by structural x => x

def BaseSpecifier.same : BaseSpecifier → BaseSpecifier → Bool
  | ⟨a, v, n, e, s⟩, ⟨a', v', n', e', s'⟩ =>
    a == a' && v == v' && n.same n' && e == e' && s == s'
termination_by structural x => x

def sameBaseLists : List BaseSpecifier → List BaseSpecifier → Bool
  | [], [] => true
  | b :: r, b' :: r' => b.same b' && sameBaseLists r r'
  | _, _ => false
termination_by structural x => x

def Member.same : Member → Member → Bool
  | ⟨a, p, d, w, i, s⟩, ⟨a', p', d', w', i', s'⟩ =>
    a == a' && p.same p' && samePartLists d d' && sameOptionalNodes w w' &&
      sameOptionalNodes i i' && s == s'
termination_by structural x => x

def StaticAssert.same : StaticAssert → StaticAssert → Bool
  | ⟨c, m, s⟩, ⟨c', m', s'⟩ => c.same c' && m == m' && s == s'
termination_by structural x => x

def ClassSpecifier.same : ClassSpecifier → ClassSpecifier → Bool
  | ⟨k, n, b, m, s⟩, ⟨k', n', b', m', s'⟩ =>
    k == k' && n == n' && sameBaseLists b b' && sameNodeLists m m' && s == s'
termination_by structural x => x

end

end TemplateAnalysis
