/-
# Canonical texts

The canonical text of an expression is the name under which the whole expression is an
atomic proposition.

| node | text |
| --- | --- |
| term | its name, or `term`; arguments are not written |
| literal | its value, or `literal` |
| member access | `left.right` |
| two operands | `(left operator right)` |
| one operand | `operator(operand)` |
| cast, type test | the kind, the type in angle brackets, then `(inner)` |
| any other | the kind, then the parts in parentheses, separated by `, ` |

An empty slot is written `null`.  The text is put together from the right as a list of
pieces, so its cost is its length whatever the shape of the tree; `piecesOnto_eq` says that
the pieces that follow do not matter.
-/

import ActorLtl.Expression

namespace ActorLtl
namespace Expression

mutual
/-- The pieces of the canonical text of an expression, followed by `rest`. -/
def piecesOnto : Expression → List String → List String
  | term _ name _, rest => name.getD "term" :: rest
  | literal _ value, rest => value.getD "literal" :: rest
  | member left right, rest => slotPiecesOnto left ("." :: slotPiecesOnto right rest)
  | binary operator left right, rest =>
      "(" :: slotPiecesOnto left (" " :: operator :: " " :: slotPiecesOnto right (")" :: rest))
  | unary operator operand, rest => operator :: "(" :: slotPiecesOnto operand (")" :: rest)
  | ternary condition thenPart elsePart, rest =>
      "ternary" :: "(" :: slotPiecesOnto condition (", " :: slotPiecesOnto thenPart
        (", " :: slotPiecesOnto elsePart (")" :: rest)))
  | group inner, rest => "arithmetic_group" :: "(" :: slotPiecesOnto inner (")" :: rest)
  | cast targetType inner, rest =>
      "cast" :: "<" :: targetType :: ">" :: "(" :: slotPiecesOnto inner (")" :: rest)
  | typeTest typeName inner, rest =>
      "type_test" :: "<" :: typeName :: ">" :: "(" :: slotPiecesOnto inner (")" :: rest)
  | choice [], rest => "non_deterministic_choice" :: "(" :: ")" :: rest
  | choice (first :: more), rest =>
      "non_deterministic_choice" :: "(" :: piecesOnto first (morePiecesOnto more (")" :: rest))
/-- The pieces of what a slot holds, followed by `rest`. -/
def slotPiecesOnto : Option Expression → List String → List String
  | none, rest => "null" :: rest
  | some e, rest => piecesOnto e rest
/-- The pieces of the parts after the first, each with its separator, followed by `rest`. -/
def morePiecesOnto : List Expression → List String → List String
  | [], rest => rest
  | e :: es, rest => ", " :: piecesOnto e (morePiecesOnto es rest)
end

/-- The canonical text of an expression. -/
def canonical (e : Expression) : String := String.join (e.piecesOnto [])

mutual
/-- **The pieces that follow a text do not change it.** -/
theorem piecesOnto_eq : (e : Expression) → (rest : List String) →
    piecesOnto e rest = piecesOnto e [] ++ rest
  | term .., rest => by simp [piecesOnto]
  | literal .., rest => by simp [piecesOnto]
  | member left right, rest => by
      simp only [piecesOnto]
      rw [slotPiecesOnto_eq left, slotPiecesOnto_eq right, slotPiecesOnto_eq left ("." :: _)]
      simp
  | binary operator left right, rest => by
      simp only [piecesOnto]
      rw [slotPiecesOnto_eq left, slotPiecesOnto_eq right,
        slotPiecesOnto_eq left (" " :: operator :: " " :: slotPiecesOnto right [")"]),
        slotPiecesOnto_eq right [")"]]
      simp
  | unary operator operand, rest => by
      simp only [piecesOnto]
      rw [slotPiecesOnto_eq operand, slotPiecesOnto_eq operand [")"]]
      simp
  | ternary condition thenPart elsePart, rest => by
      simp only [piecesOnto]
      rw [slotPiecesOnto_eq condition, slotPiecesOnto_eq thenPart, slotPiecesOnto_eq elsePart,
        slotPiecesOnto_eq condition (", " :: slotPiecesOnto thenPart _),
        slotPiecesOnto_eq thenPart (", " :: slotPiecesOnto elsePart [")"]),
        slotPiecesOnto_eq elsePart [")"]]
      simp
  | group inner, rest => by
      simp only [piecesOnto]
      rw [slotPiecesOnto_eq inner, slotPiecesOnto_eq inner [")"]]
      simp
  | cast _ inner, rest => by
      simp only [piecesOnto]
      rw [slotPiecesOnto_eq inner, slotPiecesOnto_eq inner [")"]]
      simp
  | typeTest _ inner, rest => by
      simp only [piecesOnto]
      rw [slotPiecesOnto_eq inner, slotPiecesOnto_eq inner [")"]]
      simp
  | choice [], rest => by simp [piecesOnto]
  | choice (first :: more), rest => by
      simp only [piecesOnto]
      rw [piecesOnto_eq first, morePiecesOnto_eq more,
        piecesOnto_eq first (morePiecesOnto more [")"]), morePiecesOnto_eq more [")"]]
      simp
theorem slotPiecesOnto_eq : (slot : Option Expression) → (rest : List String) →
    slotPiecesOnto slot rest = slotPiecesOnto slot [] ++ rest
  | none, rest => by simp [slotPiecesOnto]
  | some e, rest => by simp only [slotPiecesOnto]; exact piecesOnto_eq e rest
theorem morePiecesOnto_eq : (es : List Expression) → (rest : List String) →
    morePiecesOnto es rest = morePiecesOnto es [] ++ rest
  | [], rest => by simp [morePiecesOnto]
  | e :: es, rest => by
      simp only [morePiecesOnto]
      rw [piecesOnto_eq e, morePiecesOnto_eq es, piecesOnto_eq e (morePiecesOnto es [])]
      simp
end

end Expression
end ActorLtl
