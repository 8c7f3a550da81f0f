/-
# Expressions of the property language

An expression is what a property compiler hands over: a tree of ten kinds of node whose
operand slots may be empty.  Nothing is resolved yet; operators are texts
(`ActorLtl.Operator` says what they mean), and a temporal operator with one operand may
arrive as a node with two slots whose right one is empty.

Terms and literals carry a number, the *identity* of the node.  Two nodes built apart have
different identities even if nothing else tells them apart, and a copy keeps the identity
of what it copies.  Only nodes without a name need it.
-/

namespace ActorLtl

/-- The identity of a term or literal node. -/
abbrev NodeId := Nat

/-- An expression of the property language. -/
inductive Expression where
  /-- `left operator right`.  A temporal operator with one operand may fill `left` alone. -/
  | binary (operator : String) (left right : Option Expression)
  /-- `operator operand`. -/
  | unary (operator : String) (operand : Option Expression)
  /-- `left.right`, such as `phil0.eating`. -/
  | member (left right : Option Expression)
  /-- `name` or `name(arguments)`.  An empty argument list is not the same as none. -/
  | term (id : NodeId) (name : Option String) (arguments : Option (List Expression))
  /-- A literal as it was written. -/
  | literal (id : NodeId) (value : Option String)
  /-- `condition ? thenPart : elsePart`. -/
  | ternary (condition thenPart elsePart : Option Expression)
  /-- `(inner)` in arithmetic. -/
  | group (inner : Option Expression)
  /-- `(targetType) inner`. -/
  | cast (targetType : String) (inner : Option Expression)
  /-- `inner instanceof typeName`. -/
  | typeTest (typeName : String) (inner : Option Expression)
  /-- `?(choice, choice, …)`. -/
  | choice (choices : List Expression)
  deriving Repr, BEq, Inhabited

namespace Expression

/-- The name of the node's kind, as it is written in files and in canonical texts. -/
def kind : Expression → String
  | binary .. => "binary"
  | unary .. => "unary"
  | member .. => "member_access"
  | term .. => "term"
  | literal .. => "literal"
  | ternary .. => "ternary"
  | group .. => "arithmetic_group"
  | cast .. => "cast"
  | typeTest .. => "type_test"
  | choice .. => "non_deterministic_choice"

/-- The expressions that stand directly in the node's slots, in the order of the slots. -/
def children : Expression → List Expression
  | binary _ left right => left.toList ++ right.toList
  | unary _ operand => operand.toList
  | member left right => left.toList ++ right.toList
  | term _ _ arguments => arguments.getD []
  | literal .. => []
  | ternary condition thenPart elsePart =>
      condition.toList ++ thenPart.toList ++ elsePart.toList
  | group inner | cast _ inner | typeTest _ inner => inner.toList
  | choice choices => choices

mutual
/-- The number of nodes of the tree. -/
def size : Expression → Nat
  | binary _ left right => 1 + slotSize left + slotSize right
  | unary _ operand => 1 + slotSize operand
  | member left right => 1 + slotSize left + slotSize right
  | term _ _ none => 1
  | term _ _ (some arguments) => 1 + listSize arguments
  | literal .. => 1
  | ternary condition thenPart elsePart =>
      1 + slotSize condition + slotSize thenPart + slotSize elsePart
  | group inner => 1 + slotSize inner
  | cast _ inner => 1 + slotSize inner
  | typeTest _ inner => 1 + slotSize inner
  | choice choices => 1 + listSize choices
/-- The number of nodes in a slot. -/
def slotSize : Option Expression → Nat
  | none => 0
  | some e => size e
/-- The number of nodes in a list of trees. -/
def listSize : List Expression → Nat
  | [] => 0
  | e :: es => size e + listSize es
end

theorem size_pos (e : Expression) : 0 < e.size := by
  cases e with
  | term _ _ arguments => cases arguments <;> simp only [size] <;> omega
  | _ =>
    simp only [size]
    omega

@[simp] theorem listSize_append (es fs : List Expression) :
    listSize (es ++ fs) = listSize es + listSize fs := by
  induction es with
  | nil => simp [listSize]
  | cons e es ih => simp [listSize, ih]; omega

@[simp] theorem listSize_toList (slot : Option Expression) :
    listSize slot.toList = slotSize slot := by
  cases slot <;> simp [listSize, slotSize]

/-- **A node is one more than its children.** -/
theorem size_eq_children (e : Expression) : e.size = 1 + listSize e.children := by
  cases e with
  | term _ _ arguments => cases arguments <;> simp [size, children, listSize]
  | _ => simp [size, children, listSize] <;> omega

theorem size_le_listSize {e : Expression} {es : List Expression} (h : e ∈ es) :
    e.size ≤ listSize es := by
  obtain ⟨before, after, rfl⟩ := List.append_of_mem h
  simp only [listSize_append, listSize]
  omega

/-- **A child is smaller than the node.** -/
theorem size_lt_of_mem_children {child e : Expression} (h : child ∈ e.children) :
    child.size < e.size := by
  have := size_le_listSize h
  rw [size_eq_children e]
  omega

end Expression
end ActorLtl
