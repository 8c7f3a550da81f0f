/-
# Conversion in two passes

Conversion (`ActorLtl.Conversion`) interns names while it builds the formula.  Here the two
are apart.  `keys` lists the names that an expression interns, in order and with repetitions;
`formula` builds the formula from any numbering of names, without a registry.  Operands of a
node with operator are among its keys even where its formula does not use them.

Both go by the texts themselves: what a text between two operands, before an operand or as the name
of a call makes of formulas is written down for each spelling.  That the tables of operators say the
same is proved at the end.
-/

import ActorLtl.Conversion
import ActorLtl.Operator.Spelling

namespace ActorLtl
namespace Formula

/-- What a text between two operands makes of their formulas, if it is a connective there. -/
def between? (left right : Formula) : String → Option Formula
  | "&&" | "and" => some (.and left right)
  | "||" | "or" => some (.or left right)
  | "->" | "implies" => some (.or (.negation left) right)
  | "<->" | "iff" => some (.and (.or (.negation left) right) (.or left (.negation right)))
  | "G" | "globally" => some (.globally left)
  | "F" | "finally" => some (.eventually left)
  | "X" | "next" => some (.next left)
  | "U" | "until" => some (.strongUntil left right)
  | "W" | "weak_until" => some (.weakUntil left right)
  | "M" | "strong_release" => some (.strongRelease left right)
  | "R" | "release" => some (.release left right)
  | _ => none

/-- What a text before an operand makes of its formula, if it is a connective there. -/
def before? (operand : Formula) : String → Option Formula
  | "!" | "not" => some (.negation operand)
  | "G" | "globally" => some (.globally operand)
  | "F" | "finally" => some (.eventually operand)
  | "X" | "next" => some (.next operand)
  | _ => none

/-- What the name of a call makes of the formula of the first argument, if the call is temporal. -/
def called? (argument : Formula) : String → Option Formula
  | "G" => some (.globally argument)
  | "F" => some (.eventually argument)
  | "X" => some (.next argument)
  | _ => none

end Formula

namespace Expression

/-- The key of a node with operator, which needs one unless its operator is a connective. -/
def ownKey (e : Expression) (connective : Bool) : List String :=
  if connective then [] else [e.canonical]

mutual
/-- The names that conversion of an expression interns. -/
def keys : Expression → List String
  | e@(binary operator left right) =>
      slotKeys left ++ slotKeys right ++
        e.ownKey (operator ∈ BinaryOperator.connectives.flatten)
  | e@(unary operator operand) =>
      slotKeys operand ++ e.ownKey (operator ∈ UnaryOperator.connectives.flatten)
  | e@(member ..) => [e.canonical]
  | term id none _ => ["$term#" ++ toString id]
  | term id (some name) none => [if name = "" then "$term#" ++ toString id else name]
  | term id (some name) (some []) => [if name = "" then "$term#" ++ toString id else name]
  | term id (some name) (some (first :: _)) =>
      if name = "" then ["$term#" ++ toString id]
      else keys first ++ if name ∈ TemporalCall.letters then [] else [name]
  | literal id none => ["$literal#" ++ toString id]
  | literal _ (some value) =>
      if value.toLower = "true" ∨ value.toLower = "false" then [] else [value]
  | ternary condition thenPart elsePart =>
      slotKeys condition ++ slotKeys thenPart ++ slotKeys elsePart
  | e@(group _) => [e.canonical]
  | e@(cast ..) => [e.canonical]
  | e@(typeTest ..) => [e.canonical]
  | e@(choice _) => [e.canonical]
/-- The names that conversion of what a slot holds interns. -/
def slotKeys : Option Expression → List String
  | none => []
  | some e => keys e
end

mutual
/-- The formula of an expression in which every name is a proposition of its own number. -/
def formula (number : String → Nat) : Expression → Formula
  | e@(binary operator left right) =>
      (Formula.between? (slotFormula number left) (slotFormula number right) operator).getD
        (.atom (number e.canonical))
  | e@(unary operator operand) =>
      (Formula.before? (slotFormula number operand) operator).getD (.atom (number e.canonical))
  | e@(member ..) => .atom (number e.canonical)
  | term id none _ => .atom (number ("$term#" ++ toString id))
  | term id (some name) none =>
      .atom (number (if name = "" then "$term#" ++ toString id else name))
  | term id (some name) (some []) =>
      .atom (number (if name = "" then "$term#" ++ toString id else name))
  | term id (some name) (some (first :: _)) =>
      if name = "" then .atom (number ("$term#" ++ toString id))
      else (Formula.called? (formula number first) name).getD (.atom (number name))
  | literal id none => .atom (number ("$literal#" ++ toString id))
  | literal _ (some value) =>
      if value.toLower = "true" then .constant true
      else if value.toLower = "false" then .constant false
      else .atom (number value)
  | ternary condition thenPart elsePart =>
      let condition := slotFormula number condition
      .or (.and condition (slotFormula number thenPart))
        (.and (.negation condition) (slotFormula number elsePart))
  | e@(group _) => .atom (number e.canonical)
  | e@(cast ..) => .atom (number e.canonical)
  | e@(typeTest ..) => .atom (number e.canonical)
  | e@(choice _) => .atom (number e.canonical)
/-- The formula of what a slot holds; an empty slot is false. -/
def slotFormula (number : String → Nat) : Option Expression → Formula
  | none => .constant false
  | some e => formula number e
end

end Expression

/-! ## What the tables say -/

namespace Formula

/-- **The table of operators between operands** has every connective under its spellings, and what
else it has makes no formula. -/
theorem between?_eq (left right : Formula) (text : String) :
    between? left right text =
      (BinaryOperator.ofSpelling? text).bind (·.formula? left right) := by
  unfold between?
  split
  case h_23 =>
    cases spelt : BinaryOperator.ofSpelling? text with
    | none => rfl
    | some op =>
      have entry : (text, op) ∈ BinaryOperator.table := mem_of_lookup spelt
      cases op with
      | comparison _ | arithmetic _ => rfl
      | _ =>
        simp [BinaryOperator.table] at entry
        grind
  all_goals rfl

/-- **So has the table of operators before an operand,** -/
theorem before?_eq (operand : Formula) (text : String) :
    before? operand text = (UnaryOperator.ofSpelling? text).bind (·.formula? operand) := by
  unfold before?
  split
  case h_9 =>
    cases spelt : UnaryOperator.ofSpelling? text with
    | none => rfl
    | some op =>
      have entry : (text, op) ∈ UnaryOperator.table := mem_of_lookup spelt
      cases op with
      | sign => rfl
      | _ =>
        simp [UnaryOperator.table] at entry
        grind
  all_goals rfl

/-- **and the table of calls** has the three letters. -/
theorem called?_eq (argument : Formula) (name : String) :
    called? argument name = (TemporalCall.ofName? name).map (·.formula argument) := by
  unfold called?
  split
  case h_4 =>
    cases called : TemporalCall.ofName? name with
    | none => rfl
    | some call =>
      have entry : (name, call) ∈ TemporalCall.table := mem_of_lookup called
      cases call <;> simp [TemporalCall.table] at entry <;> grind
  all_goals rfl

/-- A connective is a text that makes a formula. -/
theorem isSome_between? (left right : Formula) (text : String) :
    (between? left right text).isSome = decide (text ∈ BinaryOperator.connectives.flatten) := by
  unfold between?
  split
  case h_23 => simp_all [BinaryOperator.connectives]
  all_goals rfl

theorem isSome_before? (operand : Formula) (text : String) :
    (before? operand text).isSome = decide (text ∈ UnaryOperator.connectives.flatten) := by
  unfold before?
  split
  case h_9 => simp_all [UnaryOperator.connectives, UnaryOperator.movable]
  all_goals rfl

/-- What is no connective makes no formula. -/
theorem between?_eq_none_iff {text : String} :
    between? left right text = none ↔ text ∉ BinaryOperator.connectives.flatten := by
  rw [← Option.not_isSome_iff_eq_none, isSome_between?, decide_eq_true_iff]

theorem before?_eq_none_iff {text : String} :
    before? operand text = none ↔ text ∉ UnaryOperator.connectives.flatten := by
  rw [← Option.not_isSome_iff_eq_none, isSome_before?, decide_eq_true_iff]

/-- What a connective makes is no proposition. -/
theorem between?_ne_atom {text : String} {i : Nat} : between? left right text ≠ some (.atom i) := by
  unfold between?
  split <;> nofun

theorem before?_ne_atom {text : String} {i : Nat} : before? operand text ≠ some (.atom i) := by
  unfold before?
  split <;> nofun

end Formula

/-- The letters are the names of the table. -/
theorem TemporalCall.mem_letters_iff {name : String} :
    name ∈ letters ↔ (ofName? name).isSome := by
  constructor
  · intro letter
    simp only [letters, List.mem_cons, List.not_mem_nil, or_false] at letter
    rcases letter with rfl | rfl | rfl <;> rfl
  · intro called
    obtain ⟨call, found⟩ := Option.isSome_iff_exists.1 called
    exact List.mem_map_of_mem (f := Prod.fst) (mem_of_lookup found)

/-- A name that is none of the letters is no temporal call. -/
theorem Formula.called?_eq_none_iff {argument : Formula} {name : String} :
    argument.called? name = none ↔ name ∉ TemporalCall.letters := by
  rw [TemporalCall.mem_letters_iff, Option.not_isSome_iff_eq_none, called?_eq,
    Option.map_eq_none_iff]

namespace Expression

/-- **A node between two operands** is converted by what its text makes of their formulas, -/
theorem convert_binary_eq (operator : String) (left right : Option Expression) :
    convert (binary operator left right) =
      convertSlot left >>= fun f => convertSlot right >>= fun g =>
        (f.between? g operator).elim (binary operator left right).asProposition pure := by
  rw [convert]
  refine bind_congr fun f => bind_congr fun g => ?_
  rw [Formula.between?_eq]
  cases (BinaryOperator.ofSpelling? operator).bind (·.formula? f g) <;> rfl

/-- **and one before an operand** by what its text makes of that one's. -/
theorem convert_unary_eq (operator : String) (operand : Option Expression) :
    convert (unary operator operand) =
      convertSlot operand >>= fun f =>
        (f.before? operator).elim (unary operator operand).asProposition pure := by
  rw [convert]
  refine bind_congr fun f => ?_
  rw [Formula.before?_eq]
  cases (UnaryOperator.ofSpelling? operator).bind (·.formula? f) <;> rfl

end Expression
end ActorLtl
