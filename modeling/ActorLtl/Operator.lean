/-
# Operator spellings of the property language

A property expression holds its operators as text.  Three tables say which texts are
operators: one for nodes with two operand slots, one for nodes with one slot, and one for
the calls `G(p)`, `F(p)`, `X(p)`.  Most operators have a symbolic and a written-out
spelling, and the same letter may stand in more than one table.

| spellings | between operands | before an operand | as a call |
| --- | --- | --- | --- |
| `&&` `and`, `||` `or`, `->` `implies`, `<->` `iff` | boolean | | |
| `!` `not` | | boolean | |
| `G` `globally`, `F` `finally`, `X` `next` | temporal | temporal | the letters only |
| `U` `until`, `W` `weak_until`, `M` `strong_release`, `R` `release` | temporal | | |
| `==` `!=` `<` `<=` `>` `>=` | comparison | | |
| `+` `-` | arithmetic | sign | |
| `*` `/` `%` | arithmetic | | |

A text outside a node's own table is no operator of that node.
-/

namespace ActorLtl

/-- The comparisons.  A comparison of two operands is one atomic proposition. -/
inductive Comparison where
  | equal
  | notEqual
  | lessThan
  | lessEqual
  | greaterThan
  | greaterEqual
  deriving DecidableEq, Repr

/-- The arithmetic operators. -/
inductive Arithmetic where
  | add
  | subtract
  | multiply
  | divide
  | remainder
  deriving DecidableEq, Repr

/-- What the operator of a node with two operand slots means. -/
inductive BinaryOperator where
  | and
  | or
  | implies
  | iff
  | globally
  | eventually
  | next
  | strongUntil
  | weakUntil
  | strongRelease
  | release
  | comparison (which : Comparison)
  | arithmetic (which : Arithmetic)
  deriving DecidableEq, Repr

/-- What the operator of a node with one operand slot means. -/
inductive UnaryOperator where
  | not
  | globally
  | eventually
  | next
  /-- An arithmetic sign, `+x` or `-x`. -/
  | sign
  deriving DecidableEq, Repr

/-- A temporal operator that is written as a call, `G(p)`. -/
inductive TemporalCall where
  | globally
  | eventually
  | next
  deriving DecidableEq, Repr

/-- What is looked up stands in the table. -/
theorem mem_of_lookup {α : Type} {entries : List (String × α)} {name : String} {x : α}
    (h : entries.lookup name = some x) : (name, x) ∈ entries := by
  obtain ⟨before, after, rfl, -⟩ := List.lookup_eq_some_iff.1 h
  exact List.mem_append_right before List.mem_cons_self

namespace BinaryOperator

/-- The spellings of the operators between two operands, in the order in which they are
listed to a reader. -/
def table : List (String × BinaryOperator) :=
  [("&&", .and), ("and", .and),
   ("||", .or), ("or", .or),
   ("->", .implies), ("implies", .implies),
   ("<->", .iff), ("iff", .iff),
   ("G", .globally), ("globally", .globally),
   ("F", .eventually), ("finally", .eventually),
   ("X", .next), ("next", .next),
   ("U", .strongUntil), ("until", .strongUntil),
   ("W", .weakUntil), ("weak_until", .weakUntil),
   ("M", .strongRelease), ("strong_release", .strongRelease),
   ("R", .release), ("release", .release),
   ("==", .comparison .equal), ("!=", .comparison .notEqual),
   ("<", .comparison .lessThan), ("<=", .comparison .lessEqual),
   (">", .comparison .greaterThan), (">=", .comparison .greaterEqual),
   ("+", .arithmetic .add), ("-", .arithmetic .subtract), ("*", .arithmetic .multiply),
   ("/", .arithmetic .divide), ("%", .arithmetic .remainder)]

/-- The operator that a text spells between two operands. -/
def ofSpelling? (text : String) : Option BinaryOperator := table.lookup text

/-- All spellings, in table order. -/
def spellings : List String := table.map Prod.fst

/-- **No spelling stands twice,** so the table's order never decides what a text means. -/
theorem spellings_nodup : spellings.Nodup := by decide

end BinaryOperator

namespace UnaryOperator

/-- The spellings of the operators before one operand, in the order in which they are listed
to a reader. -/
def table : List (String × UnaryOperator) :=
  [("!", .not), ("not", .not),
   ("G", .globally), ("globally", .globally),
   ("F", .eventually), ("finally", .eventually),
   ("X", .next), ("next", .next),
   ("+", .sign), ("-", .sign)]

/-- The operator that a text spells before one operand. -/
def ofSpelling? (text : String) : Option UnaryOperator := table.lookup text

/-- All spellings, in table order. -/
def spellings : List String := table.map Prod.fst

theorem spellings_nodup : spellings.Nodup := by decide

end UnaryOperator

namespace TemporalCall

/-- The names that make a call temporal.  Written-out spellings are ordinary names here. -/
def table : List (String × TemporalCall) :=
  [("G", .globally), ("F", .eventually), ("X", .next)]

/-- The temporal operator that a call of this name applies to its first argument. -/
def ofName? (name : String) : Option TemporalCall := table.lookup name

end TemporalCall
end ActorLtl
