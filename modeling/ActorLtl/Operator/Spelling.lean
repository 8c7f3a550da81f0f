/-
# Spellings of connectives

Which texts are connectives, said without the tables of operators (`ActorLtl.Operator`).  Each
connective has two spellings, and a text is a connective only where its list has it: `until` between
two operands and nowhere else, `not` before an operand and nowhere else.  Three connectives with one
operand stand in both lists.
-/

namespace ActorLtl

/-- The connectives between operands, each with its spellings. -/
def BinaryOperator.connectives : List (List String) :=
  [["&&", "and"], ["||", "or"], ["->", "implies"], ["<->", "iff"], ["G", "globally"],
   ["F", "finally"], ["X", "next"], ["U", "until"], ["W", "weak_until"], ["M", "strong_release"],
   ["R", "release"]]

namespace UnaryOperator

/-- The connectives before an operand that may also stand between it and an empty slot, each with
its spellings. -/
def movable : List (List String) := [["G", "globally"], ["F", "finally"], ["X", "next"]]

/-- The connectives before an operand, each with its spellings. -/
def connectives : List (List String) := ["!", "not"] :: movable

end UnaryOperator

/-- The names that make a call temporal.  A written-out spelling is an ordinary name. -/
def TemporalCall.letters : List String := ["G", "F", "X"]

/-- Whether both texts are spellings of one of these connectives. -/
def SpeltAlike (connectives : List (List String)) (spelling spelling' : String) : Prop :=
  ∃ spellings ∈ connectives, spelling ∈ spellings ∧ spelling' ∈ spellings

instance (connectives : List (List String)) (spelling spelling' : String) :
    Decidable (SpeltAlike connectives spelling spelling') :=
  inferInstanceAs (Decidable (∃ spellings ∈ connectives, _))

end ActorLtl
