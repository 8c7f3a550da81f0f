/-
# Canonical texts as chains

A canonical text is a chain of links with dots between them, `(x + 1).f(y).z`.  A link is a word, or
a word with arguments in parentheses, or one with a type and an operand, or two operands with an
operator between them; arguments and operands are chains again.  `Expression.links` is the chain of
an expression.  A member access has no link of its own but joins the chains of its slots, so chains
forget how member accesses are grouped, and they forget identities: what they keep is what
`Expression.ofLinks` reads back.

Ordinary expressions are those in which a word or an operator shows where it ends
(`Expression.isOrdinary`).
-/

import ActorLtl.Expression.Canonical

namespace ActorLtl

/-- What stands between two dots of a canonical text. -/
inductive Link where
  | word (w : String)
  /-- `w(argument, argument, …)`. -/
  | applied (w : String) (arguments : List (List Link))
  /-- `w<type>(operand)`. -/
  | typed (w type : String) (operand : List Link)
  /-- `(left operator right)`. -/
  | infixed (operator : String) (left right : List Link)

/-- The characters of words in canonical texts. -/
def isLinkChar (c : Char) : Bool := !([' ', '.', ',', '(', ')', '<', '>'].contains c)

/-- Whether a text is a word, which ends where there is another character. -/
def isLinkWord (w : String) : Bool := w != "" && w.toList.all isLinkChar

namespace Link

mutual
/-- The characters of a link, followed by `rest`. -/
def charsOnto : Link → List Char → List Char
  | word w, rest => w.toList ++ rest
  | applied w arguments, rest => w.toList ++ '(' :: argumentsOnto arguments (')' :: rest)
  | typed w type operand, rest =>
      w.toList ++ '<' :: (type.toList ++ '>' :: '(' :: chainOnto operand (')' :: rest))
  | infixed operator left right, rest =>
      '(' :: chainOnto left (' ' :: (operator.toList ++ ' ' :: chainOnto right (')' :: rest)))
/-- The characters of a chain, followed by `rest`. -/
def chainOnto : List Link → List Char → List Char
  | [], rest => rest
  | l :: ls, rest => charsOnto l (moreOnto ls rest)
/-- The characters of the links after the first, each with its dot, followed by `rest`. -/
def moreOnto : List Link → List Char → List Char
  | [], rest => rest
  | l :: ls, rest => '.' :: charsOnto l (moreOnto ls rest)
/-- The characters of several chains, followed by `rest`. -/
def argumentsOnto : List (List Link) → List Char → List Char
  | [], rest => rest
  | c :: cs, rest => chainOnto c (moreArgumentsOnto cs rest)
/-- The characters of the chains after the first, each with its separator, followed by `rest`. -/
def moreArgumentsOnto : List (List Link) → List Char → List Char
  | [], rest => rest
  | c :: cs, rest => ',' :: ' ' :: chainOnto c (moreArgumentsOnto cs rest)
end

mutual
/-- Whether every word, type and operator shows where it ends, and no operand is missing. -/
def IsClear : Link → Prop
  | word w => isLinkWord w
  | applied w arguments => isLinkWord w ∧ AllClear arguments
  | typed w type operand => isLinkWord w ∧ '>' ∉ type.toList ∧ operand ≠ [] ∧ ChainClear operand
  | infixed operator left right =>
      ' ' ∉ operator.toList ∧ (left ≠ [] ∧ ChainClear left) ∧ right ≠ [] ∧ ChainClear right
/-- Whether the links of a chain are clear. -/
def ChainClear : List Link → Prop
  | [] => True
  | l :: ls => IsClear l ∧ ChainClear ls
/-- Whether several chains are clear and none of them is empty. -/
def AllClear : List (List Link) → Prop
  | [] => True
  | c :: cs => (c ≠ [] ∧ ChainClear c) ∧ AllClear cs
end

end Link

namespace Expression

mutual
/-- The chain of an expression. -/
def links : Expression → List Link
  | term _ name _ => [.word (name.getD "term")]
  | literal _ value => [.word (value.getD "literal")]
  | member left right => slotLinks left ++ slotLinks right
  | binary operator left right => [.infixed operator (slotLinks left) (slotLinks right)]
  | unary operator operand => [.applied operator [slotLinks operand]]
  | ternary condition thenPart elsePart =>
      [.applied "ternary" [slotLinks condition, slotLinks thenPart, slotLinks elsePart]]
  | group inner => [.applied "arithmetic_group" [slotLinks inner]]
  | cast targetType inner => [.typed "cast" targetType (slotLinks inner)]
  | typeTest typeName inner => [.typed "type_test" typeName (slotLinks inner)]
  | choice choices => [.applied "non_deterministic_choice" (listLinks choices)]
/-- The chain of what a slot holds. -/
def slotLinks : Option Expression → List Link
  | none => [.word "null"]
  | some e => links e
/-- The chains of several expressions. -/
def listLinks : List Expression → List (List Link)
  | [] => []
  | e :: es => links e :: listLinks es
end

/-! ## Reading back -/

/-- Whether a text consists of ASCII digits. -/
def isNumeral (w : String) : Bool := w != "" && w.toList.all Char.isDigit

/-- What a word stands for: an empty slot, a literal if it is a numeral, or else a term. -/
def ofWord (w : String) : Option Expression :=
  if w = "null" then none
  else if isNumeral w then some (literal 0 (some w))
  else some (term 0 (some w) none)

/-- What a word with arguments stands for: one of the three kinds of node that are written so, or an
operator with an operand. -/
def ofApplied (w : String) (arguments : List (Option Expression)) : Expression :=
  if w = "ternary" then
    match arguments with
    | [condition, thenPart, elsePart] => ternary condition thenPart elsePart
    | _ => choice [] -- in no chain of an expression
  else if w = "arithmetic_group" then group arguments.head?.join
  else if w = "non_deterministic_choice" then choice (arguments.filterMap id)
  else unary w arguments.head?.join

/-- What a word with a type stands for. -/
def ofTyped (w type : String) (operand : Option Expression) : Expression :=
  if w = "cast" then cast type operand else typeTest type operand

mutual
/-- What a link stands for. -/
def ofLink : Link → Option Expression
  | .word w => ofWord w
  | .applied w arguments => some (ofApplied w (ofArguments arguments))
  | .typed w type operand => some (ofTyped w type (ofLinks operand))
  | .infixed operator left right => some (binary operator (ofLinks left) (ofLinks right))
/-- What a chain stands for, its member accesses grouped to the right. -/
def ofLinks : List Link → Option Expression
  | [] => none
  | [l] => ofLink l
  | l :: l' :: ls => some (member (ofLink l) (ofLinks (l' :: ls)))
/-- What several chains stand for. -/
def ofArguments : List (List Link) → List (Option Expression)
  | [] => []
  | c :: cs => ofLinks c :: ofArguments cs
end

/-! ## Ordinary expressions -/

/-- Whether a text is an ASCII identifier. -/
def isIdentifier (w : String) : Bool :=
  match w.toList with
  | [] => false
  | first :: more =>
      (first.isAlpha || first == '_') && more.all fun c => c.isAlphanum || c == '_'

/-- Whether an operator with one operand is a word, and not the name of another kind of node that is
written with arguments. -/
def isPrefixName (operator : String) : Bool :=
  isLinkWord operator &&
    !(["ternary", "arithmetic_group", "non_deterministic_choice"].contains operator)

mutual
/-- Whether terms are identifiers without arguments, literals are numerals, and every operator and
type shows where it ends. -/
def isOrdinary : Expression → Bool
  | binary operator left right =>
      !operator.toList.contains ' ' && slotIsOrdinary left && slotIsOrdinary right
  | unary operator operand => isPrefixName operator && slotIsOrdinary operand
  | member left right => slotIsOrdinary left && slotIsOrdinary right
  | term _ (some name) none => isIdentifier name && name != "null"
  | term _ none _ => false
  | term _ (some _) (some _) => false
  | literal _ (some value) => isNumeral value
  | literal _ none => false
  | ternary condition thenPart elsePart =>
      slotIsOrdinary condition && slotIsOrdinary thenPart && slotIsOrdinary elsePart
  | group inner => slotIsOrdinary inner
  | cast targetType inner => !targetType.toList.contains '>' && slotIsOrdinary inner
  | typeTest typeName inner => !typeName.toList.contains '>' && slotIsOrdinary inner
  | choice choices => listIsOrdinary choices
/-- Whether what a slot holds is ordinary. -/
def slotIsOrdinary : Option Expression → Bool
  | none => true
  | some e => isOrdinary e
/-- Whether several expressions are ordinary. -/
def listIsOrdinary : List Expression → Bool
  | [] => true
  | e :: es => isOrdinary e && listIsOrdinary es
end

end Expression
end ActorLtl
