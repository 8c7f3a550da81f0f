/-
# Formula text

The text of a formula, as it is shown to a reader and handed to a translation engine.

| formula | text |
| --- | --- |
| constants | `true`, `false` |
| proposition with a name | the name, quoted unless it is plain |
| proposition without a name | `p` and its number |
| negation | `!operand` |
| conjunction, disjunction | the operands with ` & ` or ` | ` between them |
| `X`, `G`, `F` | the letter, a space, the operand |
| `U`, `W`, `M`, `R` | the operands with the letter, in spaces, between them |

An operand that is itself a conjunction, a disjunction or one of the last row stands in
parentheses.  A name is *plain* if it is an ASCII identifier and not one of the words that
formula texts use; `quote` puts any other name between double quotes, a backslash before
each double quote and backslash inside (`unquote_quote`: nothing is lost).
-/

import ActorLtl.Formula

namespace ActorLtl

/-! ## Names -/

/-- The identifiers that have a meaning in formula texts. -/
def reservedWords : List String :=
  ["true", "false", "X", "F", "G", "U", "W", "M", "R", "tt", "ff"]

/-- Whether a name can stand in a formula text as it is: an ASCII letter or `_`, then ASCII
letters, digits and `_`, and no reserved word. -/
def isPlainName (name : String) : Bool :=
  match name.toList with
  | [] => false
  | first :: more =>
      (first.isAlpha || first == '_') && more.all (fun c => c.isAlphanum || c == '_') &&
        !reservedWords.contains name

/-- Puts a backslash before each double quote and backslash. -/
def escapeQuotes : List Char → List Char
  | [] => []
  | c :: cs => if c = '"' ∨ c = '\\' then '\\' :: c :: escapeQuotes cs else c :: escapeQuotes cs

/-- A name between double quotes. -/
def quote (name : String) : String :=
  String.ofList ('"' :: escapeQuotes name.toList ++ ['"'])

/-- Reads the rest of a quoted name, up to the double quote that ends it: the name and what
follows. -/
def unquoteBody : List Char → Option (List Char × List Char)
  | [] => none
  | '"' :: rest => some ([], rest)
  | '\\' :: c :: rest => (unquoteBody rest).map fun (name, rest) => (c :: name, rest)
  | c :: rest => (unquoteBody rest).map fun (name, rest) => (c :: name, rest)

/-- **A quoted name reads back,** whatever follows it. -/
theorem unquoteBody_escapeQuotes (name rest : List Char) :
    unquoteBody (escapeQuotes name ++ '"' :: rest) = some (name, rest) := by
  induction name with
  | nil => rfl
  | cons c cs ih =>
    by_cases h : c = '"' ∨ c = '\\'
    · simp [escapeQuotes, h, unquoteBody, ih]
    · rw [not_or] at h
      simp only [escapeQuotes, h, or_self, ite_false, List.cons_append]
      rw [unquoteBody.eq_def]
      split <;> simp_all

/-- How a proposition called `name` stands in a formula text. -/
def nameText (name : String) : String := if isPlainName name then name else quote name

/-- How proposition `index` stands in a formula text. -/
def atomText (names : List String) (index : Nat) : String :=
  match names[index]? with
  | some name => nameText name
  | none => "p" ++ toString index

/-! ## Formulas -/

namespace Formula

/-- Parentheses around what `body` writes, if they are needed. -/
def enclose (needed : Bool) (body : List String → List String) (rest : List String) :
    List String :=
  if needed then "(" :: body (")" :: rest) else body rest

mutual
/-- The pieces of a formula's text, followed by `rest`; `inner` says that the formula stands
as an operand. -/
def piecesOnto (names : List String) (inner : Bool) : Formula → List String → List String
  | constant true, rest => "true" :: rest
  | constant false, rest => "false" :: rest
  | atom index, rest => atomText names index :: rest
  | negation f, rest => "!" :: piecesOnto names true f rest
  | conjunction fs, rest => enclose inner (joinedOnto names " & " fs) rest
  | disjunction fs, rest => enclose inner (joinedOnto names " | " fs) rest
  | next f, rest => "X " :: piecesOnto names true f rest
  | globally f, rest => "G " :: piecesOnto names true f rest
  | eventually f, rest => "F " :: piecesOnto names true f rest
  | strongUntil f g, rest =>
      enclose inner (fun rest => piecesOnto names true f (" U " :: piecesOnto names true g rest)) rest
  | weakUntil f g, rest =>
      enclose inner (fun rest => piecesOnto names true f (" W " :: piecesOnto names true g rest)) rest
  | strongRelease f g, rest =>
      enclose inner (fun rest => piecesOnto names true f (" M " :: piecesOnto names true g rest)) rest
  | release f g, rest =>
      enclose inner (fun rest => piecesOnto names true f (" R " :: piecesOnto names true g rest)) rest
/-- The operands of a connective with `separator` between them, followed by `rest`. -/
def joinedOnto (names : List String) (separator : String) :
    List Formula → List String → List String
  | [], rest => rest
  | f :: fs, rest => piecesOnto names true f (joinedMoreOnto names separator fs rest)
/-- The operands after the first, each with the separator before it, followed by `rest`. -/
def joinedMoreOnto (names : List String) (separator : String) :
    List Formula → List String → List String
  | [], rest => rest
  | f :: fs, rest => separator :: piecesOnto names true f (joinedMoreOnto names separator fs rest)
end

/-- The text of a formula whose propositions are called by `names`, as far as these go. -/
def text (f : Formula) (names : List String) : String :=
  String.join (f.piecesOnto names false [])

end Formula

/-- The text of a formula with the names of its propositions. -/
def LabelledFormula.text (labelled : LabelledFormula) : String :=
  labelled.formula.text labelled.propositions

/-- An example with every kind of name and both uses of parentheses. -/
example : (Formula.strongUntil
      (.and (.atom 0) (.negation (.or (.atom 1) (.atom 2)))) (.globally (.next (.constant true)))).text
      ["idle", "a.b"] = "(idle & !(\"a.b\" | p2)) U G X true" := by
  decide +kernel

end ActorLtl
