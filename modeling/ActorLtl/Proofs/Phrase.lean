/-
# Formula texts as phrases

A phrase is what the text of a formula shows of it: names in place of numbers, four marks that
stand before one operand, and six joints that stand between operands.

| phrase | as an operand |
| --- | --- |
| truth value | `true`, `false` |
| name | the name, quoted unless it is plain |
| marked | the mark, then the operand |
| joined | the operands with the joint between them, in parentheses |

The text of a formula is the text of its phrase (`Formula.toList_text`), so whatever has the same
phrase has the same text.  `ActorLtl.Proofs.Readability` has the converse.
-/

import ActorLtl.Formula.Named
import ActorLtl.Formula.Text

namespace ActorLtl

/-- What stands before one operand. -/
inductive Mark where
  | not
  | next
  | globally
  | eventually
  deriving DecidableEq, Repr

/-- What stands between operands. -/
inductive Joint where
  | and
  | or
  | strongUntil
  | weakUntil
  | strongRelease
  | release
  deriving DecidableEq, Repr

/-- What the text of a formula shows. -/
inductive Phrase where
  | truth (value : Bool)
  | named (name : String)
  | marked (mark : Mark) (operand : Phrase)
  | joined (joint : Joint) (operands : List Phrase)
  deriving Repr, Inhabited

def Mark.text : Mark → String
  | not => "!"
  | next => "X "
  | globally => "G "
  | eventually => "F "

def Joint.text : Joint → String
  | and => " & "
  | or => " | "
  | strongUntil => " U "
  | weakUntil => " W "
  | strongRelease => " M "
  | release => " R "

/-- The text of a truth value. -/
def truthText : Bool → String
  | true => "true"
  | false => "false"

namespace Phrase

mutual
/-- The text of a phrase that stands as an operand. -/
def chars : Phrase → List Char
  | truth value => (truthText value).toList
  | named name => (nameText name).toList
  | marked mark p => mark.text.toList ++ chars p
  | joined joint ps => '(' :: (joinedChars joint ps ++ [')'])
/-- The operands with the joint between them. -/
def joinedChars (joint : Joint) : List Phrase → List Char
  | [] => []
  | p :: ps => chars p ++ moreChars joint ps
/-- The operands after the first, each with the joint before it. -/
def moreChars (joint : Joint) : List Phrase → List Char
  | [] => []
  | p :: ps => joint.text.toList ++ (chars p ++ moreChars joint ps)
end

/-- The text of a phrase that stands alone. -/
def aloneChars : Phrase → List Char
  | joined joint ps => joinedChars joint ps
  | p => chars p

end Phrase

namespace Formula

mutual
/-- What the text of a formula shows if its propositions are called by `names`. -/
def phrase (names : List String) : Formula → Phrase
  | constant value => .truth value
  | atom index => .named (names[index]?.getD ("p" ++ toString index))
  | negation f => .marked .not (phrase names f)
  | conjunction fs => .joined .and (phrases names fs)
  | disjunction fs => .joined .or (phrases names fs)
  | next f => .marked .next (phrase names f)
  | globally f => .marked .globally (phrase names f)
  | eventually f => .marked .eventually (phrase names f)
  | strongUntil f g => .joined .strongUntil [phrase names f, phrase names g]
  | weakUntil f g => .joined .weakUntil [phrase names f, phrase names g]
  | strongRelease f g => .joined .strongRelease [phrase names f, phrase names g]
  | release f g => .joined .release [phrase names f, phrase names g]
/-- What the texts of several formulas show. -/
def phrases (names : List String) : List Formula → List Phrase
  | [] => []
  | f :: fs => phrase names f :: phrases names fs
end

@[simp] theorem length_phrases (names : List String) (fs : List Formula) :
    (phrases names fs).length = fs.length := by
  induction fs with
  | nil => rfl
  | cons f fs ih => simp [phrases, ih]

/-- **A proposition without a name looks like one called `p` and its number.** -/
theorem isPlainName_default (index : Nat) : isPlainName ("p" ++ toString index) := by
  have spelt : ("p" ++ toString index).toList = 'p' :: Nat.toDigits 10 index := by simp
  have digits : (Nat.toDigits 10 index).all (fun c => c.isAlphanum || c == '_') := by
    rw [List.all_eq_true]
    intro c mem
    simp [Char.isAlphanum, Nat.isDigit_of_mem_toDigits (by decide) (by decide) mem]
  have free : "p" ++ toString index ∉ reservedWords := by
    intro reserved
    have opened : ∀ word ∈ reservedWords, word.toList.head? ≠ some 'p' := by decide
    exact opened _ reserved (by rw [spelt]; rfl)
  simp only [isPlainName, spelt, digits]
  simpa using free

theorem atomText_eq (names : List String) (index : Nat) :
    atomText names index = nameText (names[index]?.getD ("p" ++ toString index)) := by
  unfold atomText
  cases names[index]? with
  | some name => rfl
  | none => simp only [Option.getD_none, nameText, isPlainName_default, if_true]

end Formula

/-- The characters of several pieces of text. -/
def spell (pieces : List String) : List Char := (String.join pieces).toList

@[simp] theorem spell_nil : spell [] = [] := by simp [spell]

@[simp] theorem spell_cons (piece : String) (pieces : List String) :
    spell (piece :: pieces) = piece.toList ++ spell pieces := by
  simp [spell, String.join_cons]

namespace Formula

mutual
/-- **The pieces of a formula that stands as an operand spell its phrase.** -/
theorem spell_piecesOnto (names : List String) : (f : Formula) → (rest : List String) →
    spell (f.piecesOnto names true rest) = (f.phrase names).chars ++ spell rest
  | constant true, rest => by simp [piecesOnto, phrase, Phrase.chars, truthText]
  | constant false, rest => by simp [piecesOnto, phrase, Phrase.chars, truthText]
  | atom index, rest => by simp [piecesOnto, phrase, Phrase.chars, atomText_eq]
  | negation f, rest => by
      simp [piecesOnto, phrase, Phrase.chars, Mark.text, spell_piecesOnto names f]
  | conjunction fs, rest => by
      have inside := spell_joinedOnto names .and fs (")" :: rest)
      rw [Joint.text] at inside
      simp [piecesOnto, phrase, Phrase.chars, enclose, inside]
  | disjunction fs, rest => by
      have inside := spell_joinedOnto names .or fs (")" :: rest)
      rw [Joint.text] at inside
      simp [piecesOnto, phrase, Phrase.chars, enclose, inside]
  | next f, rest => by
      simp [piecesOnto, phrase, Phrase.chars, Mark.text, spell_piecesOnto names f]
  | globally f, rest => by
      simp [piecesOnto, phrase, Phrase.chars, Mark.text, spell_piecesOnto names f]
  | eventually f, rest => by
      simp [piecesOnto, phrase, Phrase.chars, Mark.text, spell_piecesOnto names f]
  | strongUntil f g, rest => by
      simp [piecesOnto, phrase, Phrase.chars, Phrase.joinedChars, Phrase.moreChars, enclose,
        Joint.text, spell_piecesOnto names f, spell_piecesOnto names g]
  | weakUntil f g, rest => by
      simp [piecesOnto, phrase, Phrase.chars, Phrase.joinedChars, Phrase.moreChars, enclose,
        Joint.text, spell_piecesOnto names f, spell_piecesOnto names g]
  | strongRelease f g, rest => by
      simp [piecesOnto, phrase, Phrase.chars, Phrase.joinedChars, Phrase.moreChars, enclose,
        Joint.text, spell_piecesOnto names f, spell_piecesOnto names g]
  | release f g, rest => by
      simp [piecesOnto, phrase, Phrase.chars, Phrase.joinedChars, Phrase.moreChars, enclose,
        Joint.text, spell_piecesOnto names f, spell_piecesOnto names g]
theorem spell_joinedOnto (names : List String) (joint : Joint) : (fs : List Formula) →
    (rest : List String) → spell (joinedOnto names joint.text fs rest) =
      Phrase.joinedChars joint (phrases names fs) ++ spell rest
  | [], rest => by simp [joinedOnto, phrases, Phrase.joinedChars]
  | f :: fs, rest => by
      simp [joinedOnto, phrases, Phrase.joinedChars, spell_piecesOnto names f,
        spell_joinedMoreOnto names joint fs]
theorem spell_joinedMoreOnto (names : List String) (joint : Joint) : (fs : List Formula) →
    (rest : List String) → spell (joinedMoreOnto names joint.text fs rest) =
      Phrase.moreChars joint (phrases names fs) ++ spell rest
  | [], rest => by simp [joinedMoreOnto, phrases, Phrase.moreChars]
  | f :: fs, rest => by
      simp [joinedMoreOnto, phrases, Phrase.moreChars, spell_piecesOnto names f,
        spell_joinedMoreOnto names joint fs]
end

/-- **The text of a formula is the text of its phrase.** -/
theorem toList_text (f : Formula) (names : List String) :
    (f.text names).toList = (f.phrase names).aloneChars := by
  show spell (f.piecesOnto names false []) = _
  cases f with
  | conjunction fs =>
    have inside := spell_joinedOnto names .and fs []
    rw [Joint.text] at inside
    simp [piecesOnto, enclose, phrase, Phrase.aloneChars, inside]
  | disjunction fs =>
    have inside := spell_joinedOnto names .or fs []
    rw [Joint.text] at inside
    simp [piecesOnto, enclose, phrase, Phrase.aloneChars, inside]
  | strongUntil f g | weakUntil f g | strongRelease f g | release f g =>
    simp [piecesOnto, enclose, phrase, Phrase.aloneChars, Phrase.joinedChars, Phrase.moreChars,
      Joint.text, spell_piecesOnto]
  | constant value =>
    have operand := spell_piecesOnto names (.constant value) []
    rw [spell_nil, List.append_nil] at operand
    cases value <;> exact operand
  | atom index =>
    have operand := spell_piecesOnto names (.atom index) []
    rw [spell_nil, List.append_nil] at operand
    exact operand
  | negation f | next f | globally f | eventually f =>
    simp [piecesOnto, phrase, Phrase.aloneChars, Phrase.chars, Mark.text, spell_piecesOnto]

/-- **The same phrase is the same text.** -/
theorem text_eq_of_phrase_eq {f g : Formula} {names names' : List String}
    (same : f.phrase names = g.phrase names') : f.text names = g.text names' := by
  apply String.toList_injective
  rw [toList_text, toList_text, same]

end Formula
end ActorLtl
