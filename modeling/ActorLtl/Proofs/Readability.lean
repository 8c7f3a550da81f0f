/-
# Formula texts can be read in one way only

A phrase opens with a word, a quoted name, a mark or a parenthesis, and `readOpening` tells which
from the text alone (`readOpening_chars`).  After the opening a mark is followed by one operand
and a parenthesis by operands with one joint between them, and every operand ends where the text
stops being a word or its parenthesis closes.  So two phrases whose texts agree are the same, as
long as every joint has two operands at least (`Phrase.eq_of_chars_append_eq`), and two labelled
formulas with one text are the same formula by name.
-/

import ActorLtl.Proofs.Assembly
import ActorLtl.Proofs.Phrase

namespace ActorLtl

/-! ## Openings -/

/-- What a phrase begins with. -/
inductive Opening where
  | truth (value : Bool)
  | named (name : String)
  | mark (mark : Mark)
  | parenthesis
  deriving DecidableEq, Repr

def Opening.chars : Opening → List Char
  | truth value => (truthText value).toList
  | named name => (nameText name).toList
  | mark m => m.text.toList
  | parenthesis => ['(']

/-- The characters of a word. -/
def isWordChar (c : Char) : Bool := c.isAlphanum || c == '_'

/-- Whether a text does not go on with a word. -/
def Breaks (text : List Char) : Prop := ∀ c ∈ text.head?, isWordChar c = false

/-- The opening that is a word. -/
def wordOpening (word : String) : Opening :=
  if word = "true" then .truth true
  else if word = "false" then .truth false
  else if word = "X" then .mark .next
  else if word = "G" then .mark .globally
  else if word = "F" then .mark .eventually
  else .named word

/-- Reads a word and what is left after it; the space after a mark belongs to the mark. -/
def readWord (text : List Char) : Opening × List Char :=
  let rest := text.dropWhile isWordChar
  match wordOpening (String.ofList (text.takeWhile isWordChar)) with
  | .mark m => (.mark m, rest.tail)
  | opening => (opening, rest)

/-- Reads the opening of a text: the opening and what is left. -/
def readOpening : List Char → Option (Opening × List Char)
  | '!' :: rest => some (.mark .not, rest)
  | '(' :: rest => some (.parenthesis, rest)
  | '"' :: rest => (unquoteBody rest).map fun (name, rest) => (.named (String.ofList name), rest)
  | text => some (readWord text)

/-- **A word ends where the text stops being one.** -/
theorem split_word {word rest : List Char} (all : word.all isWordChar) (h : Breaks rest) :
    (word ++ rest).takeWhile isWordChar = word ∧ (word ++ rest).dropWhile isWordChar = rest := by
  have word_chars : ∀ c ∈ word, isWordChar c := List.all_eq_true.1 all
  rw [List.takeWhile_append_of_pos word_chars, List.dropWhile_append_of_pos word_chars]
  cases rest with
  | nil => simp
  | cons c cs =>
    have : isWordChar c = false := h c rfl
    simp [this]

/-- **A text that opens with a word is read as one.** -/
theorem readOpening_of_isWordChar {c : Char} {text : List Char} (h : isWordChar c) :
    readOpening (c :: text) = some (readWord (c :: text)) := by
  rw [readOpening.eq_def]
  split
  · rename_i same
    cases same
    exact absurd h (by decide)
  · rename_i same
    cases same
    exact absurd h (by decide)
  · rename_i same
    cases same
    exact absurd h (by decide)
  · rfl

/-- **A plain name is a word,** and no reserved one. -/
theorem word_of_isPlainName {name : String} (h : isPlainName name) :
    name ≠ "" ∧ name.toList.all isWordChar ∧ name ∉ reservedWords := by
  unfold isPlainName at h
  split at h
  · cases h
  · rename_i first more spelt
    simp only [Bool.and_eq_true, List.all_eq_true, Bool.not_eq_true',
      List.contains_eq_mem, decide_eq_false_iff_not] at h
    refine ⟨fun empty => by simp [empty] at spelt, List.all_eq_true.2 fun c mem => ?_, h.2⟩
    rw [spelt] at mem
    rcases List.mem_cons.1 mem with rfl | mem
    · have opened := h.1.1
      simp only [Bool.or_eq_true] at opened
      simp only [isWordChar, Char.isAlphanum, Bool.or_eq_true]
      exact opened.imp_left .inl
    · exact h.1.2 c mem

/-- **No plain name opens as anything but a name.** -/
theorem wordOpening_of_isPlainName {name : String} (h : isPlainName name) :
    wordOpening name = .named name := by
  have free := (word_of_isPlainName h).2.2
  simp only [reservedWords, List.mem_cons, not_or] at free
  simp [wordOpening, free]

/-- **A word is read up to the break after it.** -/
theorem readOpening_word (word : String) {rest : List Char} (filled : word ≠ "")
    (all : word.toList.all isWordChar) (h : Breaks rest) :
    readOpening (word.toList ++ rest) = some (match wordOpening word with
      | .mark m => (.mark m, rest.tail)
      | opening => (opening, rest)) := by
  obtain ⟨c, cs, spelt⟩ := List.exists_cons_of_ne_nil (mt String.toList_eq_nil_iff.1 filled)
  have opens : isWordChar c := List.all_eq_true.1 all c (by rw [spelt]; exact List.mem_cons_self)
  have reads : readOpening (word.toList ++ rest) = some (readWord (word.toList ++ rest)) := by
    rw [spelt, List.cons_append]
    exact readOpening_of_isWordChar opens
  obtain ⟨taken, left⟩ := split_word all h
  rw [reads, readWord, taken, left, String.ofList_toList]

/-- Whether nothing but a break tells where the opening ends. -/
def Opening.isOpenEnded : Opening → Bool
  | truth _ => true
  | named _ => true
  | mark _ => false
  | parenthesis => false

/-- **What a phrase begins with is read off its text.** -/
theorem readOpening_chars (o : Opening) {rest : List Char} (h : o.isOpenEnded → Breaks rest) :
    readOpening (o.chars ++ rest) = some (o, rest) := by
  have space : Breaks (' ' :: rest) := by
    intro c mem
    cases mem
    decide
  match o with
  | .truth true => exact readOpening_word "true" (by decide) (by decide) (h rfl)
  | .truth false => exact readOpening_word "false" (by decide) (by decide) (h rfl)
  | .named name =>
    by_cases plain : isPlainName name
    · obtain ⟨filled, all, -⟩ := word_of_isPlainName plain
      have reads := readOpening_word name filled all (h rfl)
      rw [wordOpening_of_isPlainName plain] at reads
      rw [Opening.chars, nameText, if_pos plain]
      exact reads
    · have quoted : (Opening.named name).chars ++ rest =
          '"' :: (escapeQuotes name.toList ++ '"' :: rest) := by
        simp [Opening.chars, nameText, plain, quote]
      rw [quoted]
      simp [readOpening, unquoteBody_escapeQuotes]
  | .mark .not => rfl
  | .mark .next => exact readOpening_word "X" (by decide) (by decide) space
  | .mark .globally => exact readOpening_word "G" (by decide) (by decide) space
  | .mark .eventually => exact readOpening_word "F" (by decide) (by decide) space
  | .parenthesis => rfl

/-! ## Phrases -/

/-- Joints are told apart by their texts, whatever follows them. -/
theorem Joint.eq_of_text_append_eq {joint joint' : Joint} {rest rest' : List Char}
    (same : joint.text.toList ++ rest = joint'.text.toList ++ rest') :
    joint = joint' ∧ rest = rest' := by
  cases joint <;> cases joint' <;> simp_all [text]

namespace Phrase

mutual
/-- Whether every joint has two operands at least. -/
def IsClear : Phrase → Prop
  | truth _ => True
  | named _ => True
  | marked _ p => IsClear p
  | joined _ ps => 2 ≤ ps.length ∧ AllClear ps
/-- Whether several phrases are clear. -/
def AllClear : List Phrase → Prop
  | [] => True
  | p :: ps => IsClear p ∧ AllClear ps
end

def opening : Phrase → Opening
  | truth value => .truth value
  | named name => .named name
  | marked mark _ => .mark mark
  | joined _ _ => .parenthesis

/-- What follows the opening. -/
def afterOpening : Phrase → List Char
  | truth _ => []
  | named _ => []
  | marked _ p => p.chars
  | joined joint ps => joinedChars joint ps ++ [')']

theorem chars_eq (p : Phrase) : p.chars = p.opening.chars ++ p.afterOpening := by
  cases p with
  | truth _ | named _ => simp [chars, opening, Opening.chars, afterOpening]
  | marked _ _ | joined _ _ => simp [chars, opening, Opening.chars, afterOpening]

/-- **Texts that agree open alike** and agree after their openings. -/
theorem opening_eq {p q : Phrase} {rest rest' : List Char} (h : Breaks rest) (h' : Breaks rest')
    (same : p.chars ++ rest = q.chars ++ rest') :
    p.opening = q.opening ∧ p.afterOpening ++ rest = q.afterOpening ++ rest' := by
  have reads : ∀ (p : Phrase) {rest : List Char}, Breaks rest →
      readOpening (p.chars ++ rest) = some (p.opening, p.afterOpening ++ rest) := by
    intro p rest h
    rw [chars_eq, List.append_assoc]
    refine readOpening_chars _ fun openEnded => ?_
    cases p with
    | truth _ | named _ => exact h
    | marked _ _ | joined _ _ => cases openEnded
  have readSame := reads p h
  rw [same, reads q h'] at readSame
  simpa using (Option.some.inj readSame).symm

theorem breaks_close (rest : List Char) : Breaks (')' :: rest) := by
  intro c mem
  cases mem
  decide

/-- Where an operand ends, the text goes on with a joint or closes. -/
theorem breaks_moreChars (joint : Joint) (ps : List Phrase) {rest : List Char} (h : Breaks rest) :
    Breaks (moreChars joint ps ++ rest) := by
  cases ps with
  | nil => exact h
  | cons p ps =>
    intro c mem
    cases joint <;> cases mem <;> decide

/-- **Operands that go on alike have one joint.** -/
theorem joint_eq_of_moreChars_eq {joint joint' : Joint} {p q : Phrase} {ps qs : List Phrase}
    {rest rest' : List Char}
    (same : moreChars joint (p :: ps) ++ rest = moreChars joint' (q :: qs) ++ rest') :
    joint = joint' := by
  simp only [moreChars, List.append_assoc] at same
  exact (Joint.eq_of_text_append_eq same).1

mutual
/-- **A phrase is read off its text,** whatever follows after a break. -/
theorem eq_of_chars_append_eq : (p q : Phrase) → p.IsClear → q.IsClear → (rest rest' : List Char) →
    Breaks rest → Breaks rest' → p.chars ++ rest = q.chars ++ rest' → p = q ∧ rest = rest'
  | .truth value, q, _, _, rest, rest', h, h', same => by
      obtain ⟨opened, after⟩ := opening_eq h h' same
      cases q with
      | truth value' => cases opened; exact ⟨rfl, after⟩
      | _ => cases opened
  | .named name, q, _, _, rest, rest', h, h', same => by
      obtain ⟨opened, after⟩ := opening_eq h h' same
      cases q with
      | named name' => cases opened; exact ⟨rfl, after⟩
      | _ => cases opened
  | .marked mark p, q, hp, hq, rest, rest', h, h', same => by
      obtain ⟨opened, after⟩ := opening_eq h h' same
      cases q with
      | marked mark' q =>
        cases opened
        obtain ⟨rfl, rest_eq⟩ := eq_of_chars_append_eq p q hp hq rest rest' h h' after
        exact ⟨rfl, rest_eq⟩
      | _ => cases opened
  | .joined joint [], _, hp, _, _, _, _, _, _ => by simp [IsClear] at hp
  | .joined joint [_], _, hp, _, _, _, _, _, _ => by simp [IsClear] at hp
  | .joined joint (p :: p₂ :: ps), q, hp, hq, rest, rest', h, h', same => by
      obtain ⟨opened, after⟩ := opening_eq h h' same
      cases q with
      | joined joint' qs =>
        match qs, hq with
        | [], hq => simp [IsClear] at hq
        | [_], hq => simp [IsClear] at hq
        | q :: q₂ :: qs, hq =>
          simp only [afterOpening, joinedChars, List.append_assoc, List.singleton_append] at after
          obtain ⟨rfl, more⟩ := eq_of_chars_append_eq p q hp.2.1 hq.2.1 _ _
            (breaks_moreChars joint (p₂ :: ps) (breaks_close rest))
            (breaks_moreChars joint' (q₂ :: qs) (breaks_close rest')) after
          obtain rfl := joint_eq_of_moreChars_eq more
          obtain ⟨same_more, rest_eq⟩ :=
            eq_of_moreChars_eq joint (p₂ :: ps) (q₂ :: qs) hp.2.2 hq.2.2 rest rest' more
          exact ⟨by rw [same_more], rest_eq⟩
      | _ => cases opened
/-- **The operands after the first are read off the text** up to where the parenthesis closes. -/
theorem eq_of_moreChars_eq (joint : Joint) : (ps qs : List Phrase) → AllClear ps → AllClear qs →
    (rest rest' : List Char) →
    moreChars joint ps ++ ')' :: rest = moreChars joint qs ++ ')' :: rest' → ps = qs ∧ rest = rest'
  | [], [], _, _, rest, rest', same => by simpa [moreChars] using same
  | [], q :: qs, _, _, rest, rest', same => by
      cases joint <;> simp [moreChars, Joint.text] at same
  | p :: ps, [], _, _, rest, rest', same => by
      cases joint <;> simp [moreChars, Joint.text] at same
  | p :: ps, q :: qs, hp, hq, rest, rest', same => by
      simp only [moreChars, List.append_assoc] at same
      have after := (Joint.eq_of_text_append_eq same).2
      obtain ⟨rfl, more⟩ := eq_of_chars_append_eq p q hp.1 hq.1 _ _
        (breaks_moreChars joint ps (breaks_close rest))
        (breaks_moreChars joint qs (breaks_close rest')) after
      obtain ⟨rfl, rest_eq⟩ := eq_of_moreChars_eq joint ps qs hp.2 hq.2 rest rest' more
      exact ⟨rfl, rest_eq⟩
end

/-- Joined pairs have the same operands. -/
theorem pair_inj {joint : Joint} {p p' q q' : Phrase}
    (same : joined joint [p, q] = joined joint [p', q']) : p = p' ∧ q = q' := by
  simpa using same

theorem breaks_nil : Breaks [] := by
  intro c mem
  cases mem

/-- **One operand is not the text of two.** -/
theorem chars_ne_joinedChars {p : Phrase} {joint : Joint} {ps : List Phrase} (hp : p.IsClear)
    (hq : (joined joint ps).IsClear) : p.chars ≠ joinedChars joint ps := by
  intro same
  match ps, hq with
  | [], hq => simp [IsClear] at hq
  | [_], hq => simp [IsClear] at hq
  | q :: q₂ :: qs, hq =>
    rw [joinedChars, ← List.append_nil p.chars, ← List.append_nil (moreChars _ _)] at same
    obtain ⟨-, rest⟩ := eq_of_chars_append_eq p q hp hq.2.1 _ _ breaks_nil
      (breaks_moreChars joint (q₂ :: qs) breaks_nil) same
    cases joint <;> simp [moreChars, Joint.text] at rest

/-- **A phrase is read off its text when it stands alone.** -/
theorem eq_of_aloneChars_eq {p q : Phrase} (hp : p.IsClear) (hq : q.IsClear)
    (same : p.aloneChars = q.aloneChars) : p = q := by
  have operands : ∀ {p q : Phrase}, p.IsClear → q.IsClear → p.chars = q.chars → p = q := by
    intro p q hp hq same
    rw [← List.append_nil p.chars, ← List.append_nil q.chars] at same
    exact (eq_of_chars_append_eq p q hp hq _ _ breaks_nil breaks_nil same).1
  cases p with
  | joined joint ps =>
    cases q with
    | joined joint' qs =>
      apply operands hp hq
      rw [aloneChars, aloneChars] at same
      rw [chars, chars, same]
    | _ => exact absurd same.symm (chars_ne_joinedChars hq hp)
  | _ =>
    cases q with
    | joined joint' qs => exact absurd same (chars_ne_joinedChars hp hq)
    | _ => exact operands hp hq same

end Phrase

/-! ## Formulas -/

namespace Formula

mutual
/-- **A formula is clear as a phrase** if its connectives have two operands at least. -/
theorem isClear_phrase (names : List String) : (f : Formula) → (∀ n ∈ f.operandCounts, 2 ≤ n) →
    (f.phrase names).IsClear
  | constant _, _ => trivial
  | atom _, _ => trivial
  | negation f, h => isClear_phrase names f h
  | next f, h => isClear_phrase names f h
  | globally f, h => isClear_phrase names f h
  | eventually f, h => isClear_phrase names f h
  | conjunction fs, h | disjunction fs, h => by
      obtain ⟨enough, inside⟩ := List.forall_mem_cons.1 h
      rw [phrase, Phrase.IsClear, length_phrases]
      exact ⟨enough, allClear_phrases names fs inside⟩
  | strongUntil f g, h | weakUntil f g, h | strongRelease f g, h | release f g, h => by
      obtain ⟨ofLeft, ofRight⟩ := List.forall_mem_append.1 h
      exact ⟨Nat.le_refl _, isClear_phrase names f ofLeft, isClear_phrase names g ofRight, trivial⟩
theorem allClear_phrases (names : List String) : (fs : List Formula) →
    (∀ n ∈ listOperandCounts fs, 2 ≤ n) → Phrase.AllClear (phrases names fs)
  | [], _ => trivial
  | f :: fs, h => by
      simp only [listOperandCounts, List.forall_mem_append] at h
      exact ⟨isClear_phrase names f h.1, allClear_phrases names fs h.2⟩
end

/-- Whether every proposition of a formula has a name. -/
def AllNamed (names : List String) (f : Formula) : Prop := ∀ i ∈ f.atoms, i < names.length

variable {names names' : List String}

/-- If the propositions of a formula have names, so have those of its two operands. -/
theorem AllNamed.split {f g whole : Formula} (h : AllNamed names whole)
    (mem : ∀ i, i ∈ whole.atoms ↔ i ∈ f.atoms ∨ i ∈ g.atoms) :
    AllNamed names f ∧ AllNamed names g :=
  ⟨fun i atom => h i ((mem i).2 (.inl atom)), fun i atom => h i ((mem i).2 (.inr atom))⟩

mutual
/-- **Formulas of one phrase are the same by name,** if their propositions have names. -/
theorem sameByName_of_phrase_eq : (f g : Formula) → AllNamed names f → AllNamed names' g →
    f.phrase names = g.phrase names' → SameByName names names' f g
  | constant value, g, hf, hg, same => by
      cases g with
      | constant value' => exact Phrase.truth.inj same
      | _ => cases same
  | atom index, g, hf, hg, same => by
      cases g with
      | atom index' =>
        have inside : index < names.length := hf index (mem_atoms_atom.2 rfl)
        have inside' : index' < names'.length := hg index' (mem_atoms_atom.2 rfl)
        have texts := Phrase.named.inj same
        rw [List.getElem?_eq_getElem inside, List.getElem?_eq_getElem inside'] at texts
        rw [SameByName, List.getElem?_eq_getElem inside, List.getElem?_eq_getElem inside']
        exact congrArg some texts
      | _ => cases same
  | negation f, g, hf, hg, same => by
      cases g with
      | negation g =>
        simp only [AllNamed, mem_atoms_negation] at hf hg
        exact sameByName_of_phrase_eq f g hf hg (Phrase.marked.inj same).2
      | _ => cases same
  | next f, g, hf, hg, same => by
      cases g with
      | next g =>
        simp only [AllNamed, mem_atoms_next] at hf hg
        exact sameByName_of_phrase_eq f g hf hg (Phrase.marked.inj same).2
      | _ => cases same
  | globally f, g, hf, hg, same => by
      cases g with
      | globally g =>
        simp only [AllNamed, mem_atoms_globally] at hf hg
        exact sameByName_of_phrase_eq f g hf hg (Phrase.marked.inj same).2
      | _ => cases same
  | eventually f, g, hf, hg, same => by
      cases g with
      | eventually g =>
        simp only [AllNamed, mem_atoms_eventually] at hf hg
        exact sameByName_of_phrase_eq f g hf hg (Phrase.marked.inj same).2
      | _ => cases same
  | conjunction fs, g, hf, hg, same => by
      cases g with
      | conjunction gs =>
        simp only [AllNamed, mem_atoms_conjunction] at hf hg
        exact listSameByName_of_phrases_eq fs gs (fun f mem i atom => hf i ⟨f, mem, atom⟩)
          (fun g mem i atom => hg i ⟨g, mem, atom⟩) (Phrase.joined.inj same).2
      | _ => cases same
  | disjunction fs, g, hf, hg, same => by
      cases g with
      | disjunction gs =>
        simp only [AllNamed, mem_atoms_disjunction] at hf hg
        exact listSameByName_of_phrases_eq fs gs (fun f mem i atom => hf i ⟨f, mem, atom⟩)
          (fun g mem i atom => hg i ⟨g, mem, atom⟩) (Phrase.joined.inj same).2
      | _ => cases same
  | strongUntil f₁ f₂, g, hf, hg, same => by
      cases g with
      | strongUntil g₁ g₂ =>
        obtain ⟨hf₁, hf₂⟩ := hf.split fun _ => mem_atoms_strongUntil
        obtain ⟨hg₁, hg₂⟩ := hg.split fun _ => mem_atoms_strongUntil
        obtain ⟨left, right⟩ := Phrase.pair_inj same
        exact ⟨sameByName_of_phrase_eq f₁ g₁ hf₁ hg₁ left,
          sameByName_of_phrase_eq f₂ g₂ hf₂ hg₂ right⟩
      | _ => cases same
  | weakUntil f₁ f₂, g, hf, hg, same => by
      cases g with
      | weakUntil g₁ g₂ =>
        obtain ⟨hf₁, hf₂⟩ := hf.split fun _ => mem_atoms_weakUntil
        obtain ⟨hg₁, hg₂⟩ := hg.split fun _ => mem_atoms_weakUntil
        obtain ⟨left, right⟩ := Phrase.pair_inj same
        exact ⟨sameByName_of_phrase_eq f₁ g₁ hf₁ hg₁ left,
          sameByName_of_phrase_eq f₂ g₂ hf₂ hg₂ right⟩
      | _ => cases same
  | strongRelease f₁ f₂, g, hf, hg, same => by
      cases g with
      | strongRelease g₁ g₂ =>
        obtain ⟨hf₁, hf₂⟩ := hf.split fun _ => mem_atoms_strongRelease
        obtain ⟨hg₁, hg₂⟩ := hg.split fun _ => mem_atoms_strongRelease
        obtain ⟨left, right⟩ := Phrase.pair_inj same
        exact ⟨sameByName_of_phrase_eq f₁ g₁ hf₁ hg₁ left,
          sameByName_of_phrase_eq f₂ g₂ hf₂ hg₂ right⟩
      | _ => cases same
  | release f₁ f₂, g, hf, hg, same => by
      cases g with
      | release g₁ g₂ =>
        obtain ⟨hf₁, hf₂⟩ := hf.split fun _ => mem_atoms_release
        obtain ⟨hg₁, hg₂⟩ := hg.split fun _ => mem_atoms_release
        obtain ⟨left, right⟩ := Phrase.pair_inj same
        exact ⟨sameByName_of_phrase_eq f₁ g₁ hf₁ hg₁ left,
          sameByName_of_phrase_eq f₂ g₂ hf₂ hg₂ right⟩
      | _ => cases same
theorem listSameByName_of_phrases_eq : (fs gs : List Formula) → (∀ f ∈ fs, AllNamed names f) →
    (∀ g ∈ gs, AllNamed names' g) → phrases names fs = phrases names' gs →
    ListSameByName names names' fs gs
  | [], [], _, _, _ => trivial
  | [], _ :: _, _, _, same => by cases same
  | _ :: _, [], _, _, same => by cases same
  | f :: fs, g :: gs, hf, hg, same => by
      rw [List.forall_mem_cons] at hf hg
      simp only [phrases, List.cons.injEq] at same
      exact ⟨sameByName_of_phrase_eq f g hf.1 hg.1 same.1,
        listSameByName_of_phrases_eq fs gs hf.2 hg.2 same.2⟩
end

end Formula

namespace LabelledFormula

/-- Whether a labelled formula can be read off its text: its connectives have two operands at
least, and its propositions have names. -/
structure IsReadable (labelled : LabelledFormula) : Prop where
  operands : ∀ n ∈ labelled.formula.operandCounts, 2 ≤ n
  named : ∀ i ∈ labelled.formula.atoms, i < labelled.propositions.length

/-- Whether two labelled formulas are the same formula by name. -/
def Same (labelled labelled' : LabelledFormula) : Prop :=
  Formula.SameByName labelled.propositions labelled'.propositions labelled.formula
    labelled'.formula

/-- **One text, one formula.** -/
theorem same_of_text_eq {labelled labelled' : LabelledFormula} (h : labelled.IsReadable)
    (h' : labelled'.IsReadable) (same : labelled.text = labelled'.text) :
    labelled.Same labelled' := by
  have chars := congrArg String.toList same
  rw [text, text, Formula.toList_text, Formula.toList_text] at chars
  have phrases := Phrase.eq_of_aloneChars_eq (Formula.isClear_phrase _ _ h.operands)
    (Formula.isClear_phrase _ _ h'.operands) chars
  exact Formula.sameByName_of_phrase_eq _ _ h.named h'.named phrases

end LabelledFormula

/-- **What assembly gives is readable.** -/
theorem Definition.isReadable_of_assemble {limit : Nat} {d : Definition} {r : Registry}
    {labelled : LabelledFormula} (h : ((d.assemble limit).run r).1 = .ok labelled) :
    labelled.IsReadable := by
  cases deep : d.excessiveDepth? limit with
  | some depth =>
    rw [assemble_of_excessiveDepth? deep] at h
    cases h
  | none =>
    rw [assemble_run deep] at h
    obtain rfl := Except.ok.inj h
    constructor
    · intro n mem
      exact Nat.le_of_eq (Expression.operandCounts_slotFormula _ _ n mem).symm
    · intro i mem
      obtain ⟨name, key, rfl⟩ := Expression.exists_key_of_mem_atoms mem
      exact Registry.number_lt (Registry.mem_nameList_internAll.2 (.inr key))

namespace LabelledFormula

/-- **The text determines the formula.**  Readable labelled formulas with one text are the same
formula by name; what assembly gives is readable, whatever the registry; so definitions whose
formulas have one text, assembled anywhere, have the same formula by name. -/
theorem text_determines :
    (∀ labelled labelled' : LabelledFormula, labelled.IsReadable → labelled'.IsReadable →
      labelled.text = labelled'.text → labelled.Same labelled') ∧
    (∀ (limit : Nat) (d : Definition) (r : Registry) (labelled : LabelledFormula),
      ((d.assemble limit).run r).1 = .ok labelled → labelled.IsReadable) ∧
    ∀ (limit limit' : Nat) (d d' : Definition) (r r' : Registry)
      (labelled labelled' : LabelledFormula), ((d.assemble limit).run r).1 = .ok labelled →
        ((d'.assemble limit').run r').1 = .ok labelled' → labelled.text = labelled'.text →
          labelled.Same labelled' := by
  refine ⟨fun _ _ => same_of_text_eq, fun _ _ _ _ => Definition.isReadable_of_assemble, ?_⟩
  intro limit limit' d d' r r' labelled labelled' assembled assembled' same
  exact same_of_text_eq (Definition.isReadable_of_assemble assembled)
    (Definition.isReadable_of_assemble assembled') same

/-- Two formulas with numbers and name lists of their own and one text, in which a name is quoted
because it looks like an operator. -/
theorem text_determines_quoted :
    let labelled : LabelledFormula := ⟨.and (.atom 1) (.globally (.atom 0)), ["G", "p0"]⟩
    let labelled' : LabelledFormula := ⟨.and (.atom 0) (.globally (.atom 2)), ["p0", "X", "G"]⟩
    labelled.text = "p0 & G \"G\"" ∧ labelled'.text = "p0 & G \"G\"" ∧ labelled.Same labelled' := by
  intro labelled labelled'
  have text : labelled.text = "p0 & G \"G\"" := by decide +kernel
  have text' : labelled'.text = "p0 & G \"G\"" := by decide +kernel
  refine ⟨text, text', text_determines.1 labelled labelled' ⟨by decide, by decide⟩
    ⟨by decide, by decide⟩ (text.trans text'.symm)⟩

end LabelledFormula
end ActorLtl
