/-
# Canonical texts of ordinary expressions can be read in one way only

The canonical text of an expression is the text of its chain (`Expression.spell_piecesOnto`).  The
chain of an ordinary expression is clear, so it can be read off the text, and it keeps all of the
expression but identities and the grouping of member accesses (`Expression.slotAlike_ofLinks`).
Ordinary expressions with one canonical text are therefore alike.
-/

import ActorLtl.Expression.Alike
import ActorLtl.Proofs.Chains
import ActorLtl.Proofs.Identity
import ActorLtl.Proofs.Phrase

namespace ActorLtl
namespace Expression

open Link (chainOnto moreOnto argumentsOnto moreArgumentsOnto)

/-! ## The chain of an expression -/

mutual
theorem links_ne_nil : (e : Expression) → e.links ≠ []
  | .member left _ => fun h => slotLinks_ne_nil left (List.append_eq_nil_iff.1 h).1
  | .term .. | .literal .. | .binary .. | .unary .. | .ternary .. | .group _ | .cast ..
  | .typeTest .. | .choice _ => List.cons_ne_nil _ _
theorem slotLinks_ne_nil : (slot : Option Expression) → slotLinks slot ≠ []
  | none => List.cons_ne_nil _ _
  | some e => links_ne_nil e
end

mutual
/-- **The canonical text of an expression is that of its chain.** -/
theorem spell_piecesOnto : (e : Expression) → (rest : List String) →
    spell (e.piecesOnto rest) = chainOnto e.links (spell rest)
  | .term _ name _, rest => by simp [piecesOnto, links, chainOnto, moreOnto, Link.charsOnto]
  | .literal _ value, rest => by simp [piecesOnto, links, chainOnto, moreOnto, Link.charsOnto]
  | .member left right, rest => by
      rw [piecesOnto, links, Link.chainOnto_append (slotLinks_ne_nil left) (slotLinks_ne_nil right),
        spell_slotPiecesOnto left, spell_cons, spell_slotPiecesOnto right]
      rfl
  | .binary operator left right, rest => by
      simp [piecesOnto, links, chainOnto, moreOnto, Link.charsOnto, spell_slotPiecesOnto left,
        spell_slotPiecesOnto right]
  | .unary operator operand, rest => by
      simp [piecesOnto, links, chainOnto, moreOnto, Link.charsOnto, argumentsOnto,
        moreArgumentsOnto, spell_slotPiecesOnto operand]
  | .ternary condition thenPart elsePart, rest => by
      simp [piecesOnto, links, chainOnto, moreOnto, Link.charsOnto, argumentsOnto,
        moreArgumentsOnto, spell_slotPiecesOnto condition, spell_slotPiecesOnto thenPart,
        spell_slotPiecesOnto elsePart]
  | .group inner, rest => by
      simp [piecesOnto, links, chainOnto, moreOnto, Link.charsOnto, argumentsOnto,
        moreArgumentsOnto, spell_slotPiecesOnto inner]
  | .cast targetType inner, rest => by
      simp [piecesOnto, links, chainOnto, moreOnto, Link.charsOnto, spell_slotPiecesOnto inner]
  | .typeTest typeName inner, rest => by
      simp [piecesOnto, links, chainOnto, moreOnto, Link.charsOnto, spell_slotPiecesOnto inner]
  | .choice [], rest => by
      simp [piecesOnto, links, listLinks, chainOnto, moreOnto, Link.charsOnto, argumentsOnto]
  | .choice (first :: more), rest => by
      simp [piecesOnto, links, listLinks, chainOnto, moreOnto, Link.charsOnto, argumentsOnto,
        spell_piecesOnto first, spell_morePiecesOnto more]
theorem spell_slotPiecesOnto : (slot : Option Expression) → (rest : List String) →
    spell (slotPiecesOnto slot rest) = chainOnto (slotLinks slot) (spell rest)
  | none, rest => by simp [slotPiecesOnto, slotLinks, chainOnto, moreOnto, Link.charsOnto]
  | some e, rest => spell_piecesOnto e rest
theorem spell_morePiecesOnto : (es : List Expression) → (rest : List String) →
    spell (morePiecesOnto es rest) = moreArgumentsOnto (listLinks es) (spell rest)
  | [], rest => rfl
  | e :: es, rest => by
      simp [morePiecesOnto, listLinks, moreArgumentsOnto, spell_piecesOnto e,
        spell_morePiecesOnto es]
end

/-- No character that ends a word is a letter, a digit or an underscore. -/
theorem isLinkChar_of_isAlphanum {c : Char} (h : c.isAlphanum || c == '_') : isLinkChar c := by
  rw [isLinkChar, Bool.not_eq_true', List.contains_eq_mem, decide_eq_false_iff_not]
  intro among
  simp only [List.mem_cons, List.not_mem_nil, or_false] at among
  rcases among with rfl | rfl | rfl | rfl | rfl | rfl | rfl <;> exact absurd h (by decide)

theorem isLinkWord_of_isIdentifier {w : String} (h : isIdentifier w) : isLinkWord w := by
  rw [isLinkWord_iff]
  unfold isIdentifier at h
  split at h
  · cases h
  · rename_i first more spelt
    rw [Bool.and_eq_true, List.all_eq_true] at h
    refine spelt ▸ ⟨List.cons_ne_nil first more, fun c mem => isLinkChar_of_isAlphanum ?_⟩
    rcases List.mem_cons.1 mem with rfl | mem
    · have opened := h.1
      simp only [Bool.or_eq_true, Char.isAlphanum] at opened ⊢
      exact opened.imp_left .inl
    · exact h.2 c mem

theorem isLinkWord_of_isNumeral {w : String} (h : isNumeral w) : isLinkWord w := by
  rw [isNumeral, Bool.and_eq_true, List.all_eq_true] at h
  rw [isLinkWord, Bool.and_eq_true, List.all_eq_true]
  refine ⟨h.1, fun c mem => isLinkChar_of_isAlphanum ?_⟩
  simp only [Char.isAlphanum, Bool.or_eq_true]
  exact .inl (.inr (h.2 c mem))

mutual
/-- **The chain of an ordinary expression is clear.** -/
theorem chainClear_links : (e : Expression) → e.isOrdinary → Link.ChainClear e.links
  | .binary operator left right, h => by
      simp only [isOrdinary, Bool.and_eq_true, Bool.not_eq_true', List.contains_eq_mem,
        decide_eq_false_iff_not] at h
      exact ⟨⟨h.1.1, ⟨slotLinks_ne_nil left, chainClear_slotLinks left h.1.2⟩,
        slotLinks_ne_nil right, chainClear_slotLinks right h.2⟩, trivial⟩
  | .unary operator operand, h => by
      simp only [isOrdinary, isPrefixName, Bool.and_eq_true] at h
      exact ⟨⟨h.1.1, ⟨slotLinks_ne_nil operand, chainClear_slotLinks operand h.2⟩, trivial⟩,
        trivial⟩
  | .member left right, h => by
      rw [isOrdinary, Bool.and_eq_true] at h
      exact Link.chainClear_append.2 ⟨chainClear_slotLinks left h.1, chainClear_slotLinks right h.2⟩
  | .term _ (some name) none, h => by
      rw [isOrdinary, Bool.and_eq_true] at h
      exact ⟨isLinkWord_of_isIdentifier h.1, trivial⟩
  | .literal _ (some value), h => ⟨isLinkWord_of_isNumeral h, trivial⟩
  | .ternary condition thenPart elsePart, h => by
      rw [isOrdinary, Bool.and_eq_true, Bool.and_eq_true] at h
      exact ⟨⟨by decide, ⟨slotLinks_ne_nil condition, chainClear_slotLinks condition h.1.1⟩,
        ⟨slotLinks_ne_nil thenPart, chainClear_slotLinks thenPart h.1.2⟩,
        ⟨slotLinks_ne_nil elsePart, chainClear_slotLinks elsePart h.2⟩, trivial⟩, trivial⟩
  | .group inner, h =>
      ⟨⟨by decide, ⟨slotLinks_ne_nil inner, chainClear_slotLinks inner h⟩, trivial⟩, trivial⟩
  | .cast targetType inner, h => by
      simp only [isOrdinary, Bool.and_eq_true, Bool.not_eq_true', List.contains_eq_mem,
        decide_eq_false_iff_not] at h
      exact ⟨⟨by decide, h.1, slotLinks_ne_nil inner, chainClear_slotLinks inner h.2⟩, trivial⟩
  | .typeTest typeName inner, h => by
      simp only [isOrdinary, Bool.and_eq_true, Bool.not_eq_true', List.contains_eq_mem,
        decide_eq_false_iff_not] at h
      exact ⟨⟨by decide, h.1, slotLinks_ne_nil inner, chainClear_slotLinks inner h.2⟩, trivial⟩
  | .choice choices, h => ⟨⟨by decide, allClear_listLinks choices h⟩, trivial⟩
theorem chainClear_slotLinks : (slot : Option Expression) → slotIsOrdinary slot →
    Link.ChainClear (slotLinks slot)
  | none, _ => ⟨(by decide : isLinkWord "null"), trivial⟩
  | some e, h => chainClear_links e h
theorem allClear_listLinks : (es : List Expression) → listIsOrdinary es →
    Link.AllClear (listLinks es)
  | [], _ => trivial
  | e :: es, h => by
      rw [listIsOrdinary, Bool.and_eq_true] at h
      exact ⟨⟨links_ne_nil e, chainClear_links e h.1⟩, allClear_listLinks es h.2⟩
end

/-- **Ordinary expressions have one canonical text exactly if they have one chain.** -/
theorem canonical_eq_iff_links_eq {e e' : Expression} (h : e.isOrdinary) (h' : e'.isOrdinary) :
    e.canonical = e'.canonical ↔ e.links = e'.links := by
  have text : ∀ e : Expression, e.canonical.toList = chainOnto e.links [] := fun e =>
    (spell_piecesOnto e []).trans (congrArg _ spell_nil)
  have nothing : Link.ChainEnds [] := fun c mem => absurd mem (Option.not_mem_none c)
  rw [← String.toList_inj, text, text]
  constructor
  · intro same
    exact (Link.chainOnto_inj e.links e'.links (links_ne_nil e) (links_ne_nil e')
      (chainClear_links e h) (chainClear_links e' h') [] [] nothing nothing same).1
  · intro same
    rw [same]

/-! ## What chains keep -/

mutual
/-- **Expressions that are alike have one chain.** -/
theorem links_eq_of_alike {e f : Expression} : Alike e f → e.links = f.links
  | .refl _ => rfl
  | .symm h => (links_eq_of_alike h).symm
  | .trans h h' => (links_eq_of_alike h).trans (links_eq_of_alike h')
  | .regroup a b c => List.append_assoc (slotLinks a) (slotLinks b) (slotLinks c)
  | .binary left right => by
      rw [links, links, slotLinks_eq_of_slotAlike left, slotLinks_eq_of_slotAlike right]
  | .unary operand => by rw [links, links, slotLinks_eq_of_slotAlike operand]
  | .member left right => by
      rw [links, links, slotLinks_eq_of_slotAlike left, slotLinks_eq_of_slotAlike right]
  | .term => rfl
  | .call _ => rfl
  | .literal => rfl
  | .ternary condition thenPart elsePart => by
      rw [links, links, slotLinks_eq_of_slotAlike condition, slotLinks_eq_of_slotAlike thenPart,
        slotLinks_eq_of_slotAlike elsePart]
  | .group inner => by rw [links, links, slotLinks_eq_of_slotAlike inner]
  | .cast inner => by rw [links, links, slotLinks_eq_of_slotAlike inner]
  | .typeTest inner => by rw [links, links, slotLinks_eq_of_slotAlike inner]
  | .choice choices => by rw [links, links, listLinks_eq_of_listAlike choices]
theorem slotLinks_eq_of_slotAlike {slot slot' : Option Expression} :
    SlotAlike slot slot' → slotLinks slot = slotLinks slot'
  | .empty => rfl
  | .filled h => links_eq_of_alike h
theorem listLinks_eq_of_listAlike {es fs : List Expression} :
    ListAlike es fs → listLinks es = listLinks fs
  | .nil => rfl
  | .cons h hs => by
      rw [listLinks, listLinks, links_eq_of_alike h, listLinks_eq_of_listAlike hs]
end

theorem SlotAlike.refl (slot : Option Expression) : SlotAlike slot slot := by
  cases slot with
  | none => exact .empty
  | some e => exact .filled (.refl e)

theorem SlotAlike.trans {a b c : Option Expression} (h : SlotAlike a b) (h' : SlotAlike b c) :
    SlotAlike a c := by
  cases h with
  | empty => exact h'
  | filled h =>
    cases h' with
    | filled h' => exact .filled (h.trans h')

theorem SlotAlike.exists_eq_some {e : Expression} {slot : Option Expression}
    (h : SlotAlike (some e) slot) : ∃ f, slot = some f ∧ Alike e f := by
  cases h with
  | filled h => exact ⟨_, rfl, h⟩

/-- Letters come after the digits. -/
theorem not_isDigit_of_isAlpha {c : Char} (h : c.isAlpha) : ¬ c.isDigit := by
  rw [Char.isDigit_iff_toNat]
  rintro ⟨-, digit⟩
  have letter : (c.isUpper || c.isLower) = true := h
  rcases Bool.or_eq_true_iff.1 letter with upper | lower
  · have bounds : decide (c.val ≥ 'A'.val ∧ c.val ≤ 'Z'.val) = true := upper
    have above := UInt32.le_iff_toNat_le.1 (of_decide_eq_true bounds).1
    exact absurd (Nat.le_trans above digit) (by decide)
  · have bounds : (decide (c.val ≥ 'a'.val) && decide (c.val ≤ 'z'.val)) = true := lower
    have above := UInt32.le_iff_toNat_le.1 (of_decide_eq_true (Bool.and_eq_true_iff.1 bounds).1)
    exact absurd (Nat.le_trans above digit) (by decide)

/-- A numeral does not begin like an identifier. -/
theorem not_isNumeral_of_isIdentifier {w : String} (h : isIdentifier w) : ¬ isNumeral w := by
  intro numeral
  rw [isNumeral, Bool.and_eq_true, List.all_eq_true] at numeral
  unfold isIdentifier at h
  split at h
  · cases h
  · rename_i first more spelt
    have digit : first.isDigit := numeral.2 first (spelt ▸ List.mem_cons_self)
    rw [Bool.and_eq_true, Bool.or_eq_true, beq_iff_eq] at h
    rcases h.1 with letter | rfl
    · exact not_isDigit_of_isAlpha letter digit
    · exact absurd digit (by decide)

theorem ofWord_of_isIdentifier {w : String} (h : isIdentifier w) (absent : w ≠ "null") :
    ofWord w = some (.term 0 (some w) none) := by
  rw [ofWord, if_neg absent, if_neg (not_isNumeral_of_isIdentifier h)]

theorem ofWord_of_isNumeral {w : String} (h : isNumeral w) :
    ofWord w = some (.literal 0 (some w)) := by
  have absent : w ≠ "null" := by
    rintro rfl
    exact absurd h (by decide)
  rw [ofWord, if_neg absent, if_pos h]

theorem ofApplied_of_isPrefixName {w : String} (h : isPrefixName w)
    (arguments : List (Option Expression)) :
    ofApplied w arguments = .unary w arguments.head?.join := by
  simp only [isPrefixName, Bool.and_eq_true, Bool.not_eq_true', List.contains_eq_mem,
    decide_eq_false_iff_not, List.mem_cons, List.not_mem_nil, or_false, not_or] at h
  unfold ofApplied
  rw [if_neg h.2.1, if_neg h.2.2.1, if_neg h.2.2.2]

/-- **A member access is read back from the joined chains of its slots,** grouped to the right. -/
theorem slotAlike_member_ofLinks {c d : List Link} (filled : c ≠ []) (filled' : d ≠ []) :
    SlotAlike (some (.member (ofLinks c) (ofLinks d))) (ofLinks (c ++ d)) := by
  obtain ⟨m, ms, rfl⟩ := List.exists_cons_of_ne_nil filled'
  induction c with
  | nil => exact absurd rfl filled
  | cons l ls ih =>
    cases ls with
    | nil => exact .refl _
    | cons l' ls =>
      -- The first link of the left slot moves out, so that the rest of it comes before the right.
      have inner := ih (List.cons_ne_nil _ _)
      exact .trans (.filled (.regroup (ofLink l) (ofLinks (l' :: ls)) (ofLinks (m :: ms))))
        (.filled (.member (.refl (ofLink l)) inner))

mutual
/-- **An ordinary expression is like what its chain stands for.** -/
theorem slotAlike_ofLinks : (e : Expression) → e.isOrdinary → SlotAlike (some e) (ofLinks e.links)
  | .binary operator left right, h => by
      simp only [isOrdinary, Bool.and_eq_true] at h
      exact .filled (.binary (slotAlike_ofLinks_slot left h.1.2) (slotAlike_ofLinks_slot right h.2))
  | .unary operator operand, h => by
      rw [isOrdinary, Bool.and_eq_true] at h
      show SlotAlike _ (some (ofApplied operator [ofLinks (slotLinks operand)]))
      rw [ofApplied_of_isPrefixName h.1]
      exact .filled (.unary (slotAlike_ofLinks_slot operand h.2))
  | .member left right, h => by
      rw [isOrdinary, Bool.and_eq_true] at h
      exact .trans
        (.filled (.member (slotAlike_ofLinks_slot left h.1) (slotAlike_ofLinks_slot right h.2)))
        (slotAlike_member_ofLinks (slotLinks_ne_nil left) (slotLinks_ne_nil right))
  | .term _ (some name) none, h => by
      rw [isOrdinary, Bool.and_eq_true, bne_iff_ne] at h
      show SlotAlike _ (ofWord name)
      rw [ofWord_of_isIdentifier h.1 h.2]
      exact .filled .term
  | .literal _ (some value), h => by
      show SlotAlike _ (ofWord value)
      rw [ofWord_of_isNumeral h]
      exact .filled .literal
  | .ternary condition thenPart elsePart, h => by
      rw [isOrdinary, Bool.and_eq_true, Bool.and_eq_true] at h
      exact .filled (.ternary (slotAlike_ofLinks_slot condition h.1.1)
        (slotAlike_ofLinks_slot thenPart h.1.2) (slotAlike_ofLinks_slot elsePart h.2))
  | .group inner, h => .filled (.group (slotAlike_ofLinks_slot inner h))
  | .cast targetType inner, h => by
      rw [isOrdinary, Bool.and_eq_true] at h
      exact .filled (.cast (slotAlike_ofLinks_slot inner h.2))
  | .typeTest typeName inner, h => by
      rw [isOrdinary, Bool.and_eq_true] at h
      exact .filled (.typeTest (slotAlike_ofLinks_slot inner h.2))
  | .choice choices, h => .filled (.choice (listAlike_ofArguments choices h))
theorem slotAlike_ofLinks_slot : (slot : Option Expression) → slotIsOrdinary slot →
    SlotAlike slot (ofLinks (slotLinks slot))
  | none, _ => .empty
  | some e, h => slotAlike_ofLinks e h
theorem listAlike_ofArguments : (es : List Expression) → listIsOrdinary es →
    ListAlike es ((ofArguments (listLinks es)).filterMap id)
  | [], _ => .nil
  | e :: es, h => by
      rw [listIsOrdinary, Bool.and_eq_true] at h
      obtain ⟨f, found, alike⟩ := (slotAlike_ofLinks e h.1).exists_eq_some
      rw [listLinks, ofArguments, found, List.filterMap_cons_some (by rfl)]
      exact .cons alike (listAlike_ofArguments es h.2)
end

/-- **Ordinary expressions with one chain are alike,** and no others. -/
theorem alike_iff_links_eq {e e' : Expression} (h : e.isOrdinary) (h' : e'.isOrdinary) :
    Alike e e' ↔ e.links = e'.links := by
  refine ⟨links_eq_of_alike, fun same => ?_⟩
  obtain ⟨f, found, alike⟩ := (slotAlike_ofLinks e h).exists_eq_some
  obtain ⟨f', found', alike'⟩ := (slotAlike_ofLinks e' h').exists_eq_some
  rw [same, found'] at found
  obtain rfl := Option.some.inj found
  exact alike.trans alike'.symm

/-! ## Ordinary expressions as propositions -/

/-- **An ordinary expression that is a single proposition is called by its canonical text.** -/
theorem propositionName?_of_isOrdinary {e : Expression} (h : e.isOrdinary) {number : String → Nat}
    {i : Nat} (single : e.formula number = .atom i) : e.propositionName? = some e.canonical := by
  match e, h, single with
  | .binary operator left right, _, single =>
    rw [formula] at single
    refine propositionName?_of_isOpaque ?_
    cases made : Formula.between? (slotFormula number left) (slotFormula number right) operator with
    | none => exact decide_eq_true (Formula.between?_eq_none_iff.1 made)
    | some f =>
      rw [made, Option.getD_some] at single
      exact absurd (made.trans (congrArg some single)) Formula.between?_ne_atom
  | .unary operator operand, _, single =>
    rw [formula] at single
    refine propositionName?_of_isOpaque ?_
    cases made : Formula.before? (slotFormula number operand) operator with
    | none => exact decide_eq_true (Formula.before?_eq_none_iff.1 made)
    | some f =>
      rw [made, Option.getD_some] at single
      exact absurd (made.trans (congrArg some single)) Formula.before?_ne_atom
  | .term _ (some name) none, h, _ =>
    rw [isOrdinary, Bool.and_eq_true] at h
    have filled : name ≠ "" := by
      rintro rfl
      exact absurd h.1 (by decide)
    rw [propositionName?, if_neg filled]
    simp [canonical, piecesOnto, String.join_cons]
  | .literal _ (some value), _, single =>
    rw [propositionName?]
    rw [formula] at single
    split at single
    · cases single
    · rename_i notTrue
      split at single
      · cases single
      · rename_i notFalse
        rw [if_neg (not_or.2 ⟨notTrue, notFalse⟩)]
        simp [canonical, piecesOnto, String.join_cons]
  | .member _ _, _, _ | .group _, _, _ | .cast _ _, _, _ | .typeTest _ _, _, _ | .choice _, _, _ =>
    exact propositionName?_of_isOpaque rfl

/-- **The canonical text of an ordinary expression tells all but two things:** the identities of its
nodes and how its member accesses are grouped.  So two ordinary expressions that are single
propositions are the same one exactly if nothing else tells them apart, whenever they are converted
against a registry that is not emptied in between. -/
theorem canonical_unambiguous (e e' : Expression) (h : e.isOrdinary) (h' : e'.isOrdinary) :
    (e.canonical = e'.canonical ↔ Alike e e') ∧
      ∀ (r s : Registry) (i j : Nat), s.Extends (e.convert.run r).2 →
        (e.convert.run r).1 = .atom i → (e'.convert.run s).1 = .atom j →
        (i = j ↔ Alike e e') := by
  have told : e.canonical = e'.canonical ↔ Alike e e' := by
    rw [canonical_eq_iff_links_eq h h', alike_iff_links_eq h h']
  refine ⟨told, fun r s i j after single single' => ?_⟩
  have named : e.propositionName? = some e.canonical := by
    rw [convert_run e r (Registry.Extends.refl _)] at single
    exact propositionName?_of_isOrdinary h single
  have named' : e'.propositionName? = some e'.canonical := by
    rw [convert_run e' s (Registry.Extends.refl _)] at single'
    exact propositionName?_of_isOrdinary h' single'
  obtain ⟨i', j', made, made', same⟩ := exists_atoms_of_propositionName? named named' after
  obtain rfl := Formula.atom.inj (single.symm.trans made)
  obtain rfl := Formula.atom.inj (single'.symm.trans made')
  exact same.trans told

/-- A member access of three terms, grouped to the left or to the right, and a cast to two types. -/
theorem canonical_unambiguous_grouped :
    let x (id : NodeId) (name : String) : Option Expression := some (.term id (some name) none)
    let left : Expression := .member (some (.member (x 0 "a") none)) (x 1 "c")
    let right : Expression := .member (x 2 "a") (some (.member none (x 3 "c")))
    let toInt : Expression := .cast "int" (x 4 "v")
    let toByte : Expression := .cast "byte" (x 5 "v")
    Alike left right ∧ ¬ Alike toInt toByte ∧
      ∃ i j, (left.convert.run ∅).1 = .atom i ∧
        (right.convert.run (left.convert.run ∅).2).1 = .atom j ∧ i = j := by
  intro x left right toInt toByte
  obtain ⟨told, numbered⟩ := canonical_unambiguous left right (by decide) (by decide)
  have alike : Alike left right := told.1 (by decide +kernel)
  have first : (left.convert.run ∅).1 = .atom 0 := by
    refine convert_eq_atom (propositionName?_of_isOpaque rfl) ?_
    rw [nameList_convert]
    decide +kernel
  have second : (right.convert.run (left.convert.run ∅).2).1 = .atom 0 := by
    refine convert_eq_atom (propositionName?_of_isOpaque rfl) ?_
    rw [nameList_convert, nameList_convert]
    decide +kernel
  refine ⟨alike, fun same => ?_, 0, 0, first, second, ?_⟩
  · have text := (canonical_unambiguous toInt toByte (by decide) (by decide)).1.2 same
    exact absurd text (by decide +kernel)
  · exact (numbered ∅ _ 0 0 (Registry.Extends.refl _) first second).2 alike

end Expression
end ActorLtl
