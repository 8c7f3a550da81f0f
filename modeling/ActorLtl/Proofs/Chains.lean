/-
# Chains can be read in one way only

In a clear chain every word ends where a character comes that is none of a word, every operator at
a space and every type at `>`.  So the text of a chain is told apart into its links from left to
right, whatever follows that a chain can end at: a dot goes on with the next link, and a space, a
comma or a closing parenthesis ends the chain (`Link.chainOnto_inj`).
-/

import ActorLtl.Expression.Chain

namespace ActorLtl

/-! ## Where words, types and operators end -/

/-- **Runs that end where a character comes that does not belong to them** are told apart. -/
theorem append_inj_of_run {p : Char → Bool} {run run' rest rest' : List Char}
    (all : ∀ c ∈ run, p c) (all' : ∀ c ∈ run', p c) (ends : ∀ c ∈ rest.head?, p c = false)
    (ends' : ∀ c ∈ rest'.head?, p c = false) (same : run ++ rest = run' ++ rest') :
    run = run' ∧ rest = rest' := by
  have cut : ∀ {run rest : List Char}, (∀ c ∈ run, p c) → (∀ c ∈ rest.head?, p c = false) →
      (run ++ rest).takeWhile p = run := by
    intro run rest all ends
    rw [List.takeWhile_append_of_pos all]
    cases rest with
    | nil => rw [List.takeWhile_nil, List.append_nil]
    | cons c rest =>
      rw [List.takeWhile_cons_of_neg (Bool.not_eq_true _ ▸ ends c rfl), List.append_nil]
  have runs : run = run' := by rw [← cut all ends, same, cut all' ends']
  exact ⟨runs, List.append_cancel_left (runs ▸ same)⟩

/-- A text ends where a character comes that does not occur in it. -/
theorem toList_append_inj {last : Char} {text text' : String} {rest rest' : List Char}
    (free : last ∉ text.toList) (free' : last ∉ text'.toList)
    (same : text.toList ++ last :: rest = text'.toList ++ last :: rest') :
    text = text' ∧ rest = rest' := by
  have others : ∀ {text : String}, last ∉ text.toList → ∀ c ∈ text.toList, c != last :=
    fun free c mem => bne_iff_ne.2 fun is_last => free (is_last ▸ mem)
  have ends : ∀ {rest : List Char}, ∀ c ∈ (last :: rest).head?, (c != last) = false := by
    rintro rest c ⟨⟩
    exact bne_self_eq_false last
  obtain ⟨texts, rests⟩ := append_inj_of_run (others free) (others free') ends ends same
  exact ⟨String.toList_inj.1 texts, (List.cons.inj rests).2⟩

theorem isLinkWord_iff {w : String} :
    isLinkWord w ↔ w.toList ≠ [] ∧ ∀ c ∈ w.toList, isLinkChar c := by
  rw [isLinkWord, Bool.and_eq_true, bne_iff_ne, List.all_eq_true, ne_eq, ne_eq,
    String.toList_eq_nil_iff]

namespace Link

/-- Whether a link can end here: nothing follows, or what goes on with a chain or ends it. -/
def Ends (rest : List Char) : Prop := ∀ c ∈ rest.head?, c ∈ ['.', ' ', ')', ',']

/-- Whether a chain can end here. -/
def ChainEnds (rest : List Char) : Prop := ∀ c ∈ rest.head?, c ∈ [' ', ')', ',']

variable {rest rest' : List Char}

theorem ChainEnds.ends (h : ChainEnds rest) : Ends rest :=
  fun c mem => List.mem_cons_of_mem _ (h c mem)

theorem Ends.ne_open (h : Ends rest) : rest ≠ '(' :: rest' := by
  rintro rfl
  exact absurd (h '(' rfl) (by decide)

theorem Ends.ne_angle (h : Ends rest) : rest ≠ '<' :: rest' := by
  rintro rfl
  exact absurd (h '<' rfl) (by decide)

theorem ChainEnds.ne_dot (h : ChainEnds rest) : rest ≠ '.' :: rest' := by
  rintro rfl
  exact absurd (h '.' rfl) (by decide)

theorem chainEnds_space (rest : List Char) : ChainEnds (' ' :: rest) := by
  rintro c ⟨⟩
  decide

theorem chainEnds_close (rest : List Char) : ChainEnds (')' :: rest) := by
  rintro c ⟨⟩
  decide

/-- After a link of a chain comes a dot, or the end of the chain. -/
theorem ends_moreOnto (ls : List Link) (h : ChainEnds rest) : Ends (moreOnto ls rest) := by
  cases ls with
  | nil => exact h.ends
  | cons l ls =>
    rintro c ⟨⟩
    decide

/-- After an argument comes a comma, or the end of the arguments. -/
theorem chainEnds_moreArgumentsOnto (cs : List (List Link)) (rest : List Char) :
    ChainEnds (moreArgumentsOnto cs (')' :: rest)) := by
  cases cs with
  | nil => exact chainEnds_close rest
  | cons c cs =>
    rintro c ⟨⟩
    decide

/-! ## Links -/

/-- The word that a link begins with; there is none if it is in parentheses. -/
def head : Link → List Char
  | word w => w.toList
  | applied w _ => w.toList
  | typed w _ _ => w.toList
  | infixed _ _ _ => []

/-- What comes after the head of a link. -/
def afterHead : Link → List Char → List Char
  | word _, rest => rest
  | applied _ arguments, rest => '(' :: argumentsOnto arguments (')' :: rest)
  | typed _ type operand, rest =>
      '<' :: (type.toList ++ '>' :: '(' :: chainOnto operand (')' :: rest))
  | infixed operator left right, rest =>
      '(' :: chainOnto left (' ' :: (operator.toList ++ ' ' :: chainOnto right (')' :: rest)))

theorem charsOnto_eq (l : Link) (rest : List Char) :
    l.charsOnto rest = l.head ++ l.afterHead rest := by
  cases l <;> rfl

theorem isLinkChar_of_mem_head {l : Link} (clear : l.IsClear) : ∀ c ∈ l.head, isLinkChar c := by
  cases l with
  | word w => exact (isLinkWord_iff.1 clear).2
  | applied w _ => exact (isLinkWord_iff.1 clear.1).2
  | typed w _ _ => exact (isLinkWord_iff.1 clear.1).2
  | infixed _ _ _ => exact fun c mem => absurd mem List.not_mem_nil

/-- The head ends where the link goes on or ends. -/
theorem not_isLinkChar_afterHead {l : Link} (ends : Ends rest) :
    ∀ c ∈ (l.afterHead rest).head?, isLinkChar c = false := by
  cases l with
  | word w =>
    intro c mem
    have among := ends c mem
    simp only [List.mem_cons, List.not_mem_nil, or_false] at among
    rcases among with rfl | rfl | rfl | rfl <;> decide
  | applied _ _ | typed _ _ _ | infixed _ _ _ =>
    rintro c ⟨⟩
    decide

/-- **Links with one text have one head,** and one text after it. -/
theorem head_inj {p q : Link} (hp : p.IsClear) (hq : q.IsClear) (ends : Ends rest)
    (ends' : Ends rest') (same : p.charsOnto rest = q.charsOnto rest') :
    p.head = q.head ∧ p.afterHead rest = q.afterHead rest' := by
  rw [charsOnto_eq, charsOnto_eq] at same
  exact append_inj_of_run (isLinkChar_of_mem_head hp) (isLinkChar_of_mem_head hq)
    (not_isLinkChar_afterHead ends) (not_isLinkChar_afterHead ends') same

/-- Only what is in parentheses has no word at its head. -/
theorem eq_infixed_of_head_eq_nil {l : Link} (clear : l.IsClear) (h : l.head = []) :
    ∃ operator left right, l = infixed operator left right := by
  cases l with
  | word w => exact absurd h (isLinkWord_iff.1 clear).1
  | applied w _ => exact absurd h (isLinkWord_iff.1 clear.1).1
  | typed w _ _ => exact absurd h (isLinkWord_iff.1 clear.1).1
  | infixed operator left right => exact ⟨operator, left, right, rfl⟩

/-- A chain does not begin with a closing parenthesis. -/
theorem chainOnto_ne_close {c : List Link} (filled : c ≠ []) (clear : ChainClear c) :
    chainOnto c rest ≠ ')' :: rest' := by
  cases c with
  | nil => exact absurd rfl filled
  | cons l ls =>
    intro same
    rw [chainOnto, charsOnto_eq] at same
    cases opens : l.head with
    | nil =>
      obtain ⟨operator, left, right, rfl⟩ := eq_infixed_of_head_eq_nil clear.1 opens
      exact absurd (List.cons.inj same).1 (by decide)
    | cons first more =>
      rw [opens] at same
      have closes : isLinkChar ')' := by
        rw [← (List.cons.inj same).1]
        exact isLinkChar_of_mem_head clear.1 first (opens ▸ List.mem_cons_self)
      exact absurd closes (by decide)

/-! ## Chains -/

mutual
/-- **A link is read off its text,** whatever may follow a link. -/
theorem charsOnto_inj : (p q : Link) → p.IsClear → q.IsClear → (rest rest' : List Char) →
    Ends rest → Ends rest' → p.charsOnto rest = q.charsOnto rest' → p = q ∧ rest = rest'
  | .word w, q, hp, hq, rest, rest', ends, ends', same => by
      -- The head tells parentheses from the other three, and those are told apart by what comes
      -- after it: a parenthesis, an angle bracket, or a place where the link can end.
      obtain ⟨head, after⟩ := head_inj hp hq ends ends' same
      cases q with
      | word w' =>
        obtain rfl := String.toList_inj.1 head
        exact ⟨rfl, after⟩
      | applied _ _ => exact absurd after ends.ne_open
      | typed _ _ _ => exact absurd after ends.ne_angle
      | infixed _ _ _ =>
        obtain ⟨_, _, _, opposite⟩ := eq_infixed_of_head_eq_nil hp head
        cases opposite
  | .applied w arguments, q, hp, hq, rest, rest', ends, ends', same => by
      obtain ⟨head, after⟩ := head_inj hp hq ends ends' same
      cases q with
      | word _ => exact absurd after.symm ends'.ne_open
      | applied w' arguments' =>
        obtain rfl := String.toList_inj.1 head
        obtain ⟨rfl, rest_eq⟩ := argumentsOnto_inj arguments arguments' hp.2 hq.2 rest rest'
          (List.cons.inj after).2
        exact ⟨rfl, rest_eq⟩
      | typed _ _ _ => exact absurd (List.cons.inj after).1 (by decide)
      | infixed _ _ _ =>
        obtain ⟨_, _, _, opposite⟩ := eq_infixed_of_head_eq_nil hp head
        cases opposite
  | .typed w type operand, q, hp, hq, rest, rest', ends, ends', same => by
      obtain ⟨head, after⟩ := head_inj hp hq ends ends' same
      cases q with
      | word _ => exact absurd after.symm ends'.ne_angle
      | applied _ _ => exact absurd (List.cons.inj after).1 (by decide)
      | typed w' type' operand' =>
        obtain rfl := String.toList_inj.1 head
        obtain ⟨rfl, operands⟩ := toList_append_inj hp.2.1 hq.2.1 (List.cons.inj after).2
        obtain ⟨rfl, closed⟩ := chainOnto_inj operand operand' hp.2.2.1 hq.2.2.1 hp.2.2.2 hq.2.2.2
          _ _ (chainEnds_close rest) (chainEnds_close rest') (List.cons.inj operands).2
        exact ⟨rfl, (List.cons.inj closed).2⟩
      | infixed _ _ _ =>
        obtain ⟨_, _, _, opposite⟩ := eq_infixed_of_head_eq_nil hp head
        cases opposite
  | .infixed operator left right, q, hp, hq, rest, rest', ends, ends', same => by
      obtain ⟨head, after⟩ := head_inj hp hq ends ends' same
      obtain ⟨operator', left', right', rfl⟩ := eq_infixed_of_head_eq_nil hq head.symm
      obtain ⟨rfl, operators⟩ := chainOnto_inj left left' hp.2.1.1 hq.2.1.1 hp.2.1.2 hq.2.1.2
        _ _ (chainEnds_space _) (chainEnds_space _) (List.cons.inj after).2
      obtain ⟨rfl, rights⟩ := toList_append_inj hp.1 hq.1 (List.cons.inj operators).2
      obtain ⟨rfl, closed⟩ := chainOnto_inj right right' hp.2.2.1 hq.2.2.1 hp.2.2.2 hq.2.2.2
        _ _ (chainEnds_close rest) (chainEnds_close rest') rights
      exact ⟨rfl, (List.cons.inj closed).2⟩
/-- **A chain is read off its text,** whatever may follow a chain. -/
theorem chainOnto_inj : (c d : List Link) → c ≠ [] → d ≠ [] → ChainClear c → ChainClear d →
    (rest rest' : List Char) → ChainEnds rest → ChainEnds rest' →
    chainOnto c rest = chainOnto d rest' → c = d ∧ rest = rest'
  | [], _, filled, _, _, _, _, _, _, _, _ => absurd rfl filled
  | _ :: _, [], _, filled, _, _, _, _, _, _, _ => absurd rfl filled
  | l :: ls, m :: ms, _, _, hc, hd, rest, rest', ends, ends', same => by
      obtain ⟨rfl, more⟩ := charsOnto_inj l m hc.1 hd.1 _ _ (ends_moreOnto ls ends)
        (ends_moreOnto ms ends') same
      obtain ⟨rfl, rest_eq⟩ := moreOnto_inj ls ms hc.2 hd.2 rest rest' ends ends' more
      exact ⟨rfl, rest_eq⟩
theorem moreOnto_inj : (ls ms : List Link) → ChainClear ls → ChainClear ms →
    (rest rest' : List Char) → ChainEnds rest → ChainEnds rest' →
    moreOnto ls rest = moreOnto ms rest' → ls = ms ∧ rest = rest'
  | [], [], _, _, _, _, _, _, same => ⟨rfl, same⟩
  | [], _ :: _, _, _, _, _, ends, _, same => absurd same ends.ne_dot
  | _ :: _, [], _, _, _, _, _, ends', same => absurd same.symm ends'.ne_dot
  | l :: ls, m :: ms, hl, hm, rest, rest', ends, ends', same => by
      obtain ⟨rfl, more⟩ := charsOnto_inj l m hl.1 hm.1 _ _ (ends_moreOnto ls ends)
        (ends_moreOnto ms ends') (List.cons.inj same).2
      obtain ⟨rfl, rest_eq⟩ := moreOnto_inj ls ms hl.2 hm.2 rest rest' ends ends' more
      exact ⟨rfl, rest_eq⟩
theorem argumentsOnto_inj : (cs ds : List (List Link)) → AllClear cs → AllClear ds →
    (rest rest' : List Char) → argumentsOnto cs (')' :: rest) = argumentsOnto ds (')' :: rest') →
    cs = ds ∧ rest = rest'
  | [], [], _, _, _, _, same => ⟨rfl, (List.cons.inj same).2⟩
  | [], _ :: _, _, hd, _, _, same => absurd same.symm (chainOnto_ne_close hd.1.1 hd.1.2)
  | _ :: _, [], hc, _, _, _, same => absurd same (chainOnto_ne_close hc.1.1 hc.1.2)
  | c :: cs, d :: ds, hc, hd, rest, rest', same => by
      obtain ⟨rfl, more⟩ := chainOnto_inj c d hc.1.1 hd.1.1 hc.1.2 hd.1.2 _ _
        (chainEnds_moreArgumentsOnto cs rest) (chainEnds_moreArgumentsOnto ds rest') same
      obtain ⟨rfl, rest_eq⟩ := moreArgumentsOnto_inj cs ds hc.2 hd.2 rest rest' more
      exact ⟨rfl, rest_eq⟩
theorem moreArgumentsOnto_inj : (cs ds : List (List Link)) → AllClear cs → AllClear ds →
    (rest rest' : List Char) →
    moreArgumentsOnto cs (')' :: rest) = moreArgumentsOnto ds (')' :: rest') →
    cs = ds ∧ rest = rest'
  | [], [], _, _, _, _, same => ⟨rfl, (List.cons.inj same).2⟩
  | [], _ :: _, _, _, _, _, same => absurd (List.cons.inj same).1 (by decide)
  | _ :: _, [], _, _, _, _, same => absurd (List.cons.inj same).1 (by decide)
  | c :: cs, d :: ds, hc, hd, rest, rest', same => by
      have spaced := (List.cons.inj same).2
      obtain ⟨rfl, more⟩ := chainOnto_inj c d hc.1.1 hd.1.1 hc.1.2 hd.1.2 _ _
        (chainEnds_moreArgumentsOnto cs rest) (chainEnds_moreArgumentsOnto ds rest')
        (List.cons.inj spaced).2
      obtain ⟨rfl, rest_eq⟩ := moreArgumentsOnto_inj cs ds hc.2 hd.2 rest rest' more
      exact ⟨rfl, rest_eq⟩
end

/-- Chains are joined by a dot. -/
theorem moreOnto_append (ls ms : List Link) (rest : List Char) :
    moreOnto (ls ++ ms) rest = moreOnto ls (moreOnto ms rest) := by
  induction ls with
  | nil => rfl
  | cons l ls ih => rw [List.cons_append, moreOnto, moreOnto, ih]

theorem chainOnto_append {c d : List Link} (filled : c ≠ []) (filled' : d ≠ [])
    (rest : List Char) : chainOnto (c ++ d) rest = chainOnto c ('.' :: chainOnto d rest) := by
  obtain ⟨l, ls, rfl⟩ := List.exists_cons_of_ne_nil filled
  obtain ⟨m, ms, rfl⟩ := List.exists_cons_of_ne_nil filled'
  rw [List.cons_append, chainOnto, moreOnto_append]
  rfl

theorem chainClear_append {c d : List Link} :
    ChainClear (c ++ d) ↔ ChainClear c ∧ ChainClear d := by
  induction c with
  | nil => exact (and_iff_right trivial).symm
  | cons l ls ih => rw [List.cons_append, ChainClear, ChainClear, ih, and_assoc]

end Link
end ActorLtl
