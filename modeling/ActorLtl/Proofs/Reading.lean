/-
# What is written can be read back

A value is written as its tokens with blanks between them, whatever the layout
(`Json.spells_writeOnto`), and the machine of the reader makes the value of its tokens again
(`Json.run_tokensOnto`).  So a plain value is what its text is read as, in one line or over
several (`Json.read_write`).  Nothing is asked of its nesting: only who takes the value in sets a
bound.
-/

import ActorLtl.Json.Reader
import ActorLtl.Proofs.Tokens

namespace ActorLtl
namespace Json

mutual
/-- The tokens of a value, followed by `rest`. -/
def tokensOnto : Json → List Token → List Token
  | text content, rest => .quoted (some content) :: rest
  | array [], rest => .openArray :: .closeArray :: rest
  | array (v :: vs), rest => .openArray :: tokensOnto v (moreTokensOnto vs (.closeArray :: rest))
  | object [], rest => .openObject :: .closeObject :: rest
  | object ((key, v) :: members), rest =>
      .openObject :: .quoted (some key) :: .colon ::
        tokensOnto v (moreMemberTokensOnto members (.closeObject :: rest))
  | null, rest => .scalar null :: rest
  | bool value, rest => .scalar (bool value) :: rest
  | natural value, rest => .scalar (natural value) :: rest
  | number numeral, rest => .scalar (number numeral) :: rest
  | unreadable, rest => .scalar unreadable :: rest
  | stop, rest => .scalar stop :: rest
/-- The tokens of the items after the first, followed by `rest`. -/
def moreTokensOnto : List Json → List Token → List Token
  | [], rest => rest
  | v :: vs, rest => .comma :: tokensOnto v (moreTokensOnto vs rest)
/-- The tokens of the members after the first, followed by `rest`. -/
def moreMemberTokensOnto : List (String × Json) → List Token → List Token
  | [], rest => rest
  | (key, v) :: members, rest =>
      .comma :: .quoted (some key) :: .colon :: tokensOnto v (moreMemberTokensOnto members rest)
end

end Json

/-! ## From characters to tokens -/

namespace Token

variable {layout : Layout} {cs : List Char} {ts : List Token}

theorem Spells.line (h : Spells .outside cs ts) : Spells .outside (layout.lineOnto cs) ts := by
  cases layout with
  | compact => exact h
  | indented level => exact (h.blanks _).blank rfl

theorem Follows.line (h : Follows cs ts) : Follows (layout.lineOnto cs) ts := by
  cases layout with
  | compact => exact h
  | indented level =>
    refine ⟨h.spells.line, fun c first => ?_⟩
    obtain rfl := Option.mem_some_iff.1 first
    rfl

theorem Spells.colon (h : Spells .outside cs ts) (layout : Layout) :
    Spells .outside (layout.colonOnto cs) (.colon :: ts) := by
  cases layout with
  | compact => exact h.punctuation rfl
  | indented level => exact (h.blank rfl).punctuation rfl

end Token

namespace Json

open Token (Spells Follows)

mutual
/-- **A value is written as its tokens.** -/
theorem spells_writeOnto (layout : Layout) {rest : List Char} {ts : List Token} :
    (v : Json) → v.IsPlain → Follows rest ts →
      Spells .outside (v.writeOnto layout rest) (v.tokensOnto ts)
  | null, _, h => Spells.word (w := ['n', 'u', 'l', 'l']) rfl (Token.goesOn_of_all (by decide)) h
  | bool true, _, h =>
      Spells.word (w := ['t', 'r', 'u', 'e']) rfl (Token.goesOn_of_all (by decide)) h
  | bool false, _, h =>
      Spells.word (w := ['f', 'a', 'l', 's', 'e']) rfl (Token.goesOn_of_all (by decide)) h
  | natural value, plain, h => by
      rw [IsPlain] at plain
      exact Spells.word (Token.wordValue?_toDigits plain) (fun c mem => Token.goesOn_of_isDigit
        (Nat.isDigit_of_mem_toDigits (by decide) (by decide) mem)) h
  | text content, _, h => Spells.quoteOnto h.spells content
  | array [], _, h => (h.spells.punctuation rfl).punctuation rfl
  | array (v :: vs), plain, h => by
      rw [IsPlain, ListPlain] at plain
      have close : Follows (layout.lineOnto (']' :: rest)) (.closeArray :: ts) :=
        (Follows.punctuation h.spells rfl).line
      have more := follows_writeMoreOnto layout.inner vs plain.2 close
      exact (spells_writeOnto layout.inner v plain.1 more).line.punctuation rfl
  | object [], _, h => (h.spells.punctuation rfl).punctuation rfl
  | object ((key, v) :: members), plain, h => by
      rw [IsPlain, MembersPlain] at plain
      have close : Follows (layout.lineOnto ('}' :: rest)) (.closeObject :: ts) :=
        (Follows.punctuation h.spells rfl).line
      have more := follows_writeMoreMembersOnto layout.inner members plain.2 close
      have first := (spells_writeOnto layout.inner v plain.1 more).colon layout
      exact (first.quoteOnto key).line.punctuation rfl
  | number _, plain, _ => by simp only [IsPlain] at plain
  | unreadable, plain, _ => by simp only [IsPlain] at plain
  | stop, plain, _ => by simp only [IsPlain] at plain
/-- Items after the first are written as theirs. -/
theorem follows_writeMoreOnto (layout : Layout) {rest : List Char} {ts : List Token} :
    (vs : List Json) → ListPlain vs → Follows rest ts →
      Follows (writeMoreOnto layout vs rest) (moreTokensOnto vs ts)
  | [], _, h => h
  | v :: vs, plain, h => by
      rw [ListPlain] at plain
      have more := follows_writeMoreOnto layout vs plain.2 h
      exact Follows.punctuation (spells_writeOnto layout v plain.1 more).line rfl
/-- Members after the first are written as theirs. -/
theorem follows_writeMoreMembersOnto (layout : Layout) {rest : List Char} {ts : List Token} :
    (members : List (String × Json)) → MembersPlain members → Follows rest ts →
      Follows (writeMoreMembersOnto layout members rest) (moreMemberTokensOnto members ts)
  | [], _, h => h
  | (key, v) :: members, plain, h => by
      rw [MembersPlain] at plain
      have more := follows_writeMoreMembersOnto layout members plain.2 h
      have first := (spells_writeOnto layout v plain.1 more).colon layout
      exact Follows.punctuation (first.quoteOnto key).line rfl
end

/-! ## From tokens to values -/

namespace Machine

variable {stack : List Frame} {items : List Json} {members : List (Option String × Json)}
  {key : String} {t : Token} {ts : List Token} {m m' : Machine}

/-- A token in place is met, then the others. -/
theorem run_cons (step : m.step? t = some m') : m.run (t :: ts) = m'.run ts := by
  rw [run, step]

end Machine

/-- Members as the machine keeps them. -/
def keyed (member : String × Json) : Option String × Json := (some member.1, member.2)

theorem closeObject_keyed (members : List (String × Json)) :
    Machine.closeObject (members.map keyed).reverse = object members := by
  rw [Machine.closeObject, List.reverse_reverse, List.map_map]
  congr 1
  conv_rhs => rw [← List.map_id members]
  rfl

/-- No value begins with a closing bracket, so the first item is met like any value. -/
theorem run_firstItem (stack : List Frame) (v : Json) (ts : List Token) :
    (Machine.firstItem stack).run (v.tokensOnto ts) =
      (Machine.value (.array [] :: stack)).run (v.tokensOnto ts) := by
  cases v with
  | array items => cases items <;> rfl
  | object members => rcases members with _ | ⟨⟨_, _⟩, _⟩ <;> rfl
  | _ => rfl

mutual
/-- **The machine makes a value of its tokens** wherever it waits for one. -/
theorem run_tokensOnto (stack : List Frame) {ts : List Token} :
    (v : Json) → v.IsPlain →
      (Machine.value stack).run (v.tokensOnto ts) = (Machine.complete v stack).run ts
  | null, _ => Machine.run_cons rfl
  | bool _, _ => Machine.run_cons rfl
  | natural _, _ => Machine.run_cons rfl
  | text _, _ => Machine.run_cons rfl
  | array [], _ => (Machine.run_cons rfl).trans (Machine.run_cons rfl)
  | array (v :: vs), plain => by
      rw [IsPlain, ListPlain] at plain
      calc (Machine.value stack).run ((array (v :: vs)).tokensOnto ts)
          = (Machine.firstItem stack).run (v.tokensOnto (moreTokensOnto vs (.closeArray :: ts))) :=
            Machine.run_cons rfl
        _ = (Machine.value (.array [] :: stack)).run
              (v.tokensOnto (moreTokensOnto vs (.closeArray :: ts))) := run_firstItem stack v _
        _ = (Machine.afterItem [v] stack).run (moreTokensOnto vs (.closeArray :: ts)) :=
            run_tokensOnto _ v plain.1
        _ = (Machine.afterItem (vs.reverse ++ [v]) stack).run (.closeArray :: ts) :=
            run_moreTokensOnto stack [v] vs plain.2
        _ = (Machine.complete (array (vs.reverse ++ [v]).reverse) stack).run ts :=
            Machine.run_cons rfl
        _ = (Machine.complete (array (v :: vs)) stack).run ts := by
            rw [List.reverse_append, List.reverse_reverse]
            rfl
  | object [], _ => (Machine.run_cons rfl).trans (Machine.run_cons rfl)
  | object ((key, v) :: members), plain => by
      rw [IsPlain, MembersPlain] at plain
      calc (Machine.value stack).run ((object ((key, v) :: members)).tokensOnto ts)
          = (Machine.firstKey stack).run (.quoted (some key) :: .colon ::
              v.tokensOnto (moreMemberTokensOnto members (.closeObject :: ts))) :=
            Machine.run_cons rfl
        _ = (Machine.colon [] (some key) stack).run (.colon ::
              v.tokensOnto (moreMemberTokensOnto members (.closeObject :: ts))) :=
            Machine.run_cons rfl
        _ = (Machine.value (.object [] (some key) :: stack)).run
              (v.tokensOnto (moreMemberTokensOnto members (.closeObject :: ts))) :=
            Machine.run_cons rfl
        _ = (Machine.afterMember [(some key, v)] stack).run
              (moreMemberTokensOnto members (.closeObject :: ts)) := run_tokensOnto _ v plain.1
        _ = (Machine.afterMember ((members.map keyed).reverse ++ [(some key, v)]) stack).run
              (.closeObject :: ts) := run_moreMemberTokensOnto stack _ members plain.2
        _ = (Machine.complete (Machine.closeObject (((key, v) :: members).map keyed).reverse)
              stack).run ts := by
            rw [List.map_cons, List.reverse_cons]
            exact Machine.run_cons rfl
        _ = (Machine.complete (object ((key, v) :: members)) stack).run ts := by
            rw [closeObject_keyed]
  | number _, plain => by simp only [IsPlain] at plain
  | unreadable, plain => by simp only [IsPlain] at plain
  | stop, plain => by simp only [IsPlain] at plain
/-- The items after those that are there. -/
theorem run_moreTokensOnto (stack : List Frame) (items : List Json) {ts : List Token} :
    (vs : List Json) → ListPlain vs →
      (Machine.afterItem items stack).run (moreTokensOnto vs ts) =
        (Machine.afterItem (vs.reverse ++ items) stack).run ts
  | [], _ => rfl
  | v :: vs, plain => by
      rw [ListPlain] at plain
      calc (Machine.afterItem items stack).run (moreTokensOnto (v :: vs) ts)
          = (Machine.value (.array items :: stack)).run (v.tokensOnto (moreTokensOnto vs ts)) :=
            Machine.run_cons rfl
        _ = (Machine.afterItem (v :: items) stack).run (moreTokensOnto vs ts) :=
            run_tokensOnto _ v plain.1
        _ = (Machine.afterItem (vs.reverse ++ v :: items) stack).run ts :=
            run_moreTokensOnto stack (v :: items) vs plain.2
        _ = (Machine.afterItem ((v :: vs).reverse ++ items) stack).run ts := by
            rw [List.reverse_cons, List.append_assoc]
            rfl
/-- The members after those that are there. -/
theorem run_moreMemberTokensOnto (stack : List Frame) (before : List (Option String × Json))
    {ts : List Token} :
    (members : List (String × Json)) → MembersPlain members →
      (Machine.afterMember before stack).run (moreMemberTokensOnto members ts) =
        (Machine.afterMember ((members.map keyed).reverse ++ before) stack).run ts
  | [], _ => rfl
  | (key, v) :: members, plain => by
      rw [MembersPlain] at plain
      calc (Machine.afterMember before stack).run (moreMemberTokensOnto ((key, v) :: members) ts)
          = (Machine.key before stack).run (.quoted (some key) :: .colon ::
              v.tokensOnto (moreMemberTokensOnto members ts)) := Machine.run_cons rfl
        _ = (Machine.colon before (some key) stack).run (.colon ::
              v.tokensOnto (moreMemberTokensOnto members ts)) := Machine.run_cons rfl
        _ = (Machine.value (.object before (some key) :: stack)).run
              (v.tokensOnto (moreMemberTokensOnto members ts)) := Machine.run_cons rfl
        _ = (Machine.afterMember ((some key, v) :: before) stack).run
              (moreMemberTokensOnto members ts) := run_tokensOnto _ v plain.1
        _ = (Machine.afterMember ((members.map keyed).reverse ++ (some key, v) :: before)
              stack).run ts := run_moreMemberTokensOnto stack _ members plain.2
        _ = (Machine.afterMember ((((key, v) :: members).map keyed).reverse ++ before)
              stack).run ts := by
            rw [List.map_cons, List.reverse_cons, List.append_assoc]
            rfl
end

/-- **A plain value is what its text is read as.** -/
theorem read_write (layout : Layout) {v : Json} (plain : v.IsPlain) :
    read (v.write layout) = ⟨v, true⟩ := by
  have tokens : Token.ofChars (v.writeOnto layout []) = (v.tokensOnto [], true) :=
    Token.ofChars_eq_of_spells (spells_writeOnto layout v plain .nil)
  have value : (Machine.value []).run (v.tokensOnto []) = (.done v, true) :=
    run_tokensOnto [] v plain
  rw [read, write, String.toList_ofList]
  simp only [tokens, value]
  rfl

theorem parse?_write (layout : Layout) {v : Json} (plain : v.IsPlain) :
    parse? (v.write layout) = some v := by
  rw [parse?, read_write layout plain]
  rfl

end Json
end ActorLtl
