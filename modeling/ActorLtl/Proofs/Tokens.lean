/-
# The tokens of a written text

What is written of a value can be cut into the value's tokens again.  `Token.Spells` says which
tokens a run of characters is, from the place where the pass stands to the end of the text, with
one rule for each thing that is written: punctuation, a blank, a word, a quote, an escape.  A word
ends only where a character follows that cannot be part of it, which `Token.Follows` keeps track
of.  `ActorLtl.Proofs.Reading` takes a written value apart along its structure with these rules.
-/

import ActorLtl.Json.Plain
import ActorLtl.Json.Token
import Mathlib.Data.List.TakeDrop
import Mathlib.Data.List.TakeWhile
import Mathlib.Tactic.SplitIfs

namespace ActorLtl
namespace Token

namespace Pass

/-- The pass with more tokens found before. -/
def behind (ts : List Token) (p : Pass) : Pass := ⟨p.place, p.reversed ++ ts⟩

variable (ts : List Token) (p : Pass)

theorem endWord?_behind : (p.behind ts).endWord? = p.endWord?.map (behind ts) := by
  obtain ⟨place, reversed⟩ := p
  cases place with
  | word cs =>
    show (wordValue? cs.reverse).map _ = ((wordValue? cs.reverse).map _).map _
    cases wordValue? cs.reverse <;> rfl
  | _ => rfl

theorem outside?_behind (c : Char) :
    (p.behind ts).outside? c = (p.outside? c).map (behind ts) := by
  simp only [outside?, endWord?_behind]
  cases punctuation? c with
  | some token => cases p.endWord? <;> rfl
  | none =>
    cases isBlank c with
    | true => rfl
    | false =>
      by_cases quote : c = '"'
      · simp only [quote]
        cases p.endWord? <;> rfl
      · simp only [quote]
        obtain ⟨place, reversed⟩ := p
        cases place <;> rfl

/-- **Tokens found before do not matter.** -/
theorem step?_behind (c : Char) : (p.behind ts).step? c = (p.step? c).map (behind ts) := by
  obtain ⟨place, reversed⟩ := p
  cases place with
  | outside => exact outside?_behind ts _ c
  | word cs => exact outside?_behind ts _ c
  | quoted q =>
    simp only [step?, behind]
    split
    · rfl
    · split
      · rfl
      · split <;> rfl
  | escape q =>
    simp only [step?, behind]
    split
    · rfl
    · cases escaped? c <;> rfl
  | codeUnit q missing value =>
    simp only [step?, behind]
    cases hexDigit? c with
    | none => rfl
    | some digit =>
      by_cases last : missing ≤ 1
      · simp only [last]
        rfl
      · simp only [last]
        rfl

theorem run_behind (cs : List Char) :
    (p.behind ts).run cs = ((p.run cs).1.behind ts, (p.run cs).2) := by
  induction cs generalizing p with
  | nil => rfl
  | cons c cs ih =>
    rw [run, run, step?_behind]
    cases p.step? c with
    | none => rfl
    | some q => exact ih q

/-- The tokens of the whole text, if these characters are left of it. -/
def finish (cs : List Char) : List Token × Bool :=
  match (p.run cs).1.endWord? with
  | some ended => (ended.reversed.reverse, (p.run cs).2)
  | none => ((p.run cs).1.reversed.reverse, false)

theorem finish_behind (cs : List Char) :
    (p.behind ts).finish cs = (ts.reverse ++ (p.finish cs).1, (p.finish cs).2) := by
  simp only [finish, run_behind, endWord?_behind]
  cases (p.run cs).1.endWord? with
  | none => simp [behind]
  | some ended => simp [behind]

end Pass

/-- The characters, from this place to the end of the text, are the tokens. -/
def Spells (place : Place) (cs : List Char) (ts : List Token) : Prop :=
  (Pass.mk place []).finish cs = (ts, true)

theorem ofChars_eq_of_spells {cs : List Char} {ts : List Token} (h : Spells .outside cs ts) :
    ofChars cs = (ts, true) := h

/-- A character that a word cannot have. -/
def breaks (c : Char) : Bool := (punctuation? c).isSome || isBlank c

/-- The characters are the tokens, and end a word that stands before them. -/
structure Follows (cs : List Char) (ts : List Token) : Prop where
  spells : Spells .outside cs ts
  ends : ∀ c ∈ cs.head?, breaks c

section Rules

variable {place place' : Place} {c : Char} {cs w rest : List Char} {t : Token}
  {ts found : List Token} {q : Quoted} {v : Json}

/-- A step puts the tokens that it finds before the others. -/
theorem Spells.step (step : (Pass.mk place []).step? c = some ⟨place', found⟩)
    (h : Spells place' cs ts) : Spells place (c :: cs) (found.reverse ++ ts) := by
  have split : (Pass.mk place []).finish (c :: cs) =
      ((Pass.mk place' []).behind found).finish cs := by
    simp only [Pass.finish, Pass.run, step]
    rfl
  rw [Spells, split, Pass.finish_behind, h]

/-- **A character that ends no token** leads to another place. -/
theorem Spells.move (place' : Place) (step : (Pass.mk place []).step? c = some ⟨place', []⟩)
    (h : Spells place' cs ts) : Spells place (c :: cs) ts :=
  Spells.step step h

/-- **A character that ends a token** puts the token first. -/
theorem Spells.find (step : (Pass.mk place []).step? c = some ⟨place', [t]⟩)
    (h : Spells place' cs ts) : Spells place (c :: cs) (t :: ts) :=
  Spells.step step h

theorem Follows.nil : Follows [] [] := ⟨rfl, nofun⟩

theorem Spells.punctuation (h : Spells .outside cs ts) (mark : punctuation? c = some t) :
    Spells .outside (c :: cs) (t :: ts) := by
  refine Spells.find ?_ h
  simp only [Pass.step?, Pass.outside?, mark]
  rfl

theorem Follows.punctuation (h : Spells .outside cs ts) (mark : punctuation? c = some t) :
    Follows (c :: cs) (t :: ts) := by
  refine ⟨h.punctuation mark, fun d first => ?_⟩
  obtain rfl := Option.mem_some_iff.1 first
  simp only [breaks, mark]
  rfl

theorem punctuation?_of_isBlank (blank : isBlank c = true) : punctuation? c = none := by
  simp only [isBlank, Bool.or_eq_true, decide_eq_true_eq, or_assoc] at blank
  rcases blank with rfl | rfl | rfl | rfl <;> rfl

theorem Spells.blank (h : Spells .outside cs ts) (blank : isBlank c = true) :
    Spells .outside (c :: cs) ts := by
  refine Spells.move _ ?_ h
  simp only [Pass.step?, Pass.outside?, punctuation?_of_isBlank blank, blank]
  rfl

theorem Spells.blanks (h : Spells .outside cs ts) (n : Nat) :
    Spells .outside (List.replicate n ' ' ++ cs) ts := by
  induction n with
  | zero => exact h
  | succ n ih => exact ih.blank rfl

/-! ### Quoted texts -/

theorem Spells.quote (h : Spells (.quoted .start) cs ts) : Spells .outside ('"' :: cs) ts :=
  Spells.move _ rfl h

theorem Spells.unquote (h : Spells .outside cs ts) :
    Spells (.quoted q) ('"' :: cs) (.quoted q.finish :: ts) :=
  Spells.find rfl h

theorem Spells.escape {d : Char} (h : Spells (.quoted (q.push c)) cs ts) (letter : d ≠ 'u')
    (escaped : escaped? d = some c) : Spells (.quoted q) ('\\' :: d :: cs) ts := by
  refine Spells.move (.escape q) rfl (Spells.move _ ?_ h)
  simp only [Pass.step?, if_neg letter, escaped]
  rfl

theorem hexDigit?_hexDigit : ∀ n < 16, hexDigit? (Json.hexDigit n) = some n := by
  decide

/-- The code unit of a character below `U+0020` is the character. -/
theorem Spells.codeUnit (h : Spells (.quoted (q.push c)) cs ts) (low : c.toNat < 0x20)
    (whole : q.high = none) :
    Spells (.quoted q) ('\\' :: 'u' :: '0' :: '0' :: Json.hexDigit (c.toNat / 16) ::
      Json.hexDigit (c.toNat % 16) :: cs) ts := by
  have unit : q.pushUnit (16 * (16 * (16 * (16 * 0 + 0) + 0) + c.toNat / 16) + c.toNat % 16) =
      q.push c := by
    have value : 16 * (16 * (16 * (16 * 0 + 0) + 0) + c.toNat / 16) + c.toNat % 16 = c.toNat := by
      omega
    have high : ¬ (0xD800 ≤ c.toNat ∧ c.toNat ≤ 0xDBFF) := by omega
    have second : ¬ (0xDC00 ≤ c.toNat ∧ c.toNat ≤ 0xDFFF) := by omega
    rw [value, Quoted.pushUnit, whole]
    simp only [if_neg high, if_neg second, Char.ofNat_toNat, Quoted.push, whole,
      Option.isNone_none, Bool.and_true]
  have first := hexDigit?_hexDigit (c.toNat / 16) (by omega)
  have last := hexDigit?_hexDigit (c.toNat % 16) (by omega)
  refine Spells.move (.escape q) rfl ?_
  refine Spells.move (.codeUnit q 4 0) rfl ?_
  refine Spells.move (.codeUnit q 3 (16 * 0 + 0)) rfl ?_
  refine Spells.move (.codeUnit q 2 (16 * (16 * 0 + 0) + 0)) rfl ?_
  refine Spells.move (.codeUnit q 1 (16 * (16 * (16 * 0 + 0) + 0) + c.toNat / 16)) ?_ ?_
  · simp only [Pass.step?, first]
    rfl
  · refine Spells.move _ ?_ h
    rw [← unit]
    simp only [Pass.step?, last]
    rfl

/-- **An escaped character is the character.** -/
theorem Spells.escapeOnto (h : Spells (.quoted (q.push c)) cs ts) (whole : q.high = none) :
    Spells (.quoted q) (Json.escapeOnto c cs) ts := by
  unfold Json.escapeOnto
  split_ifs with quote backslash backspace formFeed lineFeed carriageReturn tab low
  · subst quote
    exact h.escape (by decide) rfl
  · subst backslash
    exact h.escape (by decide) rfl
  · subst backspace
    exact h.escape (by decide) rfl
  · subst formFeed
    exact h.escape (by decide) rfl
  · subst lineFeed
    exact h.escape (by decide) rfl
  · subst carriageReturn
    exact h.escape (by decide) rfl
  · subst tab
    exact h.escape (by decide) rfl
  · exact h.codeUnit low whole
  · refine Spells.move _ ?_ h
    simp only [Pass.step?, if_neg quote, if_neg backslash, if_neg low]

/-- The rest of a quoted text, of which `read` has been read. -/
theorem Spells.quoted (h : Spells .outside cs ts) (read content : List Char) :
    Spells (.quoted ⟨read.reverse, none, true⟩) (content.foldr Json.escapeOnto ('"' :: cs))
      (.quoted (some (String.ofList (read ++ content))) :: ts) := by
  induction content generalizing read with
  | nil =>
    rw [List.append_nil]
    have finished := Spells.unquote (q := ⟨read.reverse, none, true⟩) h
    simpa [Quoted.finish] using finished
  | cons c content ih =>
    refine Spells.escapeOnto ?_ rfl
    have more := ih (read ++ [c])
    rw [List.append_assoc, List.reverse_append] at more
    exact more

/-- **A quoted text is its token.** -/
theorem Spells.quoteOnto (h : Spells .outside cs ts) (content : String) :
    Spells .outside (Json.quoteOnto content cs) (.quoted (some content) :: ts) := by
  have read := Spells.quoted h [] content.toList
  rw [List.nil_append, String.ofList_toList] at read
  exact read.quote

/-! ### Words -/

/-- The rest of a word, of which `read` has been read. -/
theorem Spells.wordRest {read : List Char} (inner : ∀ c ∈ w, breaks c = false ∧ c ≠ '"')
    (h : Spells (.word (w.reverse ++ read)) rest ts) : Spells (.word read) (w ++ rest) ts := by
  induction w generalizing read with
  | nil => exact h
  | cons c w ih =>
    obtain ⟨goesOn, noQuote⟩ := inner c List.mem_cons_self
    simp only [breaks, Bool.or_eq_false_iff, Option.isSome_eq_false_iff,
      Option.isNone_iff_eq_none] at goesOn
    refine Spells.move (.word (c :: read)) ?_
      (ih (fun d mem => inner d (List.mem_cons_of_mem _ mem)) ?_)
    · simp only [Pass.step?, Pass.outside?, goesOn, if_neg noQuote]
      rfl
    · rwa [List.reverse_cons, List.append_assoc] at h

/-- **What follows a word ends it.** -/
theorem Spells.wordEnd (value : wordValue? w = some v) (follows : Follows rest ts) :
    Spells (.word w.reverse) rest (.scalar v :: ts) := by
  have ended : (Pass.mk (.word w.reverse) []).endWord? = some ⟨.outside, [.scalar v]⟩ := by
    simp only [Pass.endWord?, List.reverse_reverse, value]
    rfl
  have same : (Pass.mk (.word w.reverse) []).finish rest =
      ((Pass.mk .outside []).behind [.scalar v]).finish rest := by
    cases rest with
    | nil =>
      simp only [Pass.finish, Pass.run, ended]
      rfl
    | cons c rest =>
      have ends := follows.ends c rfl
      obtain ⟨next, step, step'⟩ : ∃ next, (Pass.mk (.word w.reverse) []).step? c = some next ∧
          ((Pass.mk .outside []).behind [.scalar v]).step? c = some next := by
        show ∃ next, (Pass.mk (.word w.reverse) []).outside? c = some next ∧
          (Pass.mk .outside [.scalar v]).outside? c = some next
        simp only [Pass.outside?, ended]
        cases mark : punctuation? c with
        | some token => exact ⟨_, rfl, rfl⟩
        | none =>
          rw [breaks, mark, Option.isSome_none, Bool.false_or] at ends
          simp only [ends]
          exact ⟨_, rfl, rfl⟩
      simp only [Pass.finish, Pass.run, step, step']
  rw [Spells, same, Pass.finish_behind, follows.spells]
  rfl

/-- **A word is its value.** -/
theorem Spells.word (value : wordValue? w = some v)
    (inner : ∀ c ∈ w, breaks c = false ∧ c ≠ '"') (follows : Follows rest ts) :
    Spells .outside (w ++ rest) (.scalar v :: ts) := by
  cases w with
  | nil => cases value
  | cons c w =>
    obtain ⟨goesOn, noQuote⟩ := inner c List.mem_cons_self
    simp only [breaks, Bool.or_eq_false_iff, Option.isSome_eq_false_iff,
      Option.isNone_iff_eq_none] at goesOn
    refine Spells.move (.word [c]) ?_
      (Spells.wordRest (fun d mem => inner d (List.mem_cons_of_mem _ mem)) ?_)
    · simp only [Pass.step?, Pass.outside?, goesOn, if_neg noQuote]
      rfl
    · have wordEnd := Spells.wordEnd value follows
      rwa [List.reverse_cons] at wordEnd

end Rules

/-- The characters that end a word. -/
theorem mem_of_breaks {c : Char} (h : breaks c = true) :
    c ∈ ['[', ']', '{', '}', ',', ':', ' ', '\t', '\n', '\r'] := by
  simp only [breaks, punctuation?, isBlank, Bool.or_eq_true, decide_eq_true_eq] at h
  split_ifs at h <;> simp_all [or_assoc]

/-- Characters that go on with a word, in a form that can be checked. -/
theorem goesOn_of_all {w : List Char} (h : w.all fun c => !breaks c && c != '"') :
    ∀ c ∈ w, breaks c = false ∧ c ≠ '"' := by
  simpa using h

/-- A digit goes on with a word. -/
theorem goesOn_of_isDigit {c : Char} (digit : c.isDigit = true) :
    breaks c = false ∧ c ≠ '"' := by
  have none : ∀ c ∈ ['[', ']', '{', '}', ',', ':', ' ', '\t', '\n', '\r'], c.isDigit = false := by
    simpa only [Bool.not_eq_true'] using List.all_eq_true.1
      (show ['[', ']', '{', '}', ',', ':', ' ', '\t', '\n', '\r'].all (!·.isDigit) from by decide)
  constructor
  · rw [← Bool.not_eq_true]
    intro ends
    rw [none c (mem_of_breaks ends)] at digit
    cases digit
  · rintro rfl
    cases digit

end Token

/-! ## Natural numbers -/

namespace Numeral

/-- A decimal representation begins with a zero only if it is that of zero. -/
theorem eq_zero_of_head?_toDigits {n : Nat} (h : (Nat.toDigits 10 n).head? = some '0') :
    n = 0 := by
  induction n using Nat.strongRecOn with
  | ind n ih =>
    rw [Nat.toDigits_eq_if (by decide)] at h
    split at h
    · rename_i small
      have digit : ∀ d < 10, Nat.digitChar d = '0' → d = 0 := by decide
      exact digit n small (Option.some.inj h)
    · rename_i large
      rw [List.head?_append, Option.or_of_isSome (List.isSome_head?.2 Nat.toDigits_ne_nil)] at h
      have := ih (n / 10) (by omega) h
      omega

theorem digits_toDigits (n : Nat) : digits (Nat.toDigits 10 n) = (Nat.toDigits 10 n, []) := by
  have all : ∀ c ∈ Nat.toDigits 10 n, c.isDigit = true :=
    fun c mem => Nat.isDigit_of_mem_toDigits (by decide) (by decide) mem
  rw [digits, List.span_eq_takeWhile_dropWhile, List.takeWhile_eq_self_iff.2 all,
    List.dropWhile_eq_nil_iff.2 all]

/-- **The digits of a number are a numeral without anything else.** -/
theorem ofChars?_toDigits (n : Nat) :
    ofChars? (Nat.toDigits 10 n) = some ⟨false, Nat.toDigits 10 n, [], none⟩ := by
  have leading : ¬ (Nat.toDigits 10 n = [] ∨
      ((Nat.toDigits 10 n).head? = some '0' ∧ Nat.toDigits 10 n ≠ ['0'])) := by
    rintro (empty | ⟨zero, more⟩)
    · exact Nat.toDigits_ne_nil empty
    · rw [eq_zero_of_head?_toDigits zero] at more
      exact more rfl
  have sign : ∀ cs, Nat.toDigits 10 n ≠ '-' :: cs := by
    intro cs minus
    have digit : '-'.isDigit = true := Nat.isDigit_of_mem_toDigits (b := 10) (n := n)
      (by decide) (by decide) (minus ▸ List.mem_cons_self)
    cases digit
  unfold ofChars?
  split
  rename_i negative cs split
  have unsigned : negative = false ∧ cs = Nat.toDigits 10 n := by
    revert split
    split
    · rename_i rest minus
      exact absurd minus (sign rest)
    · rintro ⟨⟩
      exact ⟨rfl, rfl⟩
  obtain ⟨rfl, rfl⟩ := unsigned
  simp only [digits_toDigits, if_neg leading]
  rfl

end Numeral

namespace Json

/-- **The decimal representation of a number is the number.** -/
theorem ofNumber?_toDigits {n : Nat} (small : n < UInt64.size) :
    ofNumber? (Nat.toDigits 10 n) = some (natural n) := by
  have value : (Numeral.mk false (Nat.toDigits 10 n) [] none).natural? = some n := by
    simp only [Numeral.natural?, Nat.ofDigitChars_ten_toDigits, if_pos small]
    rfl
  rw [ofNumber?, Numeral.ofChars?_toDigits, Option.bind_eq_bind, Option.bind_some, value]
  rfl

end Json

/-- **So is the word.** -/
theorem Token.wordValue?_toDigits {n : Nat} (small : n < UInt64.size) :
    wordValue? (Nat.toDigits 10 n) = some (.natural n) := by
  -- The other words begin with letters.
  have other : ∀ c cs, c.isDigit = false → Nat.toDigits 10 n ≠ c :: cs := by
    intro c cs letter word
    have digit : c.isDigit = true := Nat.isDigit_of_mem_toDigits (b := 10) (n := n)
      (by decide) (by decide) (word ▸ List.mem_cons_self)
    rw [letter] at digit
    cases digit
  rw [wordValue?, if_neg (other 'n' _ rfl), if_neg (other 't' _ rfl), if_neg (other 'f' _ rfl),
    Json.ofNumber?_toDigits small]

end ActorLtl
